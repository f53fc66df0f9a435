import MarkupQuery.Text.Blank

/-!
# JSON texts

A strict reader of JSON: no comments, no trailing commas, nothing behind the value.  The value of a
number is not kept, since no setting is a number.  A string whose escapes name half of a surrogate
pair is well formed and has no text.
-/

namespace MarkupQuery

/-- A JSON value. -/
inductive Json where
  | null
  | boolean (value : Bool)
  | number
  | string (text : Option String)
  | array (items : List Json)
  | object (members : List (Option String × Json))
  deriving Inhabited

namespace Json

open Text (isBlank)

/-- The value of a hexadecimal digit. -/
def hexValue? (c : Char) : Option Nat :=
  if c.isDigit then some (c.toNat - '0'.toNat)
  else if 'a' ≤ c && c ≤ 'f' then some (c.toNat - 'a'.toNat + 10)
  else if 'A' ≤ c && c ≤ 'F' then some (c.toNat - 'A'.toNat + 10)
  else none

/-- The value of four hexadecimal digits. -/
def hexQuad? (a b c d : Char) : Option Nat := do
  let a ← hexValue? a
  let b ← hexValue? b
  let c ← hexValue? c
  let d ← hexValue? d
  return ((a * 16 + b) * 16 + c) * 16 + d

/-- What an escape of one letter stands for. -/
def shortEscape? : Char → Option Char
  | '"' => some '"'
  | '\\' => some '\\'
  | '/' => some '/'
  | 'b' => some '\x08'
  | 'f' => some '\x0c'
  | 'n' => some '\n'
  | 'r' => some '\r'
  | 't' => some '\t'
  | _ => none

/-- The code units of a string behind its opening quote, and what follows the closing one.  A code
unit is a character or the half of a surrogate pair. -/
def readUnits : List Char → Option (List (Char ⊕ Nat) × List Char)
  | '"' :: rest => some ([], rest)
  | '\\' :: 'u' :: a :: b :: c :: d :: rest => do
    let unit ← hexQuad? a b c d
    let (units, rest) ← readUnits rest
    let isSurrogate := 0xD800 ≤ unit && unit ≤ 0xDFFF
    return ((if isSurrogate then .inr unit else .inl (Char.ofNat unit)) :: units, rest)
  | '\\' :: c :: rest => do
    let escaped ← shortEscape? c
    let (units, rest) ← readUnits rest
    return (.inl escaped :: units, rest)
  | c :: rest =>
    if c.toNat < 0x20 then none
    else do
      let (units, rest) ← readUnits rest
      return (.inl c :: units, rest)
  | [] => none

/-- The text of code units, none when a half is without its other half. -/
def textOfUnits? : List (Char ⊕ Nat) → Option (List Char)
  | [] => some []
  | .inl c :: rest => (textOfUnits? rest).map (c :: ·)
  | .inr high :: .inr low :: rest =>
    if high < 0xDC00 && 0xDC00 ≤ low then
      let c := Char.ofNat (0x10000 + (high - 0xD800) * 0x400 + (low - 0xDC00))
      (textOfUnits? rest).map (c :: ·)
    else none
  | .inr _ :: _ => none

/-- Reads a string behind its opening quote. -/
def readString (cs : List Char) : Option (Option String × List Char) := do
  let (units, rest) ← readUnits cs
  return ((textOfUnits? units).map String.ofList, rest)

/-- Drops one digit or more. -/
def dropDigits : List Char → Option (List Char)
  | c :: rest => if c.isDigit then some (rest.dropWhile Char.isDigit) else none
  | [] => none

/-- Drops the fraction of a number, if there is one. -/
def dropFraction : List Char → Option (List Char)
  | '.' :: rest => dropDigits rest
  | cs => some cs

/-- Drops the exponent of a number, if there is one. -/
def dropExponent : List Char → Option (List Char)
  | 'e' :: '+' :: rest | 'e' :: '-' :: rest | 'E' :: '+' :: rest | 'E' :: '-' :: rest
  | 'e' :: rest | 'E' :: rest => dropDigits rest
  | cs => some cs

/-- Drops a number; a zero at its start stands alone. -/
def dropNumber (cs : List Char) : Option (List Char) := do
  let cs :=
    match cs with
    | '-' :: rest => rest
    | _ => cs
  let behind ←
    match cs with
    | '0' :: rest => some rest
    | _ => dropDigits cs
  dropExponent (← dropFraction behind)

mutual

/-- Reads a value behind blanks. -/
def readValue (fuel : Nat) (cs : List Char) : Option (Json × List Char) :=
  match fuel with
  | 0 => none
  | fuel + 1 =>
    match cs.dropWhile isBlank with
    | 'n' :: 'u' :: 'l' :: 'l' :: rest => some (null, rest)
    | 't' :: 'r' :: 'u' :: 'e' :: rest => some (boolean true, rest)
    | 'f' :: 'a' :: 'l' :: 's' :: 'e' :: rest => some (boolean false, rest)
    | '"' :: rest => do
      let (text, rest) ← readString rest
      return (string text, rest)
    | '[' :: rest =>
      match rest.dropWhile isBlank with
      | ']' :: rest => some (array [], rest)
      | rest => do
        let (items, rest) ← readItems fuel rest
        return (array items, rest)
    | '\x7b' :: rest =>
      match rest.dropWhile isBlank with
      | '\x7d' :: rest => some (object [], rest)
      | rest => do
        let (members, rest) ← readMembers fuel rest
        return (object members, rest)
    | rest => do
      let rest ← dropNumber rest
      return (number, rest)

/-- Reads the items of an array and its closing bracket. -/
def readItems (fuel : Nat) (cs : List Char) : Option (List Json × List Char) :=
  match fuel with
  | 0 => none
  | fuel + 1 => do
    let (first, rest) ← readValue fuel cs
    match rest.dropWhile isBlank with
    | ',' :: rest => do
      let (others, rest) ← readItems fuel rest
      return (first :: others, rest)
    | ']' :: rest => return ([first], rest)
    | _ => none

/-- Reads the members of an object and its closing brace. -/
def readMembers (fuel : Nat) (cs : List Char) :
    Option (List (Option String × Json) × List Char) :=
  match fuel with
  | 0 => none
  | fuel + 1 =>
    match cs.dropWhile isBlank with
    | '"' :: rest => do
      let (key, rest) ← readString rest
      match rest.dropWhile isBlank with
      | ':' :: rest => do
        let (value, rest) ← readValue fuel rest
        match rest.dropWhile isBlank with
        | ',' :: rest => do
          let (others, rest) ← readMembers fuel rest
          return ((key, value) :: others, rest)
        | '\x7d' :: rest => return ([(key, value)], rest)
        | _ => none
      | _ => none
    | _ => none

end

/-- Reads a text that holds one value.  Each level of the recursion uses up a character. -/
def ofText? (text : String) : Option Json := do
  let cs := text.toList
  let (value, rest) ← readValue (2 * cs.length + 2) cs
  if rest.all isBlank then return value else none

/-- The text of a string. -/
def string? : Json → Option String
  | string text => text
  | _ => none

def boolean? : Json → Option Bool
  | boolean value => some value
  | _ => none

/-- The texts of an array of strings. -/
def strings? : Json → Option (List String)
  | array items => items.mapM string?
  | _ => none

end Json

end MarkupQuery
