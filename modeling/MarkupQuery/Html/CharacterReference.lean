import MarkupQuery.Html.CharacterReference.Table

/-!
# Character references

What follows an ampersand in markup, where it stands for characters: a name from the table, or the
number of a code point.  An ampersand that starts no reference stands for itself.
-/

namespace MarkupQuery.Html

/-- The character that takes the place of code points that may not occur. -/
def replacementChar : Char := '\ufffd'

def isHexDigit (c : Char) : Bool :=
  c.isDigit || ('a' ≤ c && c ≤ 'f') || ('A' ≤ c && c ≤ 'F')

/-- The number that digits of a base stand for, cut off above the code points. -/
def codeOfDigits (base : Nat) (digits : List Char) : Nat :=
  digits.foldl (fun n c => min 0x110000 (base * n + natOfHex [c.toUpper])) 0

/-- What the numbers of C1 control characters stand for: the characters of an old code page at
those places, where it has any. -/
def c1Replacements : List (Nat × Nat) :=
  [(0x80, 0x20AC), (0x82, 0x201A), (0x83, 0x0192), (0x84, 0x201E), (0x85, 0x2026), (0x86, 0x2020),
   (0x87, 0x2021), (0x88, 0x02C6), (0x89, 0x2030), (0x8A, 0x0160), (0x8B, 0x2039), (0x8C, 0x0152),
   (0x8E, 0x017D), (0x91, 0x2018), (0x92, 0x2019), (0x93, 0x201C), (0x94, 0x201D), (0x95, 0x2022),
   (0x96, 0x2013), (0x97, 0x2014), (0x98, 0x02DC), (0x99, 0x2122), (0x9A, 0x0161), (0x9B, 0x203A),
   (0x9C, 0x0153), (0x9E, 0x017E), (0x9F, 0x0178)]

/-- The character for a number in a reference. -/
def charOfReference (code : Nat) : Char :=
  if code = 0 || code > 0x10FFFF || (0xD800 ≤ code && code ≤ 0xDFFF) then replacementChar
  else Char.ofNat ((c1Replacements.lookup code).getD code)

/-- A character reference that has been read. -/
structure CharacterReference where
  /-- The characters that it stands for. -/
  text : List Char
  /-- Whether a semicolon ends it. -/
  closed : Bool
  /-- What follows it. -/
  rest : List Char

/-- Ends a reference at its semicolon, if it has one. -/
def CharacterReference.close (text : List Char) : List Char → CharacterReference
  | ';' :: rest => ⟨text, true, rest⟩
  | rest => ⟨text, false, rest⟩

/-- Reads a reference by number behind `&#`. -/
def numericReference? (cs : List Char) : Option CharacterReference :=
  let (base, isDigit, cs) : Nat × (Char → Bool) × List Char :=
    match cs with
    | 'x' :: rest | 'X' :: rest => (16, isHexDigit, rest)
    | _ => (10, Char.isDigit, cs)
  let digits := cs.takeWhile isDigit
  if digits.isEmpty then none
  else some (.close [charOfReference (codeOfDigits base digits)] (cs.dropWhile isDigit))

/-- The longest named reference at the start of a text among the names of at most `length`
characters, with what follows it.  In an attribute a name without its semicolon does not count
before an equals sign or a letter or digit. -/
def namedReferenceUpTo (inAttribute : Bool) (cs : List Char) :
    (length : Nat) → Option CharacterReference
  | 0 => none
  | length + 1 =>
    let shorter := namedReferenceUpTo inAttribute cs length
    if cs.length ≤ length then shorter
    else
      match namedReference? (String.ofList (cs.take (length + 1))) with
      | none => shorter
      | some reference =>
        let read := CharacterReference.close reference.text (cs.drop (length + 1))
        if read.closed then some read
        else if !reference.bare then shorter
        else if inAttribute && read.rest.head?.any (fun c => c == '=' || c.isAlphanum) then none
        else some read

/-- Reads the reference that follows an ampersand, if one starts here. -/
def readReference? (inAttribute : Bool) : List Char → Option CharacterReference
  | '#' :: rest => numericReference? rest
  | cs =>
    let name := cs.takeWhile Char.isAlphanum
    namedReferenceUpTo inAttribute cs (min name.length longestName)

end MarkupQuery.Html
