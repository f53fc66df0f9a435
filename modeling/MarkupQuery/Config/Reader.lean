import MarkupQuery.Config
import MarkupQuery.Config.Json

/-!
# Configurations in JSON

A configuration is read from an object whose members are settings by name, or from an array of the
settings in their order.  What is left out has its default.  In an object other names are ignored,
and a setting that is given twice is an error.
-/

namespace MarkupQuery

namespace Config

/-- The setting of a name among the members of an object: none when it is not there, and a failure
when it is there twice or has no value of the right type. -/
def setting? {α : Type} (read : Json → Option α) (name : String)
    (members : List (Option String × Json)) : Option (Option α) :=
  match members.filter (·.1 == some name) with
  | [] => some none
  | [(_, value)] => (read value).map some
  | _ => none

/-- The first settings of an array. -/
def ofItems? : List Json → Option Config
  | [] => some {}
  | [attributes] => do
    return { listAttributes := ← attributes.strings? }
  | [attributes, keep] => do
    return { listAttributes := ← attributes.strings?, keepBlankText := ← keep.boolean? }
  | _ => none

/-- The configuration of a JSON value. -/
def ofJson? : Json → Option Config
  | .object members =>
    if members.all (·.1.isSome) then do
      let attributes ← setting? Json.strings? "list_attributes" members
      let keep ← setting? Json.boolean? "keep_whitespace_text" members
      let initial : Config := {}
      return { listAttributes := attributes.getD initial.listAttributes
               keepBlankText := keep.getD initial.keepBlankText }
    else none
  | .array items => ofItems? items
  | _ => none

/-- The configuration that a JSON text holds. -/
def ofText? (text : String) : Option Config := do
  ofJson? (← Json.ofText? text)

end Config

end MarkupQuery
