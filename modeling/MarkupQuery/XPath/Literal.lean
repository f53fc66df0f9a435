/-!
# Literals of path expressions

The language has two kinds of quotes and no escapes, so a string that holds both kinds is written
as the concatenation of its pieces between double quotes.
-/

namespace MarkupQuery.XPath

/-- A text between two equal quotes. -/
def enclose (quote : Char) (cs : List Char) : String :=
  String.ofList (quote :: cs ++ [quote])

/-- An expression whose value is the given string. -/
def literalText (s : String) : String :=
  let cs := s.toList
  if !cs.contains '"' then enclose '"' cs
  else if !cs.contains '\'' then enclose '\'' cs
  else
    let pieces := (cs.splitOn '"').map (enclose '"')
    "concat(" ++ ", '\"', ".intercalate pieces ++ ")"

end MarkupQuery.XPath
