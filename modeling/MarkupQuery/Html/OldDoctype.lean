import MarkupQuery.Html.Token

/-!
# Doctypes of old documents

Documents written before the rules of markup were settled name their kind in the public identifier
of their doctype: who issued the kind, a description of it and a language.  In documents of the
kinds listed here a table can stand in a paragraph.
-/

namespace MarkupQuery.Html

/-- The issuers of old kinds of document, each with its descriptions, in small letters. -/
def oldKinds : List (String × List String) :=
  [("-//advasoft ltd", ["dtd html 3.0 aswedit + extensions"]),
   ("-//as", ["dtd html 3.0 aswedit + extensions"]),
   ("-//ietf",
     ["dtd html", "dtd html 2.0", "dtd html 2.0 level 1", "dtd html 2.0 level 2",
      "dtd html 2.0 strict", "dtd html 2.0 strict level 1", "dtd html 2.0 strict level 2",
      "dtd html 2.1e", "dtd html 3", "dtd html 3.0", "dtd html 3.2", "dtd html 3.2 final",
      "dtd html level 0", "dtd html level 1", "dtd html level 2", "dtd html level 3",
      "dtd html strict", "dtd html strict level 0", "dtd html strict level 1",
      "dtd html strict level 2", "dtd html strict level 3"]),
   ("-//metrius", ["dtd metrius presentational"]),
   ("-//microsoft",
     ["dtd internet explorer 2.0 html", "dtd internet explorer 2.0 html strict",
      "dtd internet explorer 2.0 tables", "dtd internet explorer 3.0 html",
      "dtd internet explorer 3.0 html strict", "dtd internet explorer 3.0 tables"]),
   ("-//netscape comm. corp.", ["dtd html", "dtd strict html"]),
   ("-//o'reilly and associates",
     ["dtd html 2.0", "dtd html extended 1.0", "dtd html extended relaxed 1.0"]),
   ("-//softquad",
     ["dtd hotmetal pro 4.0::19971010::extensions to html 4.0"]),
   ("-//softquad software",
     ["dtd hotmetal pro 6.0::19990601::extensions to html 4.0"]),
   ("-//spyglass", ["dtd html 2.0 extended"]),
   ("-//sq", ["dtd html 2.0 hotmetal + extensions"]),
   ("-//sun microsystems corp.", ["dtd hotjava html", "dtd hotjava strict html"]),
   ("-//w3c",
     ["dtd html 3 1995-03-24", "dtd html 3.2", "dtd html 3.2 draft", "dtd html 3.2 final",
      "dtd html 3.2s draft", "dtd html 4.0 frameset", "dtd html 4.0 transitional",
      "dtd html experimental 19960712", "dtd html experimental 970421", "dtd w3 html"]),
   ("-//w3o", ["dtd w3 html 3.0"]),
   ("-//webtechs", ["dtd mozilla html", "dtd mozilla html 2.0"])]

/-- The kinds that are old only in doctypes without a system identifier. -/
def oldKindsWithoutSystem : List (String × List String) :=
  [("-//w3c", ["dtd html 4.01 frameset", "dtd html 4.01 transitional"])]

/-- The public identifiers that are old as a whole. -/
def oldPublicIds : List String :=
  ["-//w3o//dtd w3 html strict 3.0//en//", "-/w3c/dtd html 4.0 transitional/en", "html"]

/-- The system identifiers that are old whatever the public identifier says. -/
def oldSystemIds : List String :=
  ["/".intercalate ["http:", "", "www.ibm.com", "data", "dtd", "v11",
    "ibmxhtml1-transitional.dtd"]]

/-- Whether a public identifier in small letters begins with an issuer and one of its
descriptions. -/
def isOfKind (kinds : List (String × List String)) (publicId : String) : Bool :=
  kinds.any fun (issuer, descriptions) =>
    descriptions.any fun description => publicId.startsWith (issuer ++ "//" ++ description ++ "//")

/-- Whether a document with this doctype is of an old kind: one that is listed, one that is not
named `html`, or one whose doctype is malformed. -/
def Doctype.isOld (doctype : Doctype) : Bool :=
  let publicId := (doctype.publicId.getD "").toLower
  let systemId := (doctype.systemId.getD "").toLower
  doctype.malformed || doctype.name != some "html" || oldPublicIds.contains publicId ||
    oldSystemIds.contains systemId || isOfKind oldKinds publicId ||
    (doctype.systemId.isNone && isOfKind oldKindsWithoutSystem publicId)

end MarkupQuery.Html
