import MarkupQuery.Html.Draft
import MarkupQuery.Html.Token

/-!
# Names in drawings and formulas

Markup knows its names without regard to case, while names in drawings and formulas may have capital
letters.  The tables here give the names that differ from their small form, and the attributes with
a namespace, of which only the local name is kept.
-/

namespace MarkupQuery.Html

/-- The tags of drawings that have capital letters. -/
def drawingTags : List String :=
  ["altGlyph", "altGlyphDef", "altGlyphItem", "animateColor", "animateMotion", "animateTransform",
   "clipPath", "feBlend", "feColorMatrix", "feComponentTransfer", "feComposite",
   "feConvolveMatrix", "feDiffuseLighting", "feDisplacementMap", "feDistantLight", "feDropShadow",
   "feFlood", "feFuncA", "feFuncB", "feFuncG", "feFuncR", "feGaussianBlur", "feImage", "feMerge",
   "feMergeNode", "feMorphology", "feOffset", "fePointLight", "feSpecularLighting", "feSpotLight",
   "feTile", "feTurbulence", "foreignObject", "glyphRef", "linearGradient", "radialGradient",
   "textPath"]

/-- The attributes of drawings that have capital letters. -/
def drawingAttributes : List String :=
  ["attributeName", "attributeType", "baseFrequency", "baseProfile", "calcMode", "clipPathUnits",
   "diffuseConstant", "edgeMode", "filterUnits", "glyphRef", "gradientTransform", "gradientUnits",
   "kernelMatrix", "kernelUnitLength", "keyPoints", "keySplines", "keyTimes", "lengthAdjust",
   "limitingConeAngle", "markerHeight", "markerUnits", "markerWidth", "maskContentUnits",
   "maskUnits", "numOctaves", "pathLength", "patternContentUnits", "patternTransform",
   "patternUnits", "pointsAtX", "pointsAtY", "pointsAtZ", "preserveAlpha", "preserveAspectRatio",
   "primitiveUnits", "refX", "refY", "repeatCount", "repeatDur", "requiredExtensions",
   "requiredFeatures", "specularConstant", "specularExponent", "spreadMethod", "startOffset",
   "stdDeviation", "stitchTiles", "surfaceScale", "systemLanguage", "tableValues", "targetX",
   "targetY", "textLength", "viewBox", "viewTarget", "xChannelSelector", "yChannelSelector",
   "zoomAndPan"]

/-- The attributes of formulas that have capital letters. -/
def formulaAttributes : List String := ["definitionURL"]

/-- The attributes with a namespace, with their local names. -/
def qualifiedAttributes : List (String × String) :=
  [("xlink:actuate", "actuate"), ("xlink:arcrole", "arcrole"), ("xlink:href", "href"),
   ("xlink:role", "role"), ("xlink:show", "show"), ("xlink:title", "title"),
   ("xlink:type", "type"), ("xml:lang", "lang"), ("xml:space", "space"), ("xmlns", "xmlns"),
   ("xmlns:xlink", "xlink")]

/-- The spelling of a name in a table that differs from it at most in case. -/
def spelling (table : List String) (name : String) : String :=
  (table.find? fun entry => entry.toLower == name).getD name

/-- The name of an attribute in a drawing or formula whose attributes have the given spellings. -/
def foreignAttributeName (table : List String) (name : String) : String :=
  let name := spelling table name
  (qualifiedAttributes.lookup name).getD name

/-- A tag with its name and attributes as a namespace spells them. -/
def Tag.adjusted (tag : Tag) (space : Namespace) : Tag :=
  let adjust (tags names : List String) : Tag :=
    { tag with
      name := spelling tags tag.name
      attributes := tag.attributes.map fun a => (foreignAttributeName names a.1, a.2) }
  match space with
  | .html => tag
  | .svg => adjust drawingTags drawingAttributes
  | .mathml => adjust [] formulaAttributes

end MarkupQuery.Html
