import MarkupQuery.Config.Reader
import MarkupQuery.Document.Property
import MarkupQuery.Document.Search
import MarkupQuery.Filter.Query
import MarkupQuery.Html.Parser
import MarkupQuery.Html.Serializer
import MarkupQuery.Proofs.XPath.Grammar
import MarkupQuery.XPath.Query
import MarkupQuery.Proofs.XPath.ParserSound
import MarkupQuery.Proofs.XPath.ParserComplete
import MarkupQuery.Proofs.Tree.Links
import MarkupQuery.Proofs.Tree.Preorder
import MarkupQuery.Proofs.Tree.Ranks
import MarkupQuery.Proofs.Tree.Names
import MarkupQuery.Proofs.Tree.Growth
import MarkupQuery.Proofs.Html.Conversion
import MarkupQuery.Proofs.XPath.Scanning
import MarkupQuery.Proofs.XPath.Spelling
import MarkupQuery.Proofs.XPath.NodeSets
import MarkupQuery.Proofs.XPath.Evaluation
import MarkupQuery.Proofs.Filter.Conditions
import MarkupQuery.Proofs.Filter.Queries
import MarkupQuery.Proofs.Filter.Selection
import MarkupQuery.Proofs.Decimal.Integers
import MarkupQuery.Proofs.Filter.Limits
import MarkupQuery.Proofs.Document.Searches
import MarkupQuery.Proofs.Tree.Position
import MarkupQuery.Proofs.XPath.Axes
import MarkupQuery.Proofs.XPath.Ordering
import MarkupQuery.Proofs.XPath.Failures
import MarkupQuery.Proofs.Html.Markup
import MarkupQuery.Proofs.Tree.History
import MarkupQuery.Proofs.Tree.DocumentOrder
import MarkupQuery.Proofs.Html.References
import MarkupQuery.Proofs.Html.Content
import MarkupQuery.Proofs.Html.Shown
import MarkupQuery.Proofs.Html.UniqueReading
import MarkupQuery.Proofs.Html.Entered
import MarkupQuery.Proofs.Html.Alike
import MarkupQuery.Proofs.Document.BlankTexts
import MarkupQuery.Proofs.XPath.Composing
import MarkupQuery.Proofs.XPath.Merging
import MarkupQuery.Proofs.Tree.Walks
import MarkupQuery.Proofs.XPath.Directions
import MarkupQuery.Proofs.XPath.Predicates
import MarkupQuery.Proofs.XPath.Descendants
import MarkupQuery.Proofs.Filter.ListAttributes
import MarkupQuery.Proofs.XPath.Gaps
import MarkupQuery.Proofs.Filter.Splicing
import MarkupQuery.Proofs.Filter.Quoting
import MarkupQuery.Proofs.XPath.Comparisons
import MarkupQuery.Proofs.XPath.Unions
import MarkupQuery.Proofs.XPath.TokenTexts
import MarkupQuery.Proofs.XPath.Spacing
import MarkupQuery.Proofs.XPath.Disambiguation
import MarkupQuery.Proofs.Html.Recursion
import MarkupQuery.Proofs.Text.Trimming
import MarkupQuery.Proofs.Document.OwnStrings
import MarkupQuery.Proofs.Filter.Arguments
import MarkupQuery.Proofs.XPath.Formed
import MarkupQuery.Proofs.XPath.Breaks
import MarkupQuery.Proofs.XPath.Lookahead
import MarkupQuery.Proofs.XPath.SyntaxErrors
import MarkupQuery.Proofs.Decimal.Reading
import MarkupQuery.Proofs.XPath.Numbers
import MarkupQuery.Proofs.Tree.Descendants
import MarkupQuery.Proofs.Tree.Attributes
import MarkupQuery.Proofs.Document.Places
import MarkupQuery.Proofs.Tree.NameHistory
