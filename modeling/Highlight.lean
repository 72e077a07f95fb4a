import Highlight.Proofs.Grammar.Fields
import Highlight.Proofs.Json.Decoding
import Highlight.Proofs.Json.Tree
import Highlight.Proofs.Json.Collection
import Highlight.Proofs.Json.Literal
import Highlight.Proofs.Json.Syntax
import Highlight.Main
import Highlight.Grammar.Backreference
import Highlight.Unicode.Property
import Highlight.Proofs.Grammar.Document
import Highlight.Proofs.Json.Printer
import Highlight.Proofs.Json.RoundTrip
import Highlight.Proofs.PropertyList.Content
import Highlight.Proofs.PropertyList.Xml
import Highlight.Proofs.PropertyList.RoundTrip
import Highlight.Proofs.Grammar.Validation
import Highlight.Proofs.Json.Schema
import Highlight.Proofs.Json.Acceptance
import Highlight.Proofs.Grammar.Reordering
import Highlight.Proofs.PropertyList.Decoding
import Highlight.Proofs.Grammar.Agreement
import Highlight.Proofs.Files.Access
import Highlight.Proofs.Files.Plain
import Highlight.Proofs.Grammar.Saved
import Highlight.Proofs.Generate
import Highlight.Proofs.Grammar.Conversion
import Highlight.Proofs.Grammar.Injective
import Highlight.Proofs.Grammar.Cut
import Highlight.Proofs.Pattern.Search
import Highlight.Proofs.Pattern.Reading
import Highlight.Proofs.Pattern.Words
import Highlight.Proofs.Noze.Keyword
import Highlight.Proofs.Pattern.Longest
import Highlight.Proofs.Noze.Number
import Highlight.Proofs.Pattern.Preferred
import Highlight.Proofs.Grammar.Supplied
import Highlight.Proofs.Pattern.Successive
import Highlight.Proofs.Noze.Name
import Highlight.Proofs.Noze.Identifier
import Highlight.Proofs.Noze.Header
import Highlight.Proofs.Noze.TypeName
import Highlight.Proofs.Noze.Precedence
import Highlight.Proofs.Noze.Escape
import Highlight.Proofs.Noze.Comment
import Highlight.Proofs.Noze.Interpolation
import Highlight.Proofs.Pattern.Verbatim
import Highlight.Proofs.Grammar.Backreference
import Highlight.Proofs.Grammar.Delimited
import Highlight.Proofs.Grammar.Unreadable
import Highlight.Proofs.Grammar.Unchecked
import Highlight.Proofs.Text.Numeral
import Highlight.Proofs.Grammar.Site
import Highlight.Proofs.Text.Order
import Highlight.Proofs.Grammar.Layout
import Highlight.Proofs.Captures
