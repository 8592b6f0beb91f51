import TagTemplate.Attribute.Text
import TagTemplate.Entries
import TagTemplate.Environment
import TagTemplate.Error
import TagTemplate.Expression.Evaluate
import TagTemplate.Expression.Read
import TagTemplate.Filter
import TagTemplate.Foreign.Entry
import TagTemplate.Html.Escaper
import TagTemplate.Inspect.Template
import TagTemplate.Inspect.Value
import TagTemplate.Number.Read
import TagTemplate.Number.Written
import TagTemplate.Position
import TagTemplate.Tag.Invoke
import TagTemplate.Tag.Protocol
import TagTemplate.Template.Render
import TagTemplate.Text.Blank
import TagTemplate.Text.Case
import TagTemplate.Text.Quoted
import TagTemplate.Value
import TagTemplate.Proofs.Attribute.FlagMap
import TagTemplate.Proofs.Attribute.Flatten
import TagTemplate.Proofs.Attribute.Insertion
import TagTemplate.Proofs.Attribute.Markup
import TagTemplate.Proofs.Attribute.ReadBack
import TagTemplate.Proofs.Attribute.Reserved
import TagTemplate.Proofs.Attribute.StartTag
import TagTemplate.Proofs.Attribute.ValueTokens
import TagTemplate.Proofs.Entries
import TagTemplate.Proofs.Expression.Advances
import TagTemplate.Proofs.Expression.Alike
import TagTemplate.Proofs.Expression.Alone
import TagTemplate.Proofs.Expression.Edges
import TagTemplate.Proofs.Expression.Evaluable
import TagTemplate.Proofs.Expression.Evaluation
import TagTemplate.Proofs.Expression.FilterSpans
import TagTemplate.Proofs.Expression.Found
import TagTemplate.Proofs.Expression.Grammar
import TagTemplate.Proofs.Expression.Groups
import TagTemplate.Proofs.Expression.Invariant
import TagTemplate.Proofs.Expression.Joined
import TagTemplate.Proofs.Expression.Keywords
import TagTemplate.Proofs.Expression.Leaf
import TagTemplate.Proofs.Expression.Lexeme
import TagTemplate.Proofs.Expression.Parts
import TagTemplate.Proofs.Expression.Placed
import TagTemplate.Proofs.Expression.Portable
import TagTemplate.Proofs.Expression.Print
import TagTemplate.Proofs.Expression.Reads
import TagTemplate.Proofs.Expression.ReadsBack
import TagTemplate.Proofs.Expression.Report
import TagTemplate.Proofs.Expression.RoundTrip
import TagTemplate.Proofs.Expression.SafeText
import TagTemplate.Proofs.Expression.Sum
import TagTemplate.Proofs.Expression.Takes
import TagTemplate.Proofs.Expression.TwoScopes
import TagTemplate.Proofs.Expression.WellQuoted
import TagTemplate.Proofs.Expression.WholeNumber
import TagTemplate.Proofs.Filter.Markup
import TagTemplate.Proofs.Foreign.Entry
import TagTemplate.Proofs.Html.Markup
import TagTemplate.Proofs.Html.Unescape
import TagTemplate.Proofs.Html.WellEscaped
import TagTemplate.Proofs.LineColumn
import TagTemplate.Proofs.Position
import TagTemplate.Proofs.Success
import TagTemplate.Proofs.Tag.Markup
import TagTemplate.Proofs.Tag.Usual
import TagTemplate.Proofs.Template.Append
import TagTemplate.Proofs.Template.Autoescape
import TagTemplate.Proofs.Template.Blame
import TagTemplate.Proofs.Template.BlockHead
import TagTemplate.Proofs.Template.BlockName
import TagTemplate.Proofs.Template.ByteScan
import TagTemplate.Proofs.Template.Direct
import TagTemplate.Proofs.Template.Failure
import TagTemplate.Proofs.Template.FaultPlace
import TagTemplate.Proofs.Template.Inline
import TagTemplate.Proofs.Template.Linear
import TagTemplate.Proofs.Template.Literal
import TagTemplate.Proofs.Template.Lossless
import TagTemplate.Proofs.Template.Markup
import TagTemplate.Proofs.Template.Output
import TagTemplate.Proofs.Template.Pieces
import TagTemplate.Proofs.Template.Progress
import TagTemplate.Proofs.Template.Registration
import TagTemplate.Proofs.Template.Sequence
import TagTemplate.Proofs.Template.Steps
import TagTemplate.Proofs.Template.Undefined
import TagTemplate.Proofs.Template.Wrap
import TagTemplate.Proofs.Text.CaseMarkup
import TagTemplate.Proofs.Value.EverySafe
