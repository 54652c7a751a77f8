import Markup.Args
import Markup.Compile
import Markup.Main
import Markup.Proofs.Token.LineStep
import Markup.Proofs.Token.Restore
import Markup.Proofs.Token.Content
import Markup.Proofs.Token.Stream
import Markup.Proofs.Token.Grammar
import Markup.Proofs.Token.IndentLaw
import Markup.Proofs.Token.Indentation
import Markup.Proofs.Token.Layout
import Markup.Proofs.Token.Moved
import Markup.Proofs.Token.BlankLines
import Markup.Proofs.Text.LineEndings
import Markup.Proofs.Token.LineEndings
import Markup.Proofs.Doc.MadeOf
import Markup.Proofs.Doc.Kinds
import Markup.Proofs.Html.Escape
import Markup.Proofs.Html.Tag
import Markup.Proofs.Html.Flow
import Markup.Proofs.Html.Template
import Markup.Proofs.Html.Anchor
import Markup.Proofs.Html.Queue
import Markup.Proofs.Html.Notes
import Markup.Proofs.Html.Serializer
import Markup.Proofs.Html.Nesting
import Markup.Proofs.Doc.Drain
import Markup.Proofs.Doc.Ink
import Markup.Proofs.Doc.Conservation
import Markup.Proofs.Call.Spans
import Markup.Proofs.Call.Tree
import Markup.Proofs.Call.Grammar
import Markup.Proofs.Call.Command
import Markup.Proofs.Call.ScanStep
import Markup.Proofs.Call.Regions
import Markup.Proofs.Call.Tiling
import Markup.Proofs.Call.ScanLineEndings
import Markup.Proofs.Call.LineEndings
import Markup.Proofs.Args
import Markup.Proofs.Args.InPlace
import Markup.Proofs.Eval.Yields
import Markup.Proofs.Eval.Invocation
import Markup.Proofs.Eval.Room
import Markup.Proofs.Library.SourceText
import Markup.Proofs.Library.Bodies
import Markup.Proofs.Library.Commands
import Markup.Proofs.Library.Scoping
import Markup.Proofs.Library.Evaluation
import Markup.Proofs.Compile
import Markup.Proofs.Doc.Telling
import Markup.Proofs.Eval.Comparison
import Markup.Proofs.Eval.SharedScopes
import Markup.Proofs.Library.Uniform
import Markup.Proofs.Eval.Unlimited
import Markup.Proofs.Library.Limit
import Markup.Proofs.Call.Wording
import Markup.Proofs.Library.Alike
import Markup.Proofs.Doc.Behind
import Markup.Proofs.Doc.EarlyDrain
import Markup.Proofs.Doc.Tables
import Markup.Proofs.Doc.FailedDrain
import Markup.Proofs.Doc.LostRuns
import Markup.Proofs.Library.Pushes
import Markup.Proofs.Library.Paragraphs
import Markup.Proofs.Library.Additions
import Markup.Proofs.Library.Lists
import Markup.Proofs.Library.ListBodies
import Markup.Proofs.Call.Recount
import Markup.Proofs.Call.Segments
import Markup.Proofs.Compile.MarkupFree
import Markup.Proofs.Html.Tracks
import Markup.Proofs.Html.Spacing
import Markup.Proofs.Library.ListText
import Markup.Proofs.Compile.ItemSpacing
import Markup.Proofs.Compile.Outcome
import Markup.Proofs.Cli.Files
import Markup.Proofs.Cli.Steps
import Markup.Proofs.Cli.Configuration
import Markup.Proofs.Cli.Exits
import Markup.Proofs.Cli.Diagnosis
import Markup.Proofs.Cli.Watching
import Markup.Proofs.Cli.Precedence
import Markup.Proofs.Library.Metadata
import Markup.Proofs.Library.TextArguments
import Markup.Proofs.Library.Verbatim
import Markup.Proofs.Library.Signatures
import Markup.Proofs.Html.Unescape
import Markup.Proofs.Html.CharacterReference
import Markup.Proofs.Html.StartTag
import Markup.Proofs.Html.FreshSlug
import Markup.Proofs.Unicode.Lowercase
import Markup.Proofs.Html.SlugForm
import Markup.Proofs.Doc.Within
import Markup.Proofs.Html.Landmarks
import Markup.Proofs.Html.Walk
import Markup.Proofs.Html.Outline
import Markup.Proofs.Html.Targets
import Markup.Proofs.Html.MeantTags
import Markup.Proofs.Html.TagWalk
import Markup.Proofs.Html.Attributes
import Markup.Proofs.Text.Places
import Markup.Proofs.Error.Excerpt
import Markup.Proofs.Library.Blame
import Markup.Proofs.Error.Highlight
import Markup.Proofs.Error.Columns
import Markup.Proofs.Html.PlainText
import Markup.Proofs.Doc.Replaced
import Markup.Proofs.Html.Blind
import Markup.Proofs.Html.Altered
import Markup.Proofs.Html.Exchange
import Markup.Proofs.Html.BlankParagraphs
