import AtMarkup.Cli.Arguments
import AtMarkup.Cli.Run
import AtMarkup.Cursor
import AtMarkup.Diagnostic
import AtMarkup.Document
import AtMarkup.Event
import AtMarkup.Html.Escape
import AtMarkup.Html.Render
import AtMarkup.Http.Fetch
import AtMarkup.Http.Library
import AtMarkup.Http.Status
import AtMarkup.Main
import AtMarkup.Markup.Descent
import AtMarkup.Markup.Fault
import AtMarkup.Markup.OptionList
import AtMarkup.Markup.PendingText
import AtMarkup.Markup.Reader
import AtMarkup.Number.Binary
import AtMarkup.Number.Literal
import AtMarkup.Number.Nearest
import AtMarkup.Number.Rounding
import AtMarkup.Number.Shortest
import AtMarkup.Number.Text
import AtMarkup.Position
import AtMarkup.Proofs.Acceptance
import AtMarkup.Proofs.Addresses
import AtMarkup.Proofs.Attempts
import AtMarkup.Proofs.BoundedFetch
import AtMarkup.Proofs.Breaches
import AtMarkup.Proofs.ByteCeiling
import AtMarkup.Proofs.CarriedText
import AtMarkup.Proofs.Collecting
import AtMarkup.Proofs.CommandEffects
import AtMarkup.Proofs.CommandRun
import AtMarkup.Proofs.Compiling
import AtMarkup.Proofs.Compression
import AtMarkup.Proofs.Coordinates
import AtMarkup.Proofs.CursorWalk
import AtMarkup.Proofs.Cutting
import AtMarkup.Proofs.DepthLimit
import AtMarkup.Proofs.Descent
import AtMarkup.Proofs.DiagnosticLines
import AtMarkup.Proofs.Dictionaries
import AtMarkup.Proofs.DumpText
import AtMarkup.Proofs.EffectiveOptions
import AtMarkup.Proofs.EscapedTexts
import AtMarkup.Proofs.Escaping
import AtMarkup.Proofs.Faults
import AtMarkup.Proofs.FileWriting
import AtMarkup.Proofs.FrontEnds
import AtMarkup.Proofs.Grammar
import AtMarkup.Proofs.KeptTags
import AtMarkup.Proofs.LastWins
import AtMarkup.Proofs.Layout
import AtMarkup.Proofs.LineBreaks
import AtMarkup.Proofs.LineEnds
import AtMarkup.Proofs.OptionBlocks
import AtMarkup.Proofs.OptionText
import AtMarkup.Proofs.OutputTable
import AtMarkup.Proofs.PathText
import AtMarkup.Proofs.QuotedContents
import AtMarkup.Proofs.ReadBack
import AtMarkup.Proofs.Redirects
import AtMarkup.Proofs.Relocation
import AtMarkup.Proofs.Retrying
import AtMarkup.Proofs.Run
import AtMarkup.Proofs.Scanner
import AtMarkup.Proofs.Scans
import AtMarkup.Proofs.Siblings
import AtMarkup.Proofs.SinglePass
import AtMarkup.Proofs.SourceOrder
import AtMarkup.Proofs.Spacing
import AtMarkup.Proofs.Truncation
import AtMarkup.Proofs.UncaughtErrors
import AtMarkup.Proofs.UncheckedSizes
import AtMarkup.Proofs.Unplaced
import AtMarkup.Proofs.Utf8
import AtMarkup.Proofs.VisibleText
import AtMarkup.Proofs.WellFormed
import AtMarkup.Proofs.WholeReading
import AtMarkup.Proofs.Words
import AtMarkup.Rules
import AtMarkup.Service.Framework
import AtMarkup.Service.Site
import AtMarkup.Settings.Basic
import AtMarkup.Settings.Environment
import AtMarkup.Source.File
import AtMarkup.Source.FileSystem
import AtMarkup.Source.Path
import AtMarkup.Source.Stream
import AtMarkup.Tag.Basic
import AtMarkup.Tag.Dump
import AtMarkup.Tag.Kind
import AtMarkup.Tag.Options
import AtMarkup.Text.Blank
import AtMarkup.Text.DecimalDigit
import AtMarkup.Text.Hex
import AtMarkup.Text.Letter
import AtMarkup.Text.LineBreak
import AtMarkup.Text.Printable
import AtMarkup.Text.Quoted
import AtMarkup.Text.Range
import AtMarkup.Text.Slice
import AtMarkup.Text.Spacing
import AtMarkup.Text.Split
import AtMarkup.Text.Utf8
import AtMarkup.Text.Words
