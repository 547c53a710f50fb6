import TokenHighlight.Palette
import TokenHighlight.Tree.Builder
import TokenHighlight.Tree.Spec
import TokenHighlight.Tree.Brace
import TokenHighlight.Json.Reader
import TokenHighlight.Json.Writer
import TokenHighlight.Json.Record
import TokenHighlight.Tree.Spec.Json
import TokenHighlight.Palette.Json
import TokenHighlight.Listener.Id
import TokenHighlight.View
import TokenHighlight.Listener.Broadcast
import TokenHighlight.Session
import TokenHighlight.Render
import TokenHighlight.Toml.Document
import TokenHighlight.Config.Json
import TokenHighlight.Config.Files
import TokenHighlight.CommandLine.Run
import TokenHighlight.Main
import TokenHighlight.Proofs.Tree.Growth
import TokenHighlight.Proofs.Tree.WellFormed
import TokenHighlight.Proofs.Tree.DocumentOrder
import TokenHighlight.Proofs.Tree.Listing
import TokenHighlight.Proofs.Tree.Ancestry
import TokenHighlight.Proofs.Tree.Display
import TokenHighlight.Proofs.Tree.Structure
import TokenHighlight.Proofs.Tree.Described
import TokenHighlight.Proofs.Tree.Numbering
import TokenHighlight.Proofs.Tree.Building
import TokenHighlight.Proofs.Tree.Braces
import TokenHighlight.Proofs.Json.Number
import TokenHighlight.Proofs.Json.Lexing
import TokenHighlight.Proofs.Json.Record
import TokenHighlight.Proofs.Json.RoundTrip
import TokenHighlight.Proofs.Tree.SpecText
import TokenHighlight.Proofs.Toml.Reading
import TokenHighlight.Proofs.Palette.Overrides
import TokenHighlight.Proofs.Config.Saving
import TokenHighlight.Proofs.Highlight.Change
import TokenHighlight.Proofs.Highlight.Run
import TokenHighlight.Proofs.Highlight.Agreement
import TokenHighlight.Proofs.Highlight.Damage
import TokenHighlight.Proofs.Highlight.Clearing
import TokenHighlight.Proofs.Highlight.Span
import TokenHighlight.Proofs.Highlight.Range
import TokenHighlight.Proofs.Highlight.SinglePair
import TokenHighlight.Proofs.Highlight.Selecting
import TokenHighlight.Proofs.Highlight.Uses
import TokenHighlight.Proofs.Highlight.Filling
import TokenHighlight.Proofs.Highlight.FilledGaps
import TokenHighlight.Proofs.Highlight.FillClosure
import TokenHighlight.Proofs.History
import TokenHighlight.Proofs.Listener.Registration
import TokenHighlight.Proofs.Listener.Calls
import TokenHighlight.Proofs.View.Notification
import TokenHighlight.Proofs.View.Bulk
import TokenHighlight.Proofs.View.Partner
import TokenHighlight.Proofs.Broadcast.Reading
import TokenHighlight.Proofs.Broadcast.Switchboard
import TokenHighlight.Proofs.Broadcast.Delivery
import TokenHighlight.Proofs.Broadcast.OneView
import TokenHighlight.Proofs.Session.Flags
import TokenHighlight.Proofs.Session.SideBySide
import TokenHighlight.Proofs.CommandLine.Shown
import TokenHighlight.Proofs.CommandLine.Display
import TokenHighlight.Proofs.CommandLine.Writing
import TokenHighlight.Proofs.CommandLine.Report
import TokenHighlight.Proofs.Color.Reading
import TokenHighlight.Proofs.Highlight.Nesting
import TokenHighlight.Proofs.CommandLine.Rendering
import TokenHighlight.Proofs.Tree.OpenGroups
