import Sideload.Command.Basic
import Sideload.Command.Details
import Sideload.Command.Listing
import Sideload.Command.Run
import Sideload.CommandLine.Parser
import Sideload.CommandLine.Reader
import Sideload.CommandLine.Spec
import Sideload.Config.Basic
import Sideload.Config.File
import Sideload.Config.Record
import Sideload.Data.Value
import Sideload.Disk.Change
import Sideload.Disk.Copy
import Sideload.Disk.Error
import Sideload.Disk.Lookup
import Sideload.Disk.Tree
import Sideload.Environment
import Sideload.Failure
import Sideload.Installer.Basic
import Sideload.Installer.Destination
import Sideload.Installer.Name
import Sideload.Interpreter
import Sideload.Json.Printer
import Sideload.Json.Reader
import Sideload.Log.Console
import Sideload.Log.File
import Sideload.Log.Filter
import Sideload.Log.Record
import Sideload.Log.Text
import Sideload.Main
import Sideload.Path
import Sideload.Program
import Sideload.Proofs.Command.Answer
import Sideload.Proofs.Command.Listing
import Sideload.Proofs.Command.Records
import Sideload.Proofs.Config.RoundTrip
import Sideload.Proofs.Config.Saved
import Sideload.Proofs.Disk.Abreast
import Sideload.Proofs.Disk.Canonical
import Sideload.Proofs.Disk.Chain
import Sideload.Proofs.Disk.Check
import Sideload.Proofs.Disk.Copied
import Sideload.Proofs.Disk.Detour
import Sideload.Proofs.Disk.Differs
import Sideload.Proofs.Disk.Effect
import Sideload.Proofs.Disk.Growth
import Sideload.Proofs.Disk.Inside
import Sideload.Proofs.Disk.Label
import Sideload.Proofs.Disk.Listing
import Sideload.Proofs.Disk.Making
import Sideload.Proofs.Disk.Mirror
import Sideload.Proofs.Disk.Opening
import Sideload.Proofs.Disk.Proper
import Sideload.Proofs.Disk.Reach
import Sideload.Proofs.Disk.Removal
import Sideload.Proofs.Disk.Replace
import Sideload.Proofs.Disk.Replica
import Sideload.Proofs.Disk.Rewrite
import Sideload.Proofs.Disk.Route
import Sideload.Proofs.Disk.Severed
import Sideload.Proofs.Disk.Slot
import Sideload.Proofs.Disk.Stable
import Sideload.Proofs.Disk.Trip
import Sideload.Proofs.Disk.Twin
import Sideload.Proofs.Disk.Walk
import Sideload.Proofs.Disk.Written
import Sideload.Proofs.Installer.Abreast
import Sideload.Proofs.Installer.Build
import Sideload.Proofs.Installer.Confined
import Sideload.Proofs.Installer.Destination
import Sideload.Proofs.Installer.Kept
import Sideload.Proofs.Installer.Nested
import Sideload.Proofs.Installer.Plan
import Sideload.Proofs.Installer.Product
import Sideload.Proofs.Installer.Redirect
import Sideload.Proofs.Installer.Result
import Sideload.Proofs.Installer.Run
import Sideload.Proofs.Installer.Settle
import Sideload.Proofs.Installer.Stable
import Sideload.Proofs.Json.RoundTrip
import Sideload.Proofs.Path
import Sideload.Proofs.Registry.Abreast
import Sideload.Proofs.Registry.Atomic
import Sideload.Proofs.Registry.File
import Sideload.Proofs.Registry.Grammar
import Sideload.Proofs.Registry.Home
import Sideload.Proofs.Registry.Hosting
import Sideload.Proofs.Registry.Line
import Sideload.Proofs.Registry.Order
import Sideload.Proofs.Registry.Outside
import Sideload.Proofs.Registry.Owned
import Sideload.Proofs.Registry.Rewrite
import Sideload.Proofs.Registry.Text
import Sideload.Proofs.Run
import Sideload.Proofs.Shelf.Abreast
import Sideload.Proofs.Shelf.Akin
import Sideload.Proofs.Shelf.Apart
import Sideload.Proofs.Shelf.Book
import Sideload.Proofs.Shelf.Change
import Sideload.Proofs.Shelf.Commute
import Sideload.Proofs.Shelf.Directory
import Sideload.Proofs.Shelf.Forget
import Sideload.Proofs.Shelf.Identity
import Sideload.Proofs.Shelf.Importable
import Sideload.Proofs.Shelf.Managed
import Sideload.Proofs.Shelf.Order
import Sideload.Proofs.Shelf.Outlook
import Sideload.Proofs.Shelf.Owned
import Sideload.Proofs.Shelf.Placing
import Sideload.Proofs.Shelf.Planning
import Sideload.Proofs.Shelf.Readable
import Sideload.Proofs.Shelf.Refusal
import Sideload.Proofs.Shelf.Restore
import Sideload.Proofs.Shelf.Rewrite
import Sideload.Proofs.Shelf.Run
import Sideload.Proofs.Shelf.Source
import Sideload.Proofs.Shelf.Unsaved
import Sideload.Proofs.Surface.Calls
import Sideload.Proofs.Surface.Offers
import Sideload.Proofs.Surface.Parameters
import Sideload.Proofs.Time.Relaxed
import Sideload.Proofs.Time.RoundTrip
import Sideload.Proofs.Toml.Lines
import Sideload.Proofs.Toml.String
import Sideload.Registry.Basic
import Sideload.Registry.Entry
import Sideload.Registry.File
import Sideload.Registry.Line
import Sideload.Registry.Record
import Sideload.Shelf
import Sideload.Shell.Run
import Sideload.Shell.Syntax
import Sideload.Surface.Basic
import Sideload.Surface.Expression
import Sideload.Surface.File
import Sideload.Surface.Hint
import Sideload.Surface.Layout
import Sideload.Surface.Lexeme
import Sideload.Surface.Parser
import Sideload.Surface.Pattern
import Sideload.Surface.Statement
import Sideload.Surface.Syntax
import Sideload.Surface.Text
import Sideload.Text.Blank
import Sideload.Text.Glyph
import Sideload.Text.Identifier
import Sideload.Text.Letter
import Sideload.Text.Printable
import Sideload.Text.Quoted
import Sideload.Text.Ranges
import Sideload.Text.Utf8
import Sideload.Time.Date
import Sideload.Time.Moment
import Sideload.Time.Reader
import Sideload.Toml.Reader
import Sideload.Toml.Scalar
import Sideload.Toml.Table
import Sideload.Toml.Text
import Sideload.World
