import Gateware.Text.Basic
import Gateware.Text.CodeSet
import Gateware.Text.Blank
import Gateware.Text.Letter
import Gateware.Text.WordChar
import Gateware.Text.Case
import Gateware.Text.Numeral
import Gateware.Sorted.Key
import Gateware.Sorted.Set
import Gateware.Sorted.Table
import Gateware.Script.Line
import Gateware.Script.Words
import Gateware.Script.Basic
import Gateware.Timestamp
import Gateware.RegisterMap.Bits
import Gateware.RegisterMap.Access
import Gateware.RegisterMap.Basic
import Gateware.RegisterMap.Line
import Gateware.RegisterMap.Grammar
import Gateware.RegisterMap.Warning
import Gateware.RegisterMap.Parser
import Gateware.RegisterMap.Printer
import Gateware.RegisterMap.Describable
import Gateware.RegisterMap.Import
import Gateware.RegisterMap.Expansion
import Gateware.Stamp
import Gateware.RegisterMap.Banner
import Gateware.RegisterMap.Package
import Gateware.RegisterMap.SmokeTest
import Gateware.Vendor.Basic
import Gateware.Vendor.Token
import Gateware.Json.Basic
import Gateware.RegisterMap.Json
import Gateware.Markup.Basic
import Gateware.Markup.Error
import Gateware.Markup.Escape
import Gateware.Markup.Attribute
import Gateware.Markup.Token
import Gateware.Markup.Reader
import Gateware.Markup.Writer
import Gateware.Component.LaneName
import Gateware.Component.Basic
import Gateware.Component.Merge
import Gateware.Component.Dependency
import Gateware.Component.Reader
import Gateware.Component.Json
import Gateware.Path.Basic
import Gateware.Path.Normal
import Gateware.Interface
import Gateware.Carrier
import Gateware.Verilog
import Gateware.Library.Basic
import Gateware.Library.Index
import Gateware.Library.Resolution
import Gateware.Project.Basic
import Gateware.Makefile
import Gateware.FileTree.Basic
import Gateware.Script.File
import Gateware.Repository.Source
import Gateware.Component.Cache
import Gateware.Library.Reader
import Gateware.Project.Closure
import Gateware.Project.Reader
import Gateware.Repository.Basic
import Gateware.Repository.Event
import Gateware.Repository.Loading
import Gateware.Repository.Generation
import Gateware.Cli.Arguments
import Gateware.Cli.Output
import Gateware.Cli.Run
import Gateware.Main
import Gateware.Proofs.Text.Trim
import Gateware.Proofs.Text.Numeral
import Gateware.Proofs.Text.Literal
import Gateware.Proofs.RegisterMap.Grammar
import Gateware.Proofs.RegisterMap.StructuredLines
import Gateware.Proofs.RegisterMap.Blocks
import Gateware.Proofs.RegisterMap.RoundTrip
import Gateware.Proofs.RegisterMap.Snapshot
import Gateware.Proofs.RegisterMap.Pending
import Gateware.Proofs.RegisterMap.Expansion
import Gateware.RegisterMap.Session
import Gateware.Proofs.RegisterMap.Invariant
import Gateware.Proofs.Library.Sharing
import Gateware.Proofs.FileTree.Place
import Gateware.Library.Session
import Gateware.Proofs.Component.Transparency
import Gateware.Proofs.Project.Closure
import Gateware.Proofs.RegisterMap.Elaboration
import Gateware.Proofs.RegisterMap.Placement
import Gateware.Proofs.Markup.Escape
import Gateware.Proofs.Markup.RoundTrip
import Gateware.Proofs.Component.Mention
import Gateware.Proofs.Component.Lanes
import Gateware.Proofs.Component.Ports
import Gateware.Proofs.RegisterMap.Cursor
import Gateware.Proofs.RegisterMap.Isolation
import Gateware.Proofs.RegisterMap.Continuation
import Gateware.Proofs.RegisterMap.Accounts
import Gateware.Proofs.RegisterMap.Conservation
import Gateware.Proofs.RegisterMap.Overflow
import Gateware.Proofs.RegisterMap.ClosedClasses
import Gateware.Proofs.RegisterMap.SmokeTest
import Gateware.Proofs.Repository.Loading
import Gateware.Proofs.Repository.Packages
import Gateware.Proofs.Repository.Run
import Gateware.Proofs.Repository.Collisions
import Gateware.Proofs.Path.Join
import Gateware.Proofs.FileTree.Following
import Gateware.Proofs.Path.Below
import Gateware.Proofs.FileTree.Writing
import Gateware.Proofs.FileTree.Reading
import Gateware.Proofs.Repository.Listing
import Gateware.Proofs.Repository.Agreement
import Gateware.Proofs.Repository.Emission
import Gateware.Proofs.Repository.Outputs
import Gateware.Proofs.Repository.DryRun
import Gateware.Proofs.RegisterMap.AccessTags
import Gateware.Proofs.RegisterMap.Surroundings
import Gateware.Proofs.RegisterMap.Selection
import Gateware.Proofs.Path.Route
import Gateware.Proofs.Library.Names
import Gateware.Proofs.Text.Bytes
import Gateware.Proofs.Library.Closest
import Gateware.Proofs.Sorted.Table
import Gateware.Proofs.Library.Collecting
import Gateware.Proofs.Path.Fork
import Gateware.Proofs.Path.Relative
import Gateware.Proofs.Project.Outside
import Gateware.Proofs.Library.Rewriting
import Gateware.Proofs.Text.Spacing
import Gateware.Proofs.Script.Words
import Gateware.Proofs.Script.Line
import Gateware.Proofs.Script.Runs
import Gateware.Proofs.Script.Seams
import Gateware.Interface.Printer
import Gateware.Proofs.Script.Items
import Gateware.Proofs.Interface.Lines
import Gateware.Proofs.Interface.RoundTrip
import Gateware.Proofs.Interface.Segments
import Gateware.Proofs.Verilog.Comments
import Gateware.Proofs.Text.CodeSet
import Gateware.Proofs.Text.Lookback
import Gateware.Verilog.Header
import Gateware.Proofs.Verilog.Declaration
import Gateware.Proofs.Verilog.Header
import Gateware.Proofs.Text.Lines
import Gateware.Proofs.Component.LaneName
import Gateware.Proofs.Component.Settled
import Gateware.Proofs.Makefile.Variables
import Gateware.Proofs.RegisterMap.Wiring
import Gateware.Proofs.RegisterMap.ParameterLists
import Gateware.Proofs.Path.Spelling
import Gateware.Proofs.Project.Spelling
import Gateware.Proofs.Text.Marks
import Gateware.Proofs.RegisterMap.Placeholder
