import Webcomic.Archive.Basic
import Webcomic.Archive.Directory
import Webcomic.Archive.FileDate
import Webcomic.Calendar.Date
import Webcomic.Calendar.Format
import Webcomic.Calendar.Moment
import Webcomic.Calendar.Stamp
import Webcomic.CommandLine.Invocation
import Webcomic.CommandLine.Run
import Webcomic.Decimal.Basic
import Webcomic.Decimal.Shortest
import Webcomic.Files.Fault
import Webcomic.Files.Path
import Webcomic.Files.Resolve
import Webcomic.Files.Tree
import Webcomic.Keyed
import Webcomic.Main
import Webcomic.Marker.Choice
import Webcomic.Marker.Scan
import Webcomic.Proofs.Marker.Captures
import Webcomic.Proofs.Marker.Decision
import Webcomic.Proofs.Marker.Grammar
import Webcomic.Proofs.Marker.Neighbours
import Webcomic.Proofs.Marker.Positions
import Webcomic.Proofs.Template.Agreement
import Webcomic.Proofs.Template.Machine
import Webcomic.Proofs.Template.Nesting
import Webcomic.Proofs.Template.OpenFiles
import Webcomic.Site.Config
import Webcomic.Site.ConfigText
import Webcomic.Site.Error
import Webcomic.Site.Page
import Webcomic.Site.Promotion
import Webcomic.Site.Publish
import Webcomic.Site.Tags
import Webcomic.Template.Builtin
import Webcomic.Template.Depth
import Webcomic.Template.Error
import Webcomic.Template.Expand
import Webcomic.Template.Handler
import Webcomic.Template.Name
import Webcomic.Template.Registry
import Webcomic.Template.Session
import Webcomic.Text.Base
import Webcomic.Text.Blank
import Webcomic.Text.Case
import Webcomic.Text.CaseTable
import Webcomic.Text.Decimal
import Webcomic.Text.Digit
import Webcomic.Text.Lines
import Webcomic.Text.Pieces
import Webcomic.Text.PrintTable
import Webcomic.Text.Quoted
import Webcomic.Yaml.Block
import Webcomic.Yaml.Document
import Webcomic.Yaml.Flow
import Webcomic.Yaml.Glyph
import Webcomic.Yaml.Lexer
import Webcomic.Yaml.Node
import Webcomic.Yaml.Property
import Webcomic.Yaml.Record
import Webcomic.Yaml.Token
import Webcomic.Yaml.Value
import Webcomic.Proofs.Files.Lookup
import Webcomic.Proofs.Files.Change
import Webcomic.Proofs.Files.Listing
import Webcomic.Proofs.Archive.Contents
import Webcomic.Proofs.Site.Memory
import Webcomic.Proofs.Site.Rendering
import Webcomic.Proofs.Site.Change
import Webcomic.Proofs.Site.Preparation
import Webcomic.Proofs.Site.Run
import Webcomic.Proofs.Site.Independence
import Webcomic.Proofs.Site.Lockstep
import Webcomic.Proofs.Site.Noninterference
import Webcomic.Proofs.Site.History
import Webcomic.Proofs.Site.Invariant
import Webcomic.Proofs.Text.Lines
import Webcomic.Proofs.Template.Contents
import Webcomic.Proofs.Marker.LineByLine
import Webcomic.Proofs.Template.Splicing
import Webcomic.Proofs.Template.Keeping
import Webcomic.Proofs.Site.Keeping
import Webcomic.Proofs.Site.FailedFile
import Webcomic.Proofs.Archive.Neighbours
import Webcomic.Proofs.Site.Navigation
import Webcomic.Proofs.Files.Identity
import Webcomic.Proofs.Template.Registration
import Webcomic.Proofs.Site.Report
import Webcomic.Proofs.Site.Outcome
import Webcomic.Proofs.Archive.Edits
import Webcomic.Proofs.Files.Components
import Webcomic.Proofs.Site.Addresses
import Webcomic.Proofs.Template.Turns
import Webcomic.Proofs.Site.Strips
import Webcomic.Proofs.Template.Hosting
import Webcomic.Proofs.Site.Renewal
import Webcomic.Proofs.Site.LinkMemory
import Webcomic.Proofs.Site.Policies
import Webcomic.Proofs.Site.Staging
import Webcomic.Proofs.Text.ByteOrder
import Webcomic.Proofs.Archive.Reading
import Webcomic.Proofs.Archive.Walk
import Webcomic.Proofs.Text.Numerals
import Webcomic.Proofs.Template.Datestamps
import Webcomic.Proofs.Calendar.DayNumber
import Webcomic.Proofs.Calendar.Clock
import Webcomic.Proofs.Site.DayInEffect
import Webcomic.Proofs.Archive.Dating
import Webcomic.Proofs.Marker.Written
import Webcomic.Proofs.Marker.Pairs
import Webcomic.Proofs.Template.Untouched
import Webcomic.Proofs.Text.Words
import Webcomic.Proofs.Template.Spelling
import Webcomic.Proofs.Site.Preview
import Webcomic.Proofs.Calendar.Format
import Webcomic.Proofs.Site.DateTags
