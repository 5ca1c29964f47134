import ZoneStore.Cause
import ZoneStore.Config.Basic
import ZoneStore.Config.Load
import ZoneStore.Database.Auxiliary
import ZoneStore.Database.Basic
import ZoneStore.Database.Error
import ZoneStore.Database.Lookup
import ZoneStore.Files.Path
import ZoneStore.Files.Reader
import ZoneStore.Files.Tree
import ZoneStore.Host.Answers
import ZoneStore.Host.Calls
import ZoneStore.Host.Custody
import ZoneStore.Host.Databases
import ZoneStore.Host.Driver
import ZoneStore.Host.Instances
import ZoneStore.Host.Nodes
import ZoneStore.Host.Operations
import ZoneStore.Host.Registry
import ZoneStore.Host.Shelf
import ZoneStore.Host.State
import ZoneStore.Log
import ZoneStore.Main
import ZoneStore.Name.Basic
import ZoneStore.Name.Buffer
import ZoneStore.Name.Cursor
import ZoneStore.Name.Draft
import ZoneStore.Name.Error
import ZoneStore.Name.Packed
import ZoneStore.Name.PackedCursor
import ZoneStore.Name.Presentation
import ZoneStore.Name.Wire
import ZoneStore.Query.Arguments
import ZoneStore.Query.Run
import ZoneStore.Query.Usage
import ZoneStore.Query.Walk
import ZoneStore.Record.Address
import ZoneStore.Record.CharacterString
import ZoneStore.Record.Class
import ZoneStore.Record.Codes
import ZoneStore.Record.Presentation
import ZoneStore.Record.Rdata
import ZoneStore.Record.Ttl
import ZoneStore.Record.Type
import ZoneStore.Resolver.Basic
import ZoneStore.Resolver.Holdings
import ZoneStore.Resolver.RecordTable
import ZoneStore.Resolver.RecordsFile
import ZoneStore.Resolver.SharedTable
import ZoneStore.Rrset.Basic
import ZoneStore.Rrset.Bisect
import ZoneStore.Rrset.Pool
import ZoneStore.Settings
import ZoneStore.Text.Blank
import ZoneStore.Text.Caseless
import ZoneStore.Text.Decimal
import ZoneStore.Text.Hex
import ZoneStore.Text.HexReader
import ZoneStore.Text.Octets
import ZoneStore.Text.Stored
import ZoneStore.Toml.Decode
import ZoneStore.Toml.Document
import ZoneStore.Toml.Number
import ZoneStore.Toml.Token
import ZoneStore.Violation
import ZoneStore.Proofs.Config.Relocation
import ZoneStore.Proofs.Database.Answers
import ZoneStore.Proofs.Database.Paths
import ZoneStore.Proofs.Host.Effects
import ZoneStore.Proofs.Host.Ledger
import ZoneStore.Proofs.Host.Lifecycle
import ZoneStore.Proofs.Host.Lifetimes
import ZoneStore.Proofs.Host.Ownership
import ZoneStore.Proofs.Host.Registrations
import ZoneStore.Proofs.Host.Repeats
import ZoneStore.Proofs.Host.Serving
import ZoneStore.Proofs.Host.Shelf
import ZoneStore.Proofs.Host.Surplus
import ZoneStore.Proofs.Host.Turnover
import ZoneStore.Proofs.Host.Violations
import ZoneStore.Proofs.Host.Visits
import ZoneStore.Proofs.Name.Buffer
import ZoneStore.Proofs.Name.Caseless
import ZoneStore.Proofs.Name.Cursor
import ZoneStore.Proofs.Name.Grammar
import ZoneStore.Proofs.Name.Moves
import ZoneStore.Proofs.Name.Packed
import ZoneStore.Proofs.Name.Presentation
import ZoneStore.Proofs.Name.Reader
import ZoneStore.Proofs.Name.Reliable
import ZoneStore.Proofs.Name.Wire
import ZoneStore.Proofs.Query.Chain
import ZoneStore.Proofs.Query.Printed
import ZoneStore.Proofs.Query.Safety
import ZoneStore.Proofs.Query.Walk
import ZoneStore.Proofs.Record.Address
import ZoneStore.Proofs.Record.CharacterString
import ZoneStore.Proofs.Record.Codes
import ZoneStore.Proofs.Record.Descriptive
import ZoneStore.Proofs.Record.Dispatch
import ZoneStore.Proofs.Record.Generic
import ZoneStore.Proofs.Record.NameData
import ZoneStore.Proofs.Record.OwnForm
import ZoneStore.Proofs.Record.Presentation
import ZoneStore.Proofs.Record.Quoted
import ZoneStore.Proofs.Record.WireData
import ZoneStore.Proofs.Resolver.Additions
import ZoneStore.Proofs.Resolver.Holdings
import ZoneStore.Proofs.Resolver.RecordTable
import ZoneStore.Proofs.Resolver.RecordsFile
import ZoneStore.Proofs.Resolver.Sharing
import ZoneStore.Proofs.Rrset.Contents
import ZoneStore.Proofs.Rrset.Distinct
import ZoneStore.Proofs.Rrset.Lookup
import ZoneStore.Proofs.Rrset.Pool
import ZoneStore.Proofs.Text.Digits
import ZoneStore.Proofs.Text.Fields
import ZoneStore.Proofs.Text.HexReader
import ZoneStore.Proofs.Text.Layout
import ZoneStore.Proofs.Text.Numerals
import ZoneStore.Proofs.Text.Stored
import ZoneStore.Proofs.Text.Trimming
import ZoneStore.Proofs.Name.Equality
import ZoneStore.Proofs.Record.Whole
import ZoneStore.Proofs.Rrset.Sequence
import ZoneStore.Proofs.Resolver.Loading
import ZoneStore.Proofs.Name.Enclosure
import ZoneStore.Proofs.Config.Zones
import ZoneStore.Proofs.Settings.Arguments
