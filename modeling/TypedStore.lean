import TypedStore.Adapter
import TypedStore.Bytes
import TypedStore.Cipher.Aead
import TypedStore.Cipher.Aes
import TypedStore.Cipher.Gcm
import TypedStore.Cipher.Supply
import TypedStore.Cipher.Vault
import TypedStore.Datum
import TypedStore.Datum.ToWire
import TypedStore.Duration
import TypedStore.Envelope
import TypedStore.Error
import TypedStore.Host
import TypedStore.Host.Disk
import TypedStore.Host.Snapshot
import TypedStore.Listing
import TypedStore.Lsm
import TypedStore.Lsm.Options
import TypedStore.Main
import TypedStore.Memory
import TypedStore.Memory.Options
import TypedStore.Migration
import TypedStore.Migration.Command
import TypedStore.Migration.Endpoint
import TypedStore.Migration.KeptPlace
import TypedStore.Migration.Plan
import TypedStore.Migration.Report
import TypedStore.Migration.Settings
import TypedStore.Migration.Stats
import TypedStore.Number.BinaryFloat
import TypedStore.Number.Decimal
import TypedStore.Number.Integer
import TypedStore.Proofs.Cipher.Consistency
import TypedStore.Proofs.Cipher.Gcm
import TypedStore.Proofs.Cipher.Keyring
import TypedStore.Proofs.Cipher.Numbering
import TypedStore.Proofs.Cipher.Ring
import TypedStore.Proofs.Contract.Adapter
import TypedStore.Proofs.Contract.Draining
import TypedStore.Proofs.Contract.Dropped
import TypedStore.Proofs.Contract.Engines
import TypedStore.Proofs.Contract.FiniteMap
import TypedStore.Proofs.Contract.Gate
import TypedStore.Proofs.Contract.Lsm
import TypedStore.Proofs.Contract.Memory
import TypedStore.Proofs.Contract.Mirror
import TypedStore.Proofs.Contract.OneView
import TypedStore.Proofs.Contract.Redis
import TypedStore.Proofs.Contract.Refinement
import TypedStore.Proofs.Contract.Removal
import TypedStore.Proofs.Contract.Sqlite
import TypedStore.Proofs.Contract.Values
import TypedStore.Proofs.Datum.Settled
import TypedStore.Proofs.Duration.EngineMillis
import TypedStore.Proofs.Envelope.Beginnings
import TypedStore.Proofs.Envelope.Conversion
import TypedStore.Proofs.Envelope.Copiers
import TypedStore.Proofs.Envelope.Copying
import TypedStore.Proofs.Envelope.Exchange
import TypedStore.Proofs.Envelope.Keys
import TypedStore.Proofs.Envelope.Plain
import TypedStore.Proofs.Envelope.Recall
import TypedStore.Proofs.Host.Counts
import TypedStore.Proofs.Host.Directories
import TypedStore.Proofs.Host.Durability
import TypedStore.Proofs.Host.Files
import TypedStore.Proofs.Host.Reopening
import TypedStore.Proofs.Listing.Entries
import TypedStore.Proofs.Lsm.Counts
import TypedStore.Proofs.Lsm.Durability
import TypedStore.Proofs.Lsm.Effects
import TypedStore.Proofs.Lsm.Modes
import TypedStore.Proofs.Migration.Accounting
import TypedStore.Proofs.Migration.Copies
import TypedStore.Proofs.Migration.Payloads
import TypedStore.Proofs.Migration.Renaming
import TypedStore.Proofs.Migration.Turns
import TypedStore.Proofs.Migration.Verification
import TypedStore.Proofs.Number.Integer
import TypedStore.Proofs.Redis.Answers
import TypedStore.Proofs.Redis.Attempts
import TypedStore.Proofs.Redis.Enumeration
import TypedStore.Proofs.Redis.Failures
import TypedStore.Proofs.Redis.Faults
import TypedStore.Proofs.Redis.Glob
import TypedStore.Proofs.Redis.Isolation
import TypedStore.Proofs.Redis.Listings
import TypedStore.Proofs.Redis.Pagination
import TypedStore.Proofs.Redis.Patterns
import TypedStore.Proofs.Redis.Prefixes
import TypedStore.Proofs.Redis.Quiescent
import TypedStore.Proofs.Redis.Repetition
import TypedStore.Proofs.Redis.Retries
import TypedStore.Proofs.Redis.Rows
import TypedStore.Proofs.Registry.Lookup
import TypedStore.Proofs.Registry.Tables
import TypedStore.Proofs.Schema.Consumption
import TypedStore.Proofs.Schema.KeyRecovery
import TypedStore.Proofs.Schema.Labels
import TypedStore.Proofs.Schema.Nested
import TypedStore.Proofs.Schema.Recovery
import TypedStore.Proofs.Schema.Rereading
import TypedStore.Proofs.Schema.Tables
import TypedStore.Proofs.Storage.Invention
import TypedStore.Proofs.Storage.Provenance
import TypedStore.Proofs.StoreConfig.Agreement
import TypedStore.Proofs.Tree.Entries
import TypedStore.Proofs.Wire.Counted
import TypedStore.Proofs.Wire.Heads
import TypedStore.Proofs.Wire.RoundTrip
import TypedStore.Redis
import TypedStore.Redis.Command
import TypedStore.Redis.Glob
import TypedStore.Redis.Link
import TypedStore.Redis.Options
import TypedStore.Redis.Server
import TypedStore.Registry
import TypedStore.Schema
import TypedStore.Schema.Direct
import TypedStore.Schema.Fields
import TypedStore.Schema.OfWire
import TypedStore.Source
import TypedStore.Sqlite
import TypedStore.Sqlite.Options
import TypedStore.Sqlite.Table
import TypedStore.Storage
import TypedStore.Storage.Combine
import TypedStore.StoreConfig
import TypedStore.StoreConfig.Environment
import TypedStore.Table
import TypedStore.Text.Blank
import TypedStore.Text.CaseTable
import TypedStore.Text.EscapedTable
import TypedStore.Text.Lowercase
import TypedStore.Text.Quoted
import TypedStore.Text.Ranges
import TypedStore.Toml
import TypedStore.Toml.Reader
import TypedStore.Toml.Scalar
import TypedStore.Tree
import TypedStore.TypedMap
import TypedStore.Url
import TypedStore.Url.Ipv6
import TypedStore.Url.Percent
import TypedStore.Wire
import TypedStore.Wire.Description
import TypedStore.Wire.Printer
import TypedStore.Wire.Reader
