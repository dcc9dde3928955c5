import TypedStore.Migration.Endpoint
import TypedStore.Migration.Settings
import TypedStore.Toml.Reader

/-!
# Plans

A plan says where a migration reads, where it writes, and how it runs.  It is
kept in a TOML file of three tables, of which `migration` may be left out.  A
missing file is written with a plan to start from.
-/

namespace TypedStore

/-- A migration as a plan file describes it. -/
structure MigrationPlan where
  source : Endpoint
  target : Endpoint
  settings : MigrationSettings
  deriving DecidableEq

namespace MigrationSettings

/-- The names of the settings in their order. -/
def labels : List String :=
  ["batch_size", "log_interval", "timeout_secs", "key_pattern", "source_prefix", "target_prefix"]

/-- Read the settings from entries. -/
def ofEntries? (entries : Toml.Entries) : Option MigrationSettings := do
  let defaults : MigrationSettings := {}
  return {
    batchSize := (← entries.read? Toml.Value.word? "batch_size").getD defaults.batchSize
    logInterval := (← entries.read? Toml.Value.word? "log_interval").getD defaults.logInterval
    timeoutSeconds :=
      (← entries.read? Toml.Value.word? "timeout_secs").getD defaults.timeoutSeconds
    keyPattern := (← entries.read? Toml.Value.text? "key_pattern").getD defaults.keyPattern
    sourcePrefix := (← entries.read? Toml.Value.text? "source_prefix").getD defaults.sourcePrefix
    targetPrefix :=
      (← entries.read? Toml.Value.text? "target_prefix").getD defaults.targetPrefix }

/-- Read the settings: a table, or a list of them in their order.  A moment
reads as a table without entries. -/
def ofToml? : Toml.Value → Option MigrationSettings
  | .table _ entries => ofEntries? entries
  | .array items => ofEntries? (labels.zip items)
  | .moment _ => some {}
  | _ => none

end MigrationSettings

/-- What stands at the path of a plan file. -/
inductive PlanFile where
  /-- Nothing; it can be written there if the directory above exists. -/
  | absent (writable : Bool)
  | text (content : String)
  /-- Something that is no file of text. -/
  | unreadable
  deriving DecidableEq, Repr

/-- Why there is no plan. -/
inductive PlanFault where
  | notCreated (path : String)
  | notRead (path : String)
  | invalid (path : String)
  deriving DecidableEq, Repr

/-- The wording of a fault. -/
def PlanFault.text : PlanFault → String
  | .notCreated path => "failed to create default config " ++ path
  | .notRead path => "failed to read config " ++ path
  | .invalid path => "invalid config " ++ path

namespace MigrationPlan

/-- Read a plan. -/
def parse? (text : String) : Option MigrationPlan := do
  let entries ← Toml.parse? text
  let source ← Endpoint.ofToml? (← entries.get? "source")
  let target ← Endpoint.ofToml? (← entries.get? "target")
  let settings ← entries.read? MigrationSettings.ofToml? "migration"
  return { source, target, settings := settings.getD {} }

/-- The plan to start from. -/
def starterText : String :=
"# tidemap-migrate configuration
#
# backend is one of: lsm, redis, sqlite

[source]
backend = \"redis\"
addr = \"localhost:6379\"
db = 0
pool_size = 3
max_retries = 3
tls = false
prefix = \"tidemap_legacy_\"
timeout_secs = 5

[target]
backend = \"redis\"
addr = \"localhost:6379\"
# separate database so source and target never collide
db = 1
pool_size = 3
max_retries = 3
tls = false
prefix = \"tidemap_\"
timeout_secs = 5

[migration]
batch_size = 1000
log_interval = 100
timeout_secs = 1800
# \"*\" or empty copies everything, anything else must equal the key
key_pattern = \"*\"
source_prefix = \"tidemap_legacy_\"
target_prefix = \"tidemap_\"
"

/-- Read the plan at a path, or write the one to start from when nothing is
there, and then there is no plan yet.  The file afterwards is part of the
answer. -/
def loadOrCreate (path : String) : PlanFile → Except PlanFault (Option MigrationPlan) × PlanFile
  | .absent true => (.ok none, .text starterText)
  | .absent false => (.error (.notCreated path), .absent false)
  | .unreadable => (.error (.notRead path), .unreadable)
  | .text content =>
    match parse? content with
    | some plan => (.ok (some plan), .text content)
    | none => (.error (.invalid path), .text content)

end MigrationPlan

end TypedStore
