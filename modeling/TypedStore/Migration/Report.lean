import TypedStore.Host
import TypedStore.Migration
import TypedStore.Migration.Command

/-!
# Reports of commands

Carrying a command out on a host: the plan is read, the source is opened, then
the target unless the run is dry, the entries are copied, and both are closed.
What there is to print and how the command ended is a `MigrationReport`.  Not
getting a plan or an engine is a failure; what happens to single entries is
part of the statistics, and so is a limit that ends the run.
-/

namespace TypedStore

/-- How a command ended. -/
inductive CommandEnding where
  | done
  | failed (text : String)
  /-- The time at which the run has to end is beyond the clock; a program
  does not survive this. -/
  | crashed
  deriving DecidableEq, Repr

/-- The code that a program exits with. -/
def CommandEnding.code : CommandEnding → UInt8
  | .done => 0
  | .failed _ => 1
  | .crashed => 101

/-- The code that a program exits with when there is nothing to carry out. -/
def CommandFault.code : CommandFault → UInt8
  | .usage => 0
  | .misuse => 2

/-- What there is to print, and how the command ended. -/
structure MigrationReport where
  heading : List String := []
  /-- The statistics of the run, if there was one. -/
  stats : Option MigrationStats := none
  closing : List String := []
  ending : CommandEnding := .done

namespace MigrationReport

/-- The lines to print. -/
def lines (report : MigrationReport) : List String :=
  report.heading
    ++ (match report.stats with
      | some stats => "" :: stats.lines
      | none => [])
    ++ report.closing

/-- The report of a run whose time was measured outside. -/
def lasting (elapsed : Duration) (report : MigrationReport) : MigrationReport :=
  { report with stats := report.stats.map fun stats => { stats with elapsed } }

end MigrationReport

namespace Host

/-- The text that a key is. -/
def keyText : Datum → String
  | .text text => text
  | _ => ""

/-- Values of a schema under texts, in the handle of a number. -/
def underTexts (aead : Aead) (slot registry : Nat) (schema : Schema) :
    Storage Host String Datum :=
  (typed aead Schema.text.keyCodec slot registry schema).rekey keyText .text

/-- Open an end of a migration. -/
def openEndpoint (aead : Aead) (slot : Nat) (role : String) (endpoint : Endpoint) (host : Host) :
    Except String Unit × Host :=
  match endpoint.config with
  | .error fault => (.error fault.text, host)
  | .ok config =>
    match host.openConfig aead slot config with
    | (.ok (), host) => (.ok (), host)
    | (.error _, host) => (.error ("failed to open " ++ role), host)

end Host

namespace MigrationCommand

variable (aead : Aead) (command : MigrationCommand)

/-- The handle of the source. -/
def sourceSlot : Nat := 0

/-- The handle of the target. -/
def targetSlot : Nat := 1

/-- Values of any type under texts, in the handle of a number. -/
def dynamicMap (slot : Nat) : TypedMap Host String Datum :=
  ⟨Host.underTexts aead slot 0 .dyn, true⟩

/-- The target of the command; a dry run has none. -/
def target : Option (TypedMap Host String Datum) :=
  if command.dryRun then none else some (dynamicMap aead targetSlot)

/-- The line in front of a dry run. -/
def heading : List String :=
  if command.dryRun then ["DRY RUN MODE - No changes will be made"] else []

/-- The lines after a run. -/
def closing : List String :=
  if command.dryRun then
    ["", "Dry run completed. Run without --dry-run to perform the migration."]
  else ["", "Migration completed."]

/-- Open the ends that the command works on. -/
def openEnds (plan : MigrationPlan) (host : Host) : Except String Unit × Host :=
  match host.openEndpoint aead sourceSlot "source" plan.source with
  | (.error text, host) => (.error text, host)
  | (.ok (), host) =>
    if command.dryRun then (.ok (), host)
    else host.openEndpoint aead targetSlot "target" plan.target

/-- Close the target and let its handle go, then the source. -/
def closeEnds (host : Host) : Host :=
  let host := if command.dryRun then host else ((dynamicMap aead targetSlot).close host).2
  let host := ((dynamicMap aead sourceSlot).close host).2
  (host.drop targetSlot).drop sourceSlot

/-- Copy the entries of the source of a plan. -/
def carryOutPlan (plan : MigrationPlan) (clock : Source Nat) (host : Host) :
    MigrationReport × Host :=
  let heading := command.heading
  match command.openEnds aead plan host with
  | (.error text, host) =>
    ({ heading, ending := .failed text }, (host.drop targetSlot).drop sourceSlot)
  | (.ok (), host) =>
    match Migration.run (dynamicMap aead sourceSlot) (command.target aead) plan.settings
        command.verify clock host with
    | none => ({ heading, ending := .crashed }, (host.drop targetSlot).drop sourceSlot)
    | some (stats, _, host) =>
      ({ heading, stats := some stats, closing := command.closing },
        command.closeEnds aead host)

/-- Carry the command out.  With the report come the file of the plan and the
host afterwards. -/
def carryOut (file : PlanFile) (clock : Source Nat) (host : Host) :
    MigrationReport × PlanFile × Host :=
  match MigrationPlan.loadOrCreate command.planPath file with
  | (.error fault, file) => ({ ending := .failed fault.text }, file, host)
  | (.ok none, file) =>
    ({ heading :=
        ["Created default config file: " ++ command.planPath,
          "Please review and modify the configuration before running again."] },
      file, host)
  | (.ok (some plan), file) =>
    let (report, host) := command.carryOutPlan aead plan clock host
    (report, file, host)

end MigrationCommand

end TypedStore
