import Std.Time.DateTime.Timestamp
import TypedStore.Cipher.Gcm
import TypedStore.Cipher.Supply
import TypedStore.Host.Snapshot
import TypedStore.Migration.KeptPlace
import TypedStore.Migration.Report

/-!
# The command line

Reads the file of the plan and the places that it names, carries the command
out in memory, writes the places back, and prints the report.  The run itself
is `MigrationCommand.carryOut`; only the measured time is filled in here.
No server is within reach of this program.
-/

namespace TypedStore
namespace Main

/-- What stands at the path of the plan.  Where nothing stands, an empty file
is made if that is possible. -/
def readPlanFile (path : String) : IO PlanFile := do
  try
    let bytes ← IO.FS.readBinFile path
    return ((String.fromUTF8? bytes).map PlanFile.text).getD .unreadable
  catch _ =>
    try
      let _ ← IO.FS.Handle.mk path .writeNew
      return .absent true
    catch
      | .alreadyExists _ _ _ => return .unreadable
      | _ => return .absent false

/-- Write the file of the plan if it was absent. -/
def writePlanFile (path : String) : PlanFile → PlanFile → IO Unit
  | .absent _, .text content => IO.FS.writeFile path content
  | _, _ => pure ()

/-- The places that the text of a plan names. -/
def keptPlaces : PlanFile → List KeptPlace
  | .text content => ((MigrationPlan.parse? content).map KeptPlace.ofPlan).getD []
  | _ => []

/-- Read snapshots of places. -/
def readDisk (places : List KeptPlace) : IO Disk := do
  let mut disk : Disk := {}
  for kept in places do
    try
      let bytes ← IO.FS.readBinFile kept.file
      disk := disk.put kept.place (.ofSnapshot bytes.toList)
    catch _ => pure ()
  return disk

/-- Write snapshots of places. -/
def writeDisk (places : List KeptPlace) (disk : Disk) : IO Unit := do
  for kept in places do
    if let some item := disk.item? kept.place then
      IO.FS.createDirAll kept.directory
      IO.FS.writeBinFile kept.file ⟨item.snapshot.toArray⟩

/-- A fresh seed for a supply. -/
def seed : IO Bytes :=
  return (← IO.getRandomBytes 32).toList

/-- A host with the disk of these places, the time of day and fresh
supplies. -/
def startHost (places : List KeptPlace) : IO Host := do
  let time ← Std.Time.Timestamp.now
  return {
    disk := ← readDisk places
    now := time.toNanosecondsSinceUnixEpoch.toInt.toNat
    nonces := Supply.nonces (← seed)
    dataKeys := Supply.dataKeys (← seed) }

/-- Print a report.  The text of a failure goes to the error stream. -/
def printReport (report : MigrationReport) : IO UInt32 := do
  for line in report.lines do
    IO.println line
  if let .failed text := report.ending then
    IO.eprintln ("Error: " ++ text)
  return report.ending.code.toUInt32

/-- Carry a command out. -/
def carryOut (command : MigrationCommand) : IO UInt32 := do
  let path := command.planPath
  let file ← readPlanFile path
  let places := keptPlaces file
  let host ← startHost places
  let started ← IO.monoNanosNow
  let (report, written, host) ←
    IO.lazyPure fun _ => command.carryOut Gcm.aead file (.constant host.now) host
  let elapsed := Migration.span ((← IO.monoNanosNow) - started)
  writePlanFile path file written
  writeDisk places host.disk
  printReport (report.lasting elapsed)

end Main
end TypedStore

/-- Read the words of the command line and carry them out. -/
def main (words : List String) : IO UInt32 := do
  match TypedStore.MigrationCommand.ofWords words with
  | .ok command => TypedStore.Main.carryOut command
  | .error fault =>
    if fault == .usage then IO.print TypedStore.MigrationCommand.usage
    else IO.eprint TypedStore.MigrationCommand.usage
    return fault.code.toUInt32
