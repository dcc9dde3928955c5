import TypedStore.Duration
import TypedStore.Number.Decimal

/-!
# Statistics of a migration

What a run counted, and the summary of it.  The rate is the number of entries
read divided by the seconds the run took, in double precision.
-/

namespace TypedStore

/-- Why an entry was not copied. -/
inductive MigrationFault where
  /-- The target did not give the key back after it was written; the fault
  names the entry by its key in the source. -/
  | unreadable (key : String)
  | other (text : String)
  deriving DecidableEq, Repr

/-- The wording of a fault. -/
def MigrationFault.text : MigrationFault → String
  | .unreadable key => "key " ++ key ++ " not readable from target after write"
  | .other text => text

/-- What a run counted. -/
structure MigrationStats where
  /-- Entries read. -/
  total : Nat := 0
  /-- Entries copied, or that would have been. -/
  migrated : Nat := 0
  /-- Entries that the pattern left out. -/
  skipped : Nat := 0
  errors : List MigrationFault := []
  elapsed : Duration := .ofSeconds 0
  /-- Whether the limit ended the run early. -/
  timedOut : Bool := false
  deriving DecidableEq

namespace MigrationStats

/-- The number of faults that the summary lists. -/
def shownErrors : Nat := 10

/-- The seconds of a run as a float. -/
def seconds? (stats : MigrationStats) : Option Nat :=
  let format := FloatFormat.double
  format.add? (format.nearest stats.elapsed.seconds.toNat 1)
    (format.nearest stats.elapsed.nanos 1000000000)

/-- The entries read per second as the bits of a float; zero for a run that
took no time. -/
def rate (stats : MigrationStats) : Nat :=
  let format := FloatFormat.double
  (stats.seconds?.bind (format.divide? (format.nearest stats.total 1))).getD 0

/-- The rate with one place after the point. -/
def rateText (stats : MigrationStats) : String :=
  match FloatFormat.double.quotient? stats.rate with
  | some (top, bottom) => Decimal.fixed 1 top bottom
  | none => "0.0"

/-- The lines that list faults, the first ones with their numbers. -/
def errorLines (stats : MigrationStats) : List String :=
  let shown := stats.errors.take shownErrors
  let more := stats.errors.length - shown.length
  if stats.errors.isEmpty then []
  else
    ["", "Errors:"]
      ++ shown.zipIdx.map (fun (fault, place) =>
        "  " ++ toString (place + 1) ++ ". " ++ fault.text)
      ++ (if more = 0 then [] else ["  ... and " ++ toString more ++ " more errors"])

/-- The lines of the summary. -/
def lines (stats : MigrationStats) : List String :=
  ["Migration Statistics",
    "====================",
    "Total Keys:     " ++ toString stats.total,
    "Migrated:       " ++ toString stats.migrated,
    "Skipped:        " ++ toString stats.skipped,
    "Errors:         " ++ toString stats.errors.length,
    "Duration:       " ++ stats.elapsed.text]
    ++ (if stats.total = 0 then []
      else ["Rate:           " ++ stats.rateText ++ " keys/sec"])
    ++ (if stats.timedOut then ["Stopped early: timeout reached"] else [])
    ++ stats.errorLines

/-- The summary of a run. -/
def summary (stats : MigrationStats) : String :=
  String.join (stats.lines.map (· ++ "\n"))

end MigrationStats

end TypedStore
