import TypedStore.Number.Decimal

/-!
# Durations

A span of time in whole seconds and nanoseconds.  `Duration.toMillis` leaves
out what is less than a millisecond; `Duration.text` writes a span in the
largest unit with a whole part.
-/

namespace TypedStore

/-- A span of time.  Seconds are a word of eight bytes, and the nanoseconds
stay below a second. -/
structure Duration where
  seconds : UInt64
  nanos : Nat
  nanos_lt : nanos < 1000000000
  deriving DecidableEq

namespace Duration

/-- Whole seconds. -/
def ofSeconds (seconds : UInt64) : Duration :=
  ⟨seconds, 0, by decide⟩

/-- Whole milliseconds. -/
def ofMillis (millis : UInt64) : Duration :=
  ⟨millis / 1000, (millis % 1000).toNat * 1000000, by
    have bound : (millis % 1000).toNat < 1000 := by
      rw [UInt64.toNat_mod]
      exact Nat.mod_lt _ (by decide)
    omega⟩

/-- A span from a number of seconds and nanoseconds. -/
def ofParts? (seconds : UInt64) (nanos : Nat) : Option Duration :=
  if bound : nanos < 1000000000 then some ⟨seconds, nanos, bound⟩ else none

instance : Inhabited Duration := ⟨ofSeconds 0⟩

/-- The whole span in nanoseconds. -/
def toNanos (duration : Duration) : Nat :=
  duration.seconds.toNat * 1000000000 + duration.nanos

/-- The span in whole milliseconds. -/
def toMillis (duration : Duration) : Nat :=
  duration.seconds.toNat * 1000 + duration.nanos / 1000000

/-- Whether the span is empty. -/
def isZero (duration : Duration) : Bool :=
  duration.seconds == 0 && duration.nanos == 0

/-- Digits after the point of a unit that divides into `10 ^ places` parts,
without trailing zeros and without a point when none are left. -/
def fractionText (part places : Nat) : String :=
  let digits := (toString part).toList
  let padded := List.replicate (places - digits.length) '0' ++ digits
  let kept := (padded.reverse.dropWhile (· == '0')).reverse
  if kept.isEmpty then "" else "." ++ String.ofList kept

/-- The span in the largest of seconds, milliseconds, microseconds and
nanoseconds that has a whole part. -/
def text (duration : Duration) : String :=
  if 0 < duration.seconds then
    toString duration.seconds.toNat ++ fractionText duration.nanos 9 ++ "s"
  else if 1000000 ≤ duration.nanos then
    toString (duration.nanos / 1000000) ++ fractionText (duration.nanos % 1000000) 6 ++ "ms"
  else if 1000 ≤ duration.nanos then
    toString (duration.nanos / 1000) ++ fractionText (duration.nanos % 1000) 3 ++ "µs"
  else toString duration.nanos ++ "ns"

end Duration
end TypedStore
