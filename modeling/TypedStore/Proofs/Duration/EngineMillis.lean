import Mathlib.Algebra.Order.Group.Nat
import TypedStore.Lsm.Options
import TypedStore.Redis
import TypedStore.Redis.Server

/-!
# Spans of time in milliseconds

Engines count spans of time in milliseconds: the expiry of a written entry, and the
time between two flushes.  They receive at least one millisecond, and the number is
then cut to a word.  Up to the last span whose milliseconds fit a word a longer span
gives no smaller number, and none gives zero.  The next span, of `2 ^ 64`
milliseconds, gives zero, so that the order ends exactly there
(`Duration.keepsOrder_engineMillis_iff`).

A remote engine sends the number with every attempt at a write, which
`Redis.sent_set` says of any server.
-/

namespace TypedStore
namespace Duration

/-- The milliseconds of a span as engines receive them. -/
def engineMillis (duration : Duration) : UInt64 :=
  UInt64.ofNat (max duration.toMillis 1)

/-- Whether up to a last span no span gives zero, and a longer one no smaller number. -/
def KeepsOrder (millis : Duration → UInt64) (last : Duration) : Prop :=
  ∀ first second : Duration, first.toNanos ≤ second.toNanos → second.toNanos ≤ last.toNanos →
    1 ≤ millis first ∧ millis first ≤ millis second

theorem toNat_engineMillis (duration : Duration) :
    duration.engineMillis.toNat = max duration.toMillis 1 % 2 ^ 64 :=
  UInt64.toNat_ofNat'

theorem toMillis_eq (duration : Duration) : duration.toMillis = duration.toNanos / 1000000 := by
  rw [toMillis, toNanos]
  omega

theorem toMillis_le {first second : Duration} (before : first.toNanos ≤ second.toNanos) :
    first.toMillis ≤ second.toMillis := by
  rw [toMillis_eq, toMillis_eq]
  exact Nat.div_le_div_right before

/-- As long as the milliseconds fit a word nothing is cut off. -/
theorem toNat_engineMillis_of_lt {duration : Duration} (fits : duration.toMillis < 2 ^ 64) :
    duration.engineMillis.toNat = max duration.toMillis 1 := by
  rw [toNat_engineMillis]
  exact Nat.mod_eq_of_lt (max_lt fits (by decide))

/-- Zero is received exactly for the multiples of `2 ^ 64` milliseconds after zero, which
itself is received as one. -/
theorem engineMillis_eq_zero_iff (duration : Duration) :
    duration.engineMillis = 0 ↔ 0 < duration.toMillis ∧ 2 ^ 64 ∣ duration.toMillis := by
  rw [← UInt64.toNat_inj, toNat_engineMillis]
  change max duration.toMillis 1 % 2 ^ 64 = 0 ↔ _
  omega

/-- The shortest span whose milliseconds do not fit a word. -/
def shortestCut : Duration :=
  ⟨18446744073709551, 616000000, by decide⟩

theorem toNanos_shortestCut_le {duration : Duration} (long : 2 ^ 64 ≤ duration.toMillis) :
    shortestCut.toNanos ≤ duration.toNanos := by
  have nanos : shortestCut.toNanos = 2 ^ 64 * 1000000 := by decide
  rw [toMillis_eq] at long
  rw [nanos]
  omega

/-- Spans keep their order exactly as far as their milliseconds fit a word. -/
theorem keepsOrder_engineMillis_iff (last : Duration) :
    KeepsOrder engineMillis last ↔ last.toMillis < 2 ^ 64 := by
  constructor
  · intro ordered
    by_contra long
    have cut := toNanos_shortestCut_le (Nat.le_of_not_lt long)
    have positive := (ordered shortestCut shortestCut (Nat.le_refl _) cut).1
    exact absurd positive (by decide)
  · intro fits first second before within
    have small : second.toMillis < 2 ^ 64 := Nat.lt_of_le_of_lt (toMillis_le within) fits
    have shorter := toMillis_le before
    rw [UInt64.le_iff_toNat_le, UInt64.le_iff_toNat_le, toNat_engineMillis_of_lt small,
      toNat_engineMillis_of_lt (Nat.lt_of_le_of_lt shorter small)]
    exact ⟨Nat.le_max_right _ _, max_le_max_right 1 shorter⟩

end Duration

/-! ## What is sent with a write -/

/-- A link that also keeps the commands sent over it, the latest first. -/
def RedisLink.noted {σ : Type} (link : RedisLink σ) : RedisLink (σ × List RedisCommand) where
  send connection command state :=
    let (outcome, server) := link.send connection command state.1
    (outcome, server, command :: state.2)
  pageBound state := link.pageBound state.1
  entryBound state := link.entryBound state.1

namespace Redis

variable {σ : Type} (link : RedisLink σ)

theorem sent_attempt (command : RedisCommand) (state : State (σ × List RedisCommand)) :
    (attempt link.noted command state).2.2.2 = command :: state.2.2 :=
  rfl

/-- A command that is tried again is sent as it was the first time. -/
theorem sent_executeWithin (command : RedisCommand) (retries : Nat)
    (state : State (σ × List RedisCommand)) :
    ∃ again, (executeWithin link.noted command retries state).2.2.2 =
      List.replicate (again + 1) command ++ state.2.2 := by
  induction retries generalizing state with
  | zero =>
    have first := sent_attempt link command state
    refine ⟨0, ?_⟩
    rw [executeWithin]
    cases tried : attempt link.noted command state with
    | mk outcome later =>
      rw [tried] at first
      cases outcome <;> exact first
  | succ retries hypothesis =>
    have first := sent_attempt link command state
    rw [executeWithin]
    cases tried : attempt link.noted command state with
    | mk outcome later =>
      rw [tried] at first
      cases outcome with
      | broken =>
        -- The attempts that follow are sent after this one.
        rcases hypothesis later with ⟨again, sent⟩
        have longer : List.replicate (again + 1 + 1) command =
            List.replicate (again + 1) command ++ [command] := List.replicate_succ'
        refine ⟨again + 1, sent.trans ?_⟩
        rw [first, longer, List.append_assoc]
        rfl
      | reply reply => exact ⟨0, first⟩
      | refused message => exact ⟨0, first⟩
      | silent => exact ⟨0, first⟩

/-- Whatever the server does, a write is sent with the expiry of the settings. -/
theorem sent_set (key value : Bytes) (onlyIfAbsent : Bool)
    (state : State (σ × List RedisCommand)) :
    ∃ again, (set link.noted key value onlyIfAbsent state).2.2.2 =
      List.replicate (again + 1)
        (.set key value onlyIfAbsent state.1.options.expireMillis) ++ state.2.2 := by
  rcases sent_executeWithin link (.set key value onlyIfAbsent state.1.options.expireMillis)
    state.1.options.maxRetries.toNat state with ⟨again, sent⟩
  refine ⟨again, ?_⟩
  rw [← sent, set, execute]
  split <;> next result => rw [result]

end Redis

namespace Duration

/-- Every write to a remote engine with a span as expiry carries the milliseconds that
the engine receives of it, and so does the time between flushes of a log-structured
engine.  That is zero exactly for multiples of `2 ^ 64` milliseconds, and up to the span
the order of spans is kept exactly if its milliseconds fit a word. -/
theorem engines_keep_order_iff (span : Duration) :
    (∀ (σ : Type) (link : RedisLink σ) (key value : Bytes) (onlyIfAbsent : Bool)
        (state : Redis.State (σ × List RedisCommand)),
      state.1.options.expire = some span →
      ∃ again, (Redis.set link.noted key value onlyIfAbsent state).2.2.2 =
        List.replicate (again + 1) (.set key value onlyIfAbsent (some span.engineMillis)) ++
          state.2.2) ∧
    (∀ options : LsmOptions, options.syncWrites = false → options.flushEvery = span →
      options.flushMillis = some span.engineMillis) ∧
    span.engineMillis.toNat = max span.toMillis 1 % 2 ^ 64 ∧
    (span.engineMillis = 0 ↔ 0 < span.toMillis ∧ 2 ^ 64 ∣ span.toMillis) ∧
    (KeepsOrder engineMillis span ↔ span.toMillis < 2 ^ 64) := by
  refine ⟨?_, ?_, toNat_engineMillis span, engineMillis_eq_zero_iff span,
    keepsOrder_engineMillis_iff span⟩
  · intro σ link key value onlyIfAbsent state chosen
    rcases Redis.sent_set link key value onlyIfAbsent state with ⟨again, sent⟩
    refine ⟨again, ?_⟩
    rw [sent, RedisOptions.expireMillis, chosen]
    rfl
  · rintro options lazy rfl
    rw [LsmOptions.flushMillis, lazy]
    rfl

/-- The longest span whose milliseconds fit a word, but for fractions of one. -/
def longestKept : Duration :=
  ⟨18446744073709551, 615000000, by decide⟩

/-- Settings with the longest expiry that keeps its order. -/
def longExpiry : RedisOptions :=
  { expire := some longestKept }

/-- The longest expiry that keeps its order is sent as it is, and so is the time between
flushes. -/
theorem longest_kept_is_sent :
    (longExpiry.expire = some longestKept ∧ longestKept.toMillis < 2 ^ 64) ∧
    (∃ again, (Redis.set (RedisServer.link ⟨0, none, none⟩ 0).noted [1] [2] true
        (Redis.connected longExpiry, {}, [])).2.2.2 =
      List.replicate (again + 1) (.set [1] [2] true (some 18446744073709551615))) ∧
    ({ flushEvery := longestKept } : LsmOptions).flushMillis = some 18446744073709551615 ∧
    KeepsOrder engineMillis longestKept := by
  have fits : longestKept.toMillis < 2 ^ 64 := by decide
  have millis : longestKept.engineMillis = 18446744073709551615 := by decide +kernel
  rcases engines_keep_order_iff longestKept with ⟨sends, flushes, _, _, ordered⟩
  rcases sends RedisServer (RedisServer.link ⟨0, none, none⟩ 0) [1] [2] true
    (Redis.connected longExpiry, {}, []) rfl with ⟨again, sent⟩
  have flushed := flushes { flushEvery := longestKept } rfl rfl
  rw [millis] at sent flushed
  exact ⟨⟨rfl, fits⟩, ⟨again, sent.trans (List.append_nil _)⟩, flushed, ordered.mpr fits⟩

/-- One millisecond more is sent as zero, and a plan that asks for an expiry after
18446744073709552 seconds gets one after 384 milliseconds. -/
theorem longer_spans_are_cut :
    longestKept.toNanos ≤ shortestCut.toNanos ∧
    ({ expire := some longestKept } : RedisOptions).expireMillis = some 18446744073709551615 ∧
    ({ expire := some shortestCut } : RedisOptions).expireMillis = some 0 ∧
    ({ flushEvery := longestKept } : LsmOptions).flushMillis = some 18446744073709551615 ∧
    ({ flushEvery := shortestCut } : LsmOptions).flushMillis = some 0 ∧
    ({ expire := some (.ofSeconds 18446744073709552) } : RedisOptions).expireMillis = some 384 := by
  decide +kernel

end Duration
end TypedStore
