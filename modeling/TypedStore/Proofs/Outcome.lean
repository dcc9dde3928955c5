/-!
# Taking successful computations apart

What a computation that ended well says about the computations it is made of.
-/

namespace TypedStore

theorem ok_bind {ε α β : Type} (value : α) (next : α → Except ε β) :
    Except.ok value >>= next = next value := rfl

theorem exists_of_map_eq_ok {ε α β : Type} {change : α → β} {result : Except ε α} {made : β}
    (succeeds : result.map change = .ok made) :
    ∃ value, result = .ok value ∧ change value = made := by
  cases result with
  | ok value => exact ⟨value, rfl, Except.ok.inj succeeds⟩
  | error fault => cases succeeds

theorem exists_of_bind_eq_ok {ε α β : Type} {next : α → Except ε β} {result : Except ε α} {made : β}
    (succeeds : result >>= next = .ok made) :
    ∃ value, result = .ok value ∧ next value = .ok made := by
  cases result with
  | ok value => exact ⟨value, rfl, succeeds⟩
  | error fault => cases succeeds

theorem of_mapError_eq_ok {ε ζ α : Type} {change : ε → ζ} {result : Except ε α} {value : α}
    (succeeds : result.mapError change = .ok value) : result = .ok value := by
  cases result with
  | ok found => exact congrArg Except.ok (Except.ok.inj succeeds)
  | error fault => cases succeeds

theorem eq_ok_of_toOption {ε α : Type} {result : Except ε α} {value : α}
    (found : result.toOption = some value) : result = .ok value := by
  cases result with
  | ok inner => exact congrArg Except.ok (Option.some.inj found)
  | error fault => cases found

end TypedStore
