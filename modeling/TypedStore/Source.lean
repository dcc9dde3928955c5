/-!
# Sources

What a running engine reads from outside, a clock or a supply of random
bytes, is a `Source`: a sequence of readings and the place reached in it.
Nothing is assumed about the readings, so a clock may go backwards.
-/

namespace TypedStore

/-- A sequence of readings, some of them taken. -/
structure Source (α : Type) where
  reading : Nat → α
  position : Nat

namespace Source

variable {α : Type}

/-- A source that always gives the same reading. -/
def constant (value : α) : Source α := ⟨fun _ => value, 0⟩

instance [Inhabited α] : Inhabited (Source α) := ⟨constant default⟩

/-- Two sources that share the coming readings out between them. -/
def split (source : Source α) : Source α × Source α :=
  (⟨fun place => source.reading (source.position + 2 * place), 0⟩,
    ⟨fun place => source.reading (source.position + 2 * place + 1), 0⟩)

/-- The next reading. -/
def current (source : Source α) : α :=
  source.reading source.position

/-- The source after one more reading. -/
def advance (source : Source α) : Source α :=
  { source with position := source.position + 1 }

end Source

end TypedStore
