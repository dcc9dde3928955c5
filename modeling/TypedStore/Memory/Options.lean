/-!
# Settings of the hash engine

The one setting is the room to reserve when the engine is opened.  A table
keeps an eighth of its slots free, and slots must be countable in a word, so
not every room can be reserved.
-/

namespace TypedStore

/-- Settings of the hash engine. -/
structure FastHashOptions where
  /-- How many entries to make room for. -/
  capacity : UInt64 := 10000
  deriving DecidableEq

namespace FastHashOptions

/-- Whether the room asked for can be reserved. -/
def isReservable (options : FastHashOptions) : Bool :=
  decide (options.capacity.toNat * 8 < 0x10000000000000000)

/-- The text that describes the settings. -/
def description (options : FastHashOptions) : String :=
  "FastHashOptions \x7b capacity: " ++ toString options.capacity.toNat ++ " \x7d"

end FastHashOptions

end TypedStore
