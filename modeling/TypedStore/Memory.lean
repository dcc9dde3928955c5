import TypedStore.Adapter
import TypedStore.Listing

/-!
# Engines in memory

A `Memory` keeps entries in the running program, under the keys themselves,
without encoding them.  It has no order of its own.  Once closed it reads as
empty and ignores writes; clearing works at any time.

The hash engine is the same store of byte strings.
-/

namespace TypedStore

/-- A store in memory. -/
structure Memory (κ ν : Type) where
  listing : Listing κ ν
  closed : Bool

namespace Memory

variable {κ ν : Type} [DecidableEq κ]

/-- An open store without entries. -/
def empty : Memory κ ν := ⟨.empty, false⟩

instance : Inhabited (Memory κ ν) := ⟨empty⟩

/-- The entries as readers see them. -/
def visible (memory : Memory κ ν) : List (κ × ν) :=
  if memory.closed then [] else memory.listing.entries

/-- The value under a key. -/
def load (key : κ) (memory : Memory κ ν) : Option ν :=
  if memory.closed then none else memory.listing.get? key

/-- Insert or replace a value. -/
def store (key : κ) (value : ν) (memory : Memory κ ν) : Memory κ ν :=
  if memory.closed then memory
  else { memory with listing := memory.listing.insert key value }

/-- Insert a value under an absent key. -/
def storeIfAbsent (key : κ) (value : ν) (memory : Memory κ ν) : Bool × Memory κ ν :=
  if memory.closed then (false, memory)
  else if (memory.listing.get? key).isSome then (false, memory)
  else (true, { memory with listing := memory.listing.insert key value })

/-- Remove keys. -/
def delete (keys : List κ) (memory : Memory κ ν) : Memory κ ν :=
  if memory.closed then memory else { memory with listing := memory.listing.eraseAll keys }

/-- Remove the first entry and return it. -/
def next (memory : Memory κ ν) : Option (κ × ν) × Memory κ ν :=
  if memory.closed then (none, memory)
  else
    let (entry, listing) := memory.listing.takeFirst
    (entry, { memory with listing })

/-- Remove all entries. -/
def clear (memory : Memory κ ν) : Memory κ ν :=
  { memory with listing := .empty }

/-- Close the store. -/
def close (memory : Memory κ ν) : Except StoreError Unit × Memory κ ν :=
  if memory.closed then (.error .closed, memory) else (.ok (), { memory with closed := true })

/-- The operations of the engine. -/
def storage : Storage (Memory κ ν) κ ν where
  load key memory := (memory.load key, memory)
  store := store
  storeIfAbsent := storeIfAbsent
  delete := delete
  range visit gathered memory := ((visit.walk memory.visible gathered).1, memory)
  next := next
  keys memory := (memory.visible.map Prod.fst, memory)
  len memory := (memory.visible.length, memory)
  clear := clear
  close := close
  size memory := memory.listing.entries.length

end Memory

end TypedStore
