import TypedStore.Adapter
import TypedStore.Redis.Link
import TypedStore.Redis.Options

/-!
# The remote engine

A `Redis` handle keeps entries on a server that other programs use as well.
Every key is written behind a prefix, and a key of the server belongs to the
map exactly when it begins with the prefix and the rest of it is one whole
key.

Every command is tried on one connection of a pool, the connections taking
turns.  When a connection breaks the command is tried again, within a budget;
an error answer or silence ends it.  A failed command ends the operation it
belongs to.  Keys are found by scanning page after page; a key may come more
than once and counts once.
-/

namespace TypedStore

/-- A handle on a server. -/
structure Redis where
  options : RedisOptions
  /-- How many attempts have been made. -/
  turns : Nat
  closed : Bool

namespace Redis

/-- The largest number of keys that one command removes. -/
def deleteBatch : Nat := 1000

/-- A handle and the server it talks to. -/
abbrev State (σ : Type) := Redis × σ

variable {σ κ : Type} (link : RedisLink σ) (codec : KeyCodec κ)

/-- A handle that has just connected. -/
def connected (options : RedisOptions) : Redis :=
  ⟨options, 0, false⟩

/-- Try a command on the next connection. -/
def attempt (command : RedisCommand) : State σ → RedisOutcome × State σ
  | (handle, server) =>
    let connection := handle.turns % handle.options.connections
    let (outcome, server) := link.send connection command server
    (outcome, { handle with turns := handle.turns + 1 }, server)

/-- Try a command until it is answered; `retries` is what is left of the
budget. -/
def executeWithin (command : RedisCommand) : (retries : Nat) → State σ →
    Except StoreError RedisReply × State σ
  | retries, state =>
    match attempt link command state with
    | (.reply reply, state) => (.ok reply, state)
    | (.refused message, state) => (.error (.backend message), state)
    | (.silent, state) =>
      (.error (.timeout (.command command.name state.1.options.timeout)), state)
    | (.broken, state) =>
      match retries with
      | 0 => (.error (.backend "connection broken"), state)
      | retries + 1 => executeWithin command retries state

/-- Run a command. -/
def execute (command : RedisCommand) (state : State σ) :
    Except StoreError RedisReply × State σ :=
  executeWithin link command state.1.options.maxRetries.toNat state

/-- The key of the server for a key of the map, if it can be written. -/
def serverKey? (options : RedisOptions) (key : κ) : Option Bytes :=
  (codec.bytes? key).map fun bytes => Bytes.utf8 options.keyPrefix ++ bytes

/-- The key of the map behind a key of the server, if it belongs to the map. -/
def ownedKey? (options : RedisOptions) (serverKey : Bytes) : Option κ :=
  (Bytes.after? (Bytes.utf8 options.keyPrefix) serverKey).bind codec.key?

/-- One page of a scan: the cursor of the next one and keys. -/
def scanPage (cursor : UInt64) (state : State σ) :
    Except StoreError (UInt64 × List Bytes) × State σ :=
  let options := state.1.options
  match execute link (.scan cursor options.pattern options.pageSize) state with
  | (.ok (.page next keys), state) => (.ok (next, keys), state)
  | (.ok _, state) => (.error (.backend "unexpected reply"), state)
  | (.error error, state) => (.error error, state)

/-- The keys of a page that have not been seen before, each once. -/
def freshKeys (seen page : List Bytes) : List Bytes :=
  (page.foldl (fun fresh key =>
    if seen.contains key || fresh.contains key then fresh else key :: fresh) []).reverse

/-- Scan from a cursor on; `found` are the keys of the pages before. -/
def scanFrom : (pages : Nat) → UInt64 → (found : List Bytes) → State σ →
    Except StoreError (List Bytes) × State σ
  | 0, _, found, state => (.ok found, state)
  | pages + 1, cursor, found, state =>
    match scanPage link cursor state with
    | (.error error, state) => (.error error, state)
    | (.ok (next, page), state) =>
      let found := found ++ freshKeys found page
      if next = 0 then (.ok found, state) else scanFrom pages next found state

/-- All keys that begin with the prefix, each once. -/
def scanKeys (state : State σ) : Except StoreError (List Bytes) × State σ :=
  scanFrom link (link.pageBound state.2) 0 [] state

/-- Cut a list into pieces of the size of one removal. -/
def batches : (fuel : Nat) → List Bytes → List (List Bytes)
  | 0, _ => []
  | _, [] => []
  | fuel + 1, keys => keys.take deleteBatch :: batches fuel (keys.drop deleteBatch)

/-- Remove batches of keys one after another, up to the first failure. -/
def deleteBatches : List (List Bytes) → State σ → Except StoreError Unit × State σ
  | [], state => (.ok (), state)
  | batch :: rest, state =>
    match execute link (.del batch) state with
    | (.ok (.integer _), state) => deleteBatches rest state
    | (.ok _, state) => (.error (.backend "unexpected reply"), state)
    | (.error error, state) => (.error error, state)

/-- Remove keys of the server. -/
def deleteRaw (keys : List Bytes) (state : State σ) : Except StoreError Unit × State σ :=
  deleteBatches link (batches keys.length keys) state

/-- Write a value; the answer says whether it was written. -/
def set (key value : Bytes) (onlyIfAbsent : Bool) (state : State σ) :
    Except StoreError Bool × State σ :=
  match execute link (.set key value onlyIfAbsent state.1.options.expireMillis) state with
  | (.ok reply, state) => (.ok (reply != .nil), state)
  | (.error error, state) => (.error error, state)

/-- The values under keys of the server. -/
def fetch (keys : List Bytes) (state : State σ) :
    Except StoreError (List (Option Bytes)) × State σ :=
  if keys.isEmpty then (.ok [], state)
  else
    match execute link (.mget keys) state with
    | (.ok (.values values), state) => (.ok values, state)
    | (.ok _, state) => (.error (.backend "unexpected reply"), state)
    | (.error error, state) => (.error error, state)

/-- Take the first key of a page that belongs to the map and still holds a
value. -/
def popFromPage : List Bytes → State σ → Except StoreError (Option (κ × Bytes)) × State σ
  | [], state => (.ok none, state)
  | serverKey :: rest, state =>
    match ownedKey? codec state.1.options serverKey with
    | none => popFromPage rest state
    | some key =>
      match execute link (.getdel serverKey) state with
      | (.ok (.bulk value), state) => (.ok (some (key, value)), state)
      | (.ok .nil, state) => popFromPage rest state
      | (.ok _, state) => (.error (.backend "unexpected reply"), state)
      | (.error error, state) => (.error error, state)

/-- Take an entry, scanning from a cursor on. -/
def popFrom : (pages : Nat) → UInt64 → State σ →
    Except StoreError (Option (κ × Bytes)) × State σ
  | 0, _, state => (.ok none, state)
  | pages + 1, cursor, state =>
    match scanPage link cursor state with
    | (.error error, state) => (.error error, state)
    | (.ok (next, page), state) =>
      match popFromPage link codec page state with
      | (.ok none, state) => if next = 0 then (.ok none, state) else popFrom pages next state
      | ended => ended

/-- The entries of a page that belong to the map. -/
def ownedEntries (options : RedisOptions) (keys : List Bytes) (values : List (Option Bytes)) :
    List (κ × Bytes) :=
  (keys.zip values).filterMap fun (serverKey, value) => do
    let key ← ownedKey? codec options serverKey
    let value ← value
    return (key, value)

/-- Visit entries, scanning from a cursor on; `seen` are the keys of the pages
before. -/
def rangeFrom {α : Type} (visit : Visitor κ Bytes α) :
    (pages : Nat) → UInt64 → (seen : List Bytes) → α → State σ → α × State σ
  | 0, _, _, gathered, state => (gathered, state)
  | pages + 1, cursor, seen, gathered, state =>
    match scanPage link cursor state with
    | (.error _, state) => (gathered, state)
    | (.ok (next, page), state) =>
      let fresh := freshKeys seen page
      match fetch link fresh state with
      | (.error _, state) => (gathered, state)
      | (.ok values, state) =>
        match visit.walk (ownedEntries codec state.1.options fresh values) gathered with
        | (gathered, false) => (gathered, state)
        | (gathered, true) =>
          if next = 0 then (gathered, state)
          else rangeFrom visit pages next (seen ++ fresh) gathered state

/-- The value under a key. -/
def load (key : κ) (state : State σ) : Option Bytes × State σ :=
  if state.1.closed then (none, state)
  else
    match serverKey? codec state.1.options key with
    | none => (none, state)
    | some serverKey =>
      match execute link (.get serverKey) state with
      | (.ok (.bulk value), state) => (some value, state)
      | (_, state) => (none, state)

/-- Insert or replace a value. -/
def store (key : κ) (value : Bytes) (state : State σ) : State σ :=
  if state.1.closed then state
  else
    match serverKey? codec state.1.options key with
    | none => state
    | some serverKey => (set link serverKey value false state).2

/-- Insert a value under an absent key. -/
def storeIfAbsent (key : κ) (value : Bytes) (state : State σ) : Bool × State σ :=
  if state.1.closed then (false, state)
  else
    match serverKey? codec state.1.options key with
    | none => (false, state)
    | some serverKey =>
      match set link serverKey value true state with
      | (.ok inserted, state) => (inserted, state)
      | (.error _, state) => (false, state)

/-- Remove keys, those that can be written. -/
def delete (keys : List κ) (state : State σ) : State σ :=
  if keys.isEmpty || state.1.closed then state
  else (deleteRaw link (keys.filterMap (serverKey? codec state.1.options)) state).2

/-- Visit the entries of the map. -/
def range {α : Type} (visit : Visitor κ Bytes α) (gathered : α) (state : State σ) : α × State σ :=
  if state.1.closed then (gathered, state)
  else rangeFrom link codec visit (link.pageBound state.2) 0 [] gathered state

/-- Remove some entry of the map and return it. -/
def next (state : State σ) : Option (κ × Bytes) × State σ :=
  if state.1.closed then (none, state)
  else
    match popFrom link codec (link.pageBound state.2) 0 state with
    | (.ok entry, state) => (entry, state)
    | (.error _, state) => (none, state)

/-- All keys of the map. -/
def keys (state : State σ) : List κ × State σ :=
  if state.1.closed then ([], state)
  else
    match scanKeys link state with
    | (.ok found, state) => (found.filterMap (ownedKey? codec state.1.options), state)
    | (.error _, state) => ([], state)

/-- The number of entries of the map. -/
def len (state : State σ) : Nat × State σ :=
  let (found, state) := keys link codec state
  (found.length, state)

/-- Remove all entries of the map, and nothing else. -/
def clear (state : State σ) : State σ :=
  if state.1.closed then state
  else
    match scanKeys link state with
    | (.error _, state) => state
    | (.ok found, state) =>
      let owned := found.filter fun serverKey =>
        (ownedKey? codec state.1.options serverKey).isSome
      (deleteRaw link owned state).2

/-- Close the handle. -/
def close (state : State σ) : Except StoreError Unit × State σ :=
  if state.1.closed then (.error .closed, state)
  else (.ok (), { state.1 with closed := true }, state.2)

/-- The operations of the engine. -/
def storage : Storage (State σ) κ Bytes where
  load := load link codec
  store := store link codec
  storeIfAbsent := storeIfAbsent link codec
  delete := delete link codec
  range := range link codec
  next := next link codec
  keys := keys link codec
  len := len link codec
  clear := clear link codec
  close := close
  size state := link.entryBound state.2

end Redis

end TypedStore
