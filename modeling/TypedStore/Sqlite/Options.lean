import TypedStore.Bytes
import TypedStore.Error

/-!
# Settings of the table engine

The settings with their defaults, the text that describes them, and the
checks made before a database is touched: names must be identifiers, modes
must be known, and the values of pragmas must be plain words or numbers.

Names and words end up in statements, so the module also knows which of them
a statement cannot take: reserved words, and words that are neither a number
nor an identifier.
-/

namespace TypedStore

/-- Settings of the table engine. -/
structure SqliteOptions where
  /-- The database file; none keeps the database in memory. -/
  path : Option String := none
  table : String := "tidemap_kv"
  journalMode : String := "WAL"
  synchronous : String := "NORMAL"
  /-- How long a counted number of rows is believed. -/
  countCache : Duration := .ofSeconds 5
  maxOpenConnections : UInt32 := 10
  minIdleConnections : UInt32 := 5
  pragmas : List (String × String) := []
  deriving DecidableEq

namespace SqliteOptions

/-- The text of a file name that may be missing. -/
def pathText : Option String → String
  | some path => "Some(" ++ Text.quoted path ++ ")"
  | none => "None"

/-- The text of a pragma. -/
def pragmaText (pragma : String × String) : String :=
  "(" ++ Text.quoted pragma.1 ++ ", " ++ Text.quoted pragma.2 ++ ")"

/-- The text that describes the settings. -/
def description (options : SqliteOptions) : String :=
  "SqliteOptions \x7b path: " ++ pathText options.path
    ++ ", table: " ++ Text.quoted options.table
    ++ ", journal_mode: " ++ Text.quoted options.journalMode
    ++ ", synchronous: " ++ Text.quoted options.synchronous
    ++ ", count_cache: " ++ options.countCache.text
    ++ ", max_open_connections: " ++ toString options.maxOpenConnections.toNat
    ++ ", min_idle_connections: " ++ toString options.minIdleConnections.toNat
    ++ ", pragmas: [" ++ ", ".intercalate (options.pragmas.map pragmaText) ++ "] \x7d"

/-- A letter or an underscore, of the ASCII range. -/
def isWordStart (character : Char) : Bool :=
  character.isAlpha || character == '_'

/-- A letter, a digit or an underscore, of the ASCII range. -/
def isWordPart (character : Char) : Bool :=
  character.isAlphanum || character == '_'

/-- Letters, digits and underscores that do not start with a digit. -/
def isIdentifier (name : String) : Bool :=
  match name.toList with
  | [] => false
  | first :: rest => isWordStart first && rest.all isWordPart

/-- Letters, digits, underscores and dashes, at least one. -/
def isPragmaValue (value : String) : Bool :=
  !value.isEmpty && value.toList.all fun character => isWordPart character || character == '-'

/-- The known journal modes. -/
def journalModes : List String :=
  ["delete", "truncate", "persist", "memory", "wal", "off"]

/-- The known synchronous modes. -/
def synchronousModes : List String :=
  ["off", "normal", "full", "extra"]

/-- Whether a mode is in a list, in letters of either case. -/
def isMode (modes : List String) (mode : String) : Bool :=
  modes.contains (String.ofList (mode.toList.map Char.toLower))

/-- Check the settings; the first fault in the order table, journal,
synchronous mode, pragmas is the one reported. -/
def check (options : SqliteOptions) : Except ConfigFault Unit := do
  if !isIdentifier options.table then throw (.invalidTable options.table)
  if !isMode journalModes options.journalMode then
    throw (.invalidJournalMode options.journalMode)
  if !isMode synchronousModes options.synchronous then
    throw (.invalidSynchronous options.synchronous)
  for (name, value) in options.pragmas do
    if !(isIdentifier name && isPragmaValue value) then throw (.invalidPragma name value)

/-- Words that a statement does not take as a name. -/
def reservedWords : List String :=
  ["add", "all", "alter", "and", "as", "autoincrement", "between", "case", "check", "collate",
   "commit", "constraint", "create", "default", "deferrable", "delete", "distinct", "drop",
   "else", "escape", "except", "exists", "foreign", "from", "group", "having", "in", "index",
   "insert", "intersect", "into", "is", "isnull", "join", "limit", "not", "nothing", "notnull",
   "null", "on", "or", "order", "primary", "references", "returning", "select", "set", "table",
   "then", "to", "transaction", "union", "unique", "update", "using", "values", "when",
   "where"]

/-- The word in lower-case letters. -/
def folded (word : String) : String :=
  String.ofList (word.toList.map Char.toLower)

/-- Whether a statement takes this identifier as the name of a table. -/
def isTableName (name : String) : Bool :=
  let word := folded name
  !reservedWords.contains word && !word.startsWith "sqlite_"

/-- An unsigned number: decimal digits, perhaps with an exponent, or
hexadecimal digits after `0x`. -/
def isNumeral (digits : List Char) : Bool :=
  match digits with
  | '0' :: mark :: rest =>
    if mark == 'x' || mark == 'X' then
      !rest.isEmpty && rest.all fun digit => (Bytes.hexValue? digit).isSome
    else isDecimal digits
  | _ => isDecimal digits
where
  /-- Decimal digits, perhaps with an exponent. -/
  isDecimal (digits : List Char) : Bool :=
    let whole := digits.takeWhile Char.isDigit
    match digits.dropWhile Char.isDigit with
    | [] => !whole.isEmpty
    | mark :: exponent =>
      let exponent := if exponent.head? == some '-' then exponent.drop 1 else exponent
      !whole.isEmpty && (mark == 'e' || mark == 'E') && !exponent.isEmpty
        && exponent.all Char.isDigit

/-- The characters before a double dash, which opens a comment. -/
def beforeComment : List Char → List Char
  | '-' :: '-' :: _ => []
  | [] => []
  | character :: rest => character :: beforeComment rest

/-- Whether a statement takes this word as the value of a pragma. -/
def isPragmaWord (value : String) : Bool :=
  match beforeComment value.toList with
  | [] => false
  | '-' :: rest => isNumeral rest
  | first :: rest =>
    if isWordStart first then
      rest.all isWordPart &&
        (let word := folded (String.ofList (first :: rest))
         !reservedWords.contains word || ["on", "delete", "default"].contains word)
    else isNumeral (first :: rest)

/-- Whether the database accepts the statements made from checked settings. -/
def isExecutable (options : SqliteOptions) : Bool :=
  isTableName options.table &&
    options.pragmas.all fun (name, value) =>
      !reservedWords.contains (folded name) && isPragmaWord value

end SqliteOptions

end TypedStore
