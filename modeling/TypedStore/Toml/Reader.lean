import TypedStore.Toml.Scalar

/-!
# Reading TOML

Keys, arrays, tables in braces, and the lines of a document.  Values are
nested up to a depth that is fixed, and so are dotted keys.  Loops over items
and lines take a number of steps that the length of the text bounds.
-/

namespace TypedStore
namespace Toml

/-- Values may be nested this deep, and a key may have this many parts. -/
def maxDepth : Nat := 79

/-- Skip spaces and tabs. -/
def skipSpaces (characters : List Char) : List Char :=
  characters.dropWhile isSpace

/-- A part of a key: a text of one line, or a bare word. -/
def readKeyPart (characters : List Char) : Option (String × List Char) :=
  match characters with
  | [] => none
  | first :: _ =>
    if first = '"' || first = '\'' then readShortText characters
    else
      let word := characters.takeWhile fun character =>
        character.isAlphanum || character == '-' || character == '_'
      if word.isEmpty then none else some (String.ofList word, characters.drop word.length)

/-- The parts of a key between points. -/
def readKeyParts : (fuel : Nat) → List Char → Option (List String × List Char)
  | 0, _ => none
  | fuel + 1, characters => do
    let (part, rest) ← readKeyPart (skipSpaces characters)
    match skipSpaces rest with
    | '.' :: rest =>
      let (parts, rest) ← readKeyParts fuel rest
      return (part :: parts, rest)
    | rest => return ([part], rest)

/-- A key as a path and the last part, with the spaces around it. -/
def readKey (characters : List Char) : Option ((List String × String) × List Char) := do
  let (parts, rest) ← readKeyParts maxDepth characters
  return ((parts.dropLast, ← parts.getLast?), rest)

/-- Skip spaces, line ends and comments between the items of an array. -/
def skipFill : (inComment : Bool) → List Char → List Char
  | _, [] => []
  | inComment, character :: rest =>
    if atLineEnd (character :: rest) then skipFill (inComment && character == '\r') rest
    else if inComment then
      if isPlain character then skipFill true rest else character :: rest
    else if isSpace character then skipFill false rest
    else if character = '#' then skipFill true rest
    else character :: rest

/-- The items of an array after its bracket; a comma may stand after the
last. -/
def readItems (read : List Char → Option (Value × List Char)) :
    (fuel : Nat) → List Char → Option (List Value × List Char)
  | 0, _ => none
  | fuel + 1, characters =>
    match skipFill false characters with
    | ']' :: rest => some ([], rest)
    | characters => do
      let (item, rest) ← read characters
      match skipFill false rest with
      | ']' :: rest => return ([item], rest)
      | ',' :: rest =>
        let (items, rest) ← readItems read fuel rest
        return (item :: items, rest)
      | _ => none

/-- A key with its value. -/
def readPair (read : List Char → Option (Value × List Char)) (characters : List Char) :
    Option ((List String × String × Value) × List Char) := do
  let ((path, key), rest) ← readKey characters
  let (value, rest) ← read (skipSpaces (← dropMark '=' rest))
  return ((path, key, value), rest)

/-- The pairs of a table in braces, at least one.  They stand on one line, and
no comma follows the last. -/
def readPairs (read : List Char → Option (Value × List Char)) :
    (fuel : Nat) → List Char → Option (List (List String × String × Value) × List Char)
  | 0, _ => none
  | fuel + 1, characters => do
    let (pair, rest) ← readPair read characters
    match skipSpaces rest with
    | '\x7d' :: rest => return ([pair], rest)
    | ',' :: rest =>
      let (pairs, rest) ← readPairs read fuel rest
      return (pair :: pairs, rest)
    | _ => none

/-- The entries of a table after its brace. -/
def readInline (read : List Char → Option (Value × List Char)) (characters : List Char) :
    Option (Entries × List Char) :=
  match skipSpaces characters with
  | '\x7d' :: rest => some ([], rest)
  | characters => do
    let (pairs, rest) ← readPairs read characters.length characters
    return (← Entries.ofPairs pairs, rest)

/-- A value, opening at most `levels` nested ones. -/
def readValue : (levels : Nat) → List Char → Option (Value × List Char)
  | 0, characters => readScalar characters
  | levels + 1, '[' :: rest =>
    (readItems (readValue levels) (rest.length + 1) rest).map fun (items, rest) =>
      (.array items, rest)
  | levels + 1, '\x7b' :: rest =>
    (readInline (readValue levels) rest).map fun (entries, rest) => (.table .inline entries, rest)
  | _ + 1, characters => readScalar characters

/-- The characters after the end of a line, which may carry a comment.  The
end of the text ends a line too. -/
def endLine (characters : List Char) : Option (List Char) :=
  let rest :=
    match skipSpaces characters with
    | '#' :: rest => rest.dropWhile isPlain
    | rest => rest
  if rest.isEmpty then some [] else if atLineEnd rest then some (dropLineEnd rest) else none

/-- The path of a header after its brackets, and whether there were two. -/
def readHeader (characters : List Char) : Option ((List String × String) × Bool × List Char) :=
  match characters with
  | '[' :: rest => do
    let (path, rest) ← readKey rest
    return (path, true, ← endLine (← dropMark ']' (← dropMark ']' rest)))
  | _ => do
    let (path, rest) ← readKey characters
    return (path, false, ← endLine (← dropMark ']' rest))

/-- Read the lines of a document. -/
def readLines : (fuel : Nat) → List Char → Draft → Option Entries
  | 0, _, _ => none
  | fuel + 1, characters, draft =>
    match skipSpaces characters with
    | [] => some draft.root
    | '[' :: rest => do
      let ((path, key), repeated, rest) ← readHeader rest
      readLines fuel rest (← draft.turn path key repeated)
    | rest =>
      if rest.head? = some '#' || atLineEnd rest then do readLines fuel (← endLine rest) draft
      else do
        let ((path, key, value), rest) ← readPair (readValue maxDepth) rest
        readLines fuel (← endLine rest) (← draft.put path key value)

/-- The entries of a document.  A mark of byte order may come first. -/
def parse? (text : String) : Option Entries :=
  let characters :=
    match text.toList with
    | '\ufeff' :: rest => rest
    | characters => characters
  readLines (characters.length + 1) characters {}

end Toml
end TypedStore
