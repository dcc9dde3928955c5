import TypedStore.Error
import TypedStore.Url.Ipv6
import TypedStore.Url.Percent

/-!
# URLs of servers

A URL of a scheme without rules of its own: an authority with an optional
user name, password and port, a path, a query and a fragment.  Parts are kept
as they are written, percent-encoded.  The host is opaque: it is neither
lowercased nor looked up, but some characters are refused in it, and an
address in brackets must be an IPv6 address, which is written in its short
form.
-/

namespace TypedStore

/-- A URL with an authority. -/
structure Url where
  scheme : String
  /-- Percent-encoded; empty when there is none. -/
  username : String
  /-- Percent-encoded; empty when there is none. -/
  password : String
  /-- As written; empty when there is none. -/
  host : String
  port : Option Nat
  path : String
  query : Option String
  fragment : Option String
  deriving DecidableEq, Repr

namespace Url

/-- The text of a URL. -/
def text (url : Url) : String :=
  let password := if url.password.isEmpty then "" else ":" ++ url.password
  let userinfo := url.username ++ password
  url.scheme ++ "://" ++ (if userinfo.isEmpty then "" else userinfo ++ "@") ++ url.host
    ++ (match url.port with
      | some port => ":" ++ toString port
      | none => "")
    ++ url.path
    ++ (match url.query with
      | some query => "?" ++ query
      | none => "")
    ++ (match url.fragment with
      | some fragment => "#" ++ fragment
      | none => "")

/-- Whether a host is known, so that credentials make sense. -/
def hasHost (url : Url) : Bool :=
  !url.host.isEmpty

/-- Set the user name; impossible without a host. -/
def setUsername? (url : Url) (name : String) : Option Url :=
  if url.hasHost then some { url with username := Percent.encode Percent.inUserinfo name }
  else none

/-- Set the password; impossible without a host. -/
def setPassword? (url : Url) (password : String) : Option Url :=
  if url.hasHost then some { url with password := Percent.encode Percent.inUserinfo password }
  else none

/-- Characters that end the authority. -/
def endsAuthority (character : Char) : Bool :=
  character == '/' || character == '?' || character == '#'

/-- What stands before and after the last `@`, if there is one. -/
def cutAtLastAt (text : List Char) : Option (List Char × List Char) :=
  if text.contains '@' then
    let after := (text.reverse.takeWhile (· != '@')).reverse
    some (text.take (text.length - after.length - 1), after)
  else none

/-- The end of the host in an authority: the first colon outside brackets. -/
def cutHost : (bracketed : Bool) → List Char → List Char × List Char
  | _, [] => ([], [])
  | bracketed, character :: rest =>
    if character == ':' && !bracketed then ([], character :: rest)
    else
      let bracketed :=
        if character == '[' then true else if character == ']' then false else bracketed
      let (host, after) := cutHost bracketed rest
      (character :: host, after)

/-- Characters that a host may not hold. -/
def isForbiddenInHost (character : Char) : Bool :=
  "\x00\t\n\r #/:<>?@[\\]^|".toList.contains character

/-- The text of a host. -/
def readHost (host : List Char) : Except AddressFault String :=
  if host.head? == some '[' then
    if host.getLast? == some ']' then
      match Ipv6.parse? (host.drop 1).dropLast with
      | some pieces => .ok ("[" ++ Ipv6.text pieces ++ "]")
      | none => .error .invalidIpv6
    else .error .invalidIpv6
  else if host.any isForbiddenInHost then .error .invalidCharacter
  else .ok (Percent.encode Percent.isControl (String.ofList host))

/-- The port after the colon, if it is given, and what follows it.  A
backslash ends the digits. -/
def readPort (text : List Char) : Except AddressFault (Option Nat × List Char) :=
  let digits := text.takeWhile Char.isDigit
  let rest := text.dropWhile Char.isDigit
  let value := (Number.digitsValue? digits).getD 0
  if 65535 < value then .error .invalidPort
  else
    match rest with
    | [] => .ok (if digits.isEmpty then none else some value, [])
    | character :: _ =>
      if character == '\\' then .ok (if digits.isEmpty then none else some value, rest)
      else .error .invalidPort

/-- The host, the port, and what is left before the path. -/
def readHostAndPort (text : List Char) :
    Except AddressFault (String × Option Nat × List Char) := do
  let (host, rest) := cutHost false text
  let host ← readHost host
  match rest with
  | ':' :: rest =>
    if host.isEmpty then throw .emptyHost
    let (port, rest) ← readPort rest
    return (host, port, rest)
  | _ => return (host, none, [])

/-- The user name and the password before the `@`, encoded. -/
def readUserinfo (text : List Char) : String × String :=
  let name := text.takeWhile (· != ':')
  let password := (text.dropWhile (· != ':')).drop 1
  (Percent.encode Percent.inUserinfo (String.ofList name),
    Percent.encode Percent.inUserinfo (String.ofList password))

/-- A segment that stands for the same place. -/
def isSingleDot (segment : String) : Bool :=
  [".", "%2e", "%2E"].contains segment

/-- A segment that stands for the place above. -/
def isDoubleDot (segment : String) : Bool :=
  ["..", ".%2e", ".%2E", "%2e.", "%2E.", "%2e%2e", "%2e%2E", "%2E%2e", "%2E%2E"].contains segment

/-- Resolve the segments of a path; `done` holds those already passed, the
nearest first. -/
def resolve : (done segments : List String) → List String
  | done, [] => done.reverse
  | done, segment :: rest =>
    let last := rest.isEmpty
    if isDoubleDot segment then
      resolve (if last then "" :: done.drop 1 else done.drop 1) rest
    else if isSingleDot segment then resolve (if last then "" :: done else done) rest
    else resolve (segment :: done) rest

/-- The path after the authority, encoded and resolved. -/
def readPath (text : List Char) : String :=
  match text with
  | [] => ""
  | _ =>
    let body := if text.head? == some '/' then text.drop 1 else text
    let segments := (body.splitOn '/').map fun segment =>
      Percent.encode Percent.inPath (String.ofList segment)
    "/" ++ "/".intercalate (resolve [] segments)

/-- What stands before and after the first such character, if there is one. -/
def cutAt (mark : Char) (text : List Char) : List Char × Option (List Char) :=
  match text.dropWhile (· != mark) with
  | [] => (text, none)
  | _ :: after => (text.takeWhile (· != mark), some after)

/-- Read what follows the two slashes after a scheme.  Tabs and line ends are
ignored wherever they stand. -/
def parse (scheme text : String) : Except AddressFault Url := do
  let characters := text.toList.filter fun character =>
    character != '\t' && character != '\n' && character != '\r'
  let authority := characters.takeWhile fun character => !endsAuthority character
  let rest := characters.drop authority.length
  let (userinfo, address) ←
    match cutAtLastAt authority with
    | none => pure ([], authority)
    | some (userinfo, address) =>
      if userinfo.isEmpty && address.isEmpty && !rest.isEmpty then throw .emptyHost
      else pure (userinfo, address)
  let (username, password) := readUserinfo userinfo
  let (host, port, between) ← readHostAndPort address
  if host.isEmpty && !(username.isEmpty && password.isEmpty) then throw .emptyHost
  let (rest, fragment) := cutAt '#' (between ++ rest)
  let (path, query) := cutAt '?' rest
  return {
    scheme, username, password, host, port
    path := readPath path
    query := query.map fun query => Percent.encode Percent.inQuery (String.ofList query)
    fragment := fragment.map fun fragment =>
      Percent.encode Percent.inFragment (String.ofList fragment) }

end Url

end TypedStore
