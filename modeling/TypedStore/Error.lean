import TypedStore.Duration
import TypedStore.Text.Quoted

/-!
# Errors

Each error is its cause; the wording of all of them stands in this module.
A `CodecError` says why bytes could not be made or read, a `StoreError` why
an engine could not be opened, run or closed.  Causes that come from outside
the library carry their own wording.
-/

namespace TypedStore

/-- Why keys or values could not be turned into bytes or back. -/
inductive CodecError where
  | serialization (detail : String)
  | deserialization (detail : String)
  /-- A key was read, but this many bytes follow it. -/
  | trailingBytes (count : Nat)
  | emptyPayload
  deriving DecidableEq, Repr

/-- Why an address does not make a URL. -/
inductive AddressFault where
  | invalidPort
  | emptyHost
  | invalidIpv6
  | invalidCharacter
  deriving DecidableEq, Repr

/-- Why a configuration is refused. -/
inductive ConfigFault where
  | unknownBackend (name : String)
  | invalidSetting (name value : String)
  | usernameVariableAlone
  | invalidTable (name : String)
  | invalidJournalMode (mode : String)
  | invalidSynchronous (mode : String)
  | invalidPragma (name value : String)
  | invalidAddress (address : String) (fault : AddressFault)
  | usernameWithoutPassword
  | usernameNotPossible
  | passwordNotPossible
  | other (detail : String)
  deriving DecidableEq, Repr

/-- What took too long. -/
inductive TimeoutFault where
  | connecting (address : String)
  | command (name : String) (limit : Duration)
  | other (detail : String)
  deriving DecidableEq

/-- Why sealed data or the keyring could not be opened. -/
inductive CipherFault where
  | keyIdMissing
  | keyUnknown (id : Nat)
  | keyIdMalformed
  | recordCorrupt (id : Nat)
  | dataKeyCorrupt (id : Nat)
  | nonceMissing
  | notAuthentic
  | activeKeyMissing (id : Nat)
  | other (detail : String)
  deriving DecidableEq, Repr

/-- Why an engine could not be opened, run or closed. -/
inductive StoreError where
  | closed
  | invalidEncryptionKey (length : Nat)
  | config (fault : ConfigFault)
  | backend (detail : String)
  | timeout (fault : TimeoutFault)
  | cipher (fault : CipherFault)
  | codec (error : CodecError)
  | io (detail : String)
  deriving DecidableEq

namespace CodecError

/-- The detail of an error about unreadable or unwritable data. -/
def detail : CodecError → String
  | .serialization detail => detail
  | .deserialization detail => detail
  | .trailingBytes count => toString count ++ " trailing bytes after key"
  | .emptyPayload => ""

/-- The text shown for an error. -/
def message : CodecError → String
  | .serialization detail => "Serialization error: " ++ detail
  | .deserialization detail => "Deserialization error: " ++ detail
  | .trailingBytes count => "Deserialization error: " ++ detail (.trailingBytes count)
  | .emptyPayload => "Empty payload"

/-- The name of the error and its quoted detail. -/
def description : CodecError → String
  | .serialization detail => "SerializationError(" ++ Text.quoted detail ++ ")"
  | .emptyPayload => "EmptyPayload"
  | error => "DeserializationError(" ++ Text.quoted error.detail ++ ")"

end CodecError

/-- The wording of an address fault. -/
def AddressFault.text : AddressFault → String
  | .invalidPort => "invalid port number"
  | .emptyHost => "empty host"
  | .invalidIpv6 => "invalid IPv6 address"
  | .invalidCharacter => "invalid domain character"

/-- The wording of a configuration fault. -/
def ConfigFault.text : ConfigFault → String
  | .unknownBackend name =>
    "Unknown or disabled backend type: " ++ name ++
      ". Valid options: in-memory, fast-hash, lsm, redis, sqlite"
  | .invalidSetting name value => "Invalid value for " ++ name ++ ": " ++ value
  | .usernameVariableAlone => "TIDEMAP_REDIS_USERNAME requires TIDEMAP_REDIS_PASSWORD"
  | .invalidTable name => "Invalid table name: " ++ name
  | .invalidJournalMode mode => "Invalid journal mode: " ++ mode
  | .invalidSynchronous mode => "Invalid synchronous mode: " ++ mode
  | .invalidPragma name value => "Invalid pragma: " ++ name ++ " = " ++ value
  | .invalidAddress address fault => "Invalid Redis address " ++ address ++ ": " ++ fault.text
  | .usernameWithoutPassword => "Redis username requires a password"
  | .usernameNotPossible => "Cannot set Redis username"
  | .passwordNotPossible => "Cannot set Redis password"
  | .other detail => detail

/-- The wording of a timeout. -/
def TimeoutFault.text : TimeoutFault → String
  | .connecting address => "connecting to Redis at " ++ address
  | .command name limit => "Redis " ++ name ++ " exceeded " ++ limit.text
  | .other detail => detail

/-- The wording of a cipher fault. -/
def CipherFault.text : CipherFault → String
  | .keyIdMissing => "Encrypted value too short (missing key id)"
  | .keyUnknown id => "Unknown data key " ++ toString id
  | .keyIdMalformed => "Malformed data key id"
  | .recordCorrupt id => "Corrupt keyring record " ++ toString id
  | .dataKeyCorrupt id => "Corrupt data key " ++ toString id
  | .nonceMissing => "Encrypted data too short (missing nonce)"
  | .notAuthentic => "AES decryption failed (wrong key or tampered data): aead::Error"
  | .activeKeyMissing id => "Active data key " ++ toString id ++ " missing"
  | .other detail => detail

namespace StoreError

/-- The text shown for an error. -/
def message : StoreError → String
  | .closed => "Storage is closed"
  | .invalidEncryptionKey length =>
    "Invalid encryption key: expected 16, 24 or 32 bytes, got " ++ toString length
  | .config fault => "Configuration error: " ++ fault.text
  | .backend detail => "Backend error: " ++ detail
  | .timeout fault => "Operation timed out: " ++ fault.text
  | .cipher fault => "Cipher error: " ++ fault.text
  | .codec error => error.message
  | .io detail => "IO error: " ++ detail

/-- The name of the error and its quoted detail. -/
def description : StoreError → String
  | .closed => "Closed"
  | .invalidEncryptionKey length => "InvalidEncryptionKey(" ++ toString length ++ ")"
  | .config fault => "ConfigError(" ++ Text.quoted fault.text ++ ")"
  | .backend detail => "BackendError(" ++ Text.quoted detail ++ ")"
  | .timeout fault => "Timeout(" ++ Text.quoted fault.text ++ ")"
  | .cipher fault => "CipherError(" ++ Text.quoted fault.text ++ ")"
  | .codec error => "Codec(" ++ error.description ++ ")"
  | .io detail => "IOError(Custom \x7b kind: Other, error: " ++ Text.quoted detail ++ " \x7d)"

end StoreError

end TypedStore
