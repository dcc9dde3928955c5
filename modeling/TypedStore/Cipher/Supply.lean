import TypedStore.Cipher.Aead
import TypedStore.Cipher.Aes
import TypedStore.Source

/-!
# Supplies from a seed

Supplies of nonces and data keys that hold pseudo-random bytes: the numbers
from zero on, encrypted under a secret seed.  Two supplies of one seed are not
independent, so each supply wants a seed of its own.
-/

namespace TypedStore
namespace Supply

/-- The pseudo-random number of 128 bits at a place. -/
def number (keys : List Aes.Block) (place : Nat) : Nat :=
  Bytes.toNat (Aes.encrypt keys (Aes.Block.ofBytes (Bytes.ofNat 16 place))).toBytes

/-- A supply of nonces. -/
def nonces (seed : Bytes) : Source Nonce :=
  let keys := Aes.roundKeys seed
  ⟨fun place => ⟨Bytes.ofNat nonceLength (number keys place), Bytes.length_ofNat _ _⟩, 0⟩

/-- A supply of data keys. -/
def dataKeys (seed : Bytes) : Source DataKey :=
  let keys := Aes.roundKeys seed
  let wide (place : Nat) : Nat :=
    number keys (2 * place) * Nat.pow 2 128 + number keys (2 * place + 1)
  ⟨fun place => ⟨Bytes.ofNat 32 (wide place), Bytes.length_ofNat _ _⟩, 0⟩

end Supply
end TypedStore
