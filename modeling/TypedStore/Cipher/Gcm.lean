import TypedStore.Cipher.Aead
import TypedStore.Cipher.Aes

/-!
# Galois counter mode

Authenticated encryption from AES: the bytes are added to the encryption of a
running counter, and a tag of sixteen bytes, computed in the field of 128-bit
words, follows them.  No associated data are used.  The length of the key
chooses between the three sizes of AES.
-/

namespace TypedStore
namespace Gcm

/-- The number of bytes of a tag. -/
def tagLength : Nat := 16

/-- The reduction word of the field. -/
def reduction : Nat := 0xe1 <<< 120

/-- One step of the product: the summand moves to the next place. -/
def advance (summand : Nat) : Nat :=
  if summand % 2 = 1 then (summand / 2) ^^^ reduction else summand / 2

/-- The product of two field elements; the leading bit is the lowest place. -/
def multiply (factor : Nat) : (places : Nat) → (summand product : Nat) → Nat
  | 0, _, product => product
  | places + 1, summand, product =>
    let product := if factor.testBit places then product ^^^ summand else product
    multiply factor places (advance summand) product

/-- Cut bytes into blocks of sixteen, the last one filled up with zeros. -/
def blockNumbers : (count : Nat) → Bytes → List Nat
  | 0, _ => []
  | count + 1, bytes =>
    let block := bytes.take 16
    Bytes.toNat (block ++ List.replicate (16 - block.length) 0)
      :: blockNumbers count (bytes.drop 16)

/-- The number of blocks that hold this many bytes. -/
def blockCount (length : Nat) : Nat :=
  (length + 15) / 16

/-- The authentication word of sealed bytes under a hash key. -/
def hash (hashKey : Nat) (bytes : Bytes) : Nat :=
  let blocks := blockNumbers (blockCount bytes.length) bytes ++ [8 * bytes.length]
  blocks.foldl (fun word block => multiply (word ^^^ block) 128 hashKey 0) 0

/-- The counter block of a nonce. -/
def counterBlock (nonce : Bytes) (counter : Nat) : Aes.Block :=
  .ofBytes (nonce ++ Bytes.ofNat 4 counter)

/-- Add the key stream, from the given counter on. -/
def addStream (keys : List Aes.Block) (nonce : Bytes) :
    (count counter : Nat) → Bytes → Bytes
  | 0, _, _ => []
  | count + 1, counter, bytes =>
    let stream := (Aes.encrypt keys (counterBlock nonce counter)).toBytes
    List.zipWith (· ^^^ ·) (bytes.take 16) stream
      ++ addStream keys nonce count (counter + 1) (bytes.drop 16)

/-- The bytes with the key stream added.  Counter one is kept for the tag. -/
def crypt (keys : List Aes.Block) (nonce bytes : Bytes) : Bytes :=
  addStream keys nonce (blockCount bytes.length) 2 bytes

/-- The tag of sealed bytes. -/
def tag (keys : List Aes.Block) (nonce sealed : Bytes) : Bytes :=
  let hashKey := Bytes.toNat (Aes.encrypt keys ⟨0, 0, 0, 0⟩).toBytes
  let mask := Bytes.toNat (Aes.encrypt keys (counterBlock nonce 1)).toBytes
  Bytes.ofNat tagLength (hash hashKey sealed ^^^ mask)

/-- Seal bytes: their encryption, then the tag. -/
def lock (key nonce plain : Bytes) : Bytes :=
  let keys := Aes.roundKeys key
  let sealed := crypt keys nonce plain
  sealed ++ tag keys nonce sealed

/-- Open sealed bytes whose tag is right. -/
def unlock (key nonce bytes : Bytes) : Option Bytes :=
  if bytes.length < tagLength then none
  else
    let keys := Aes.roundKeys key
    let (sealed, given) := bytes.splitAt (bytes.length - tagLength)
    if given = tag keys nonce sealed then some (crypt keys nonce sealed) else none

/-- Authenticated encryption by this mode. -/
def aead : Aead where
  lock := lock
  unlock := unlock

end Gcm
end TypedStore
