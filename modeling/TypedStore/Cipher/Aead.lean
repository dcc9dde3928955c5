import TypedStore.Bytes

/-!
# Authenticated encryption

An `Aead` seals a byte string under a key and a nonce, and opens what was
sealed.  `Aead.Sound` states what the rest of the library relies on: sealing
and opening with the same key and nonce gives the plain bytes back, and
nothing but what was sealed under that key and nonce opens.
-/

namespace TypedStore

/-- The number of bytes of a nonce. -/
def nonceLength : Nat := 12

/-- A nonce. -/
abbrev Nonce := { bytes : Bytes // bytes.length = nonceLength }

/-- A data key of 32 bytes. -/
abbrev DataKey := { bytes : Bytes // bytes.length = 32 }

/-- Sealing and opening under a key and a nonce. -/
structure Aead where
  lock : (key nonce plain : Bytes) → Bytes
  unlock : (key nonce sealed : Bytes) → Option Bytes

/-- The lengths of key that AES knows. -/
def Aead.isKeyLength (length : Nat) : Bool :=
  length == 16 || length == 24 || length == 32

/-- Exactly what was sealed under a key and a nonce opens under them. -/
def Aead.Sound (aead : Aead) : Prop :=
  ∀ key nonce sealed plain : Bytes,
    aead.unlock key nonce sealed = some plain ↔ sealed = aead.lock key nonce plain

/-- A toy that marks sealed bytes with key and nonce shows that the
requirement can be met. -/
def Aead.marking : Aead where
  lock key nonce plain := key ++ nonce ++ plain
  unlock key nonce sealed := Bytes.after? (key ++ nonce) sealed

theorem Aead.marking_sound : Aead.marking.Sound := by
  intro key nonce sealed plain
  constructor
  · intro opened
    exact Bytes.eq_append_of_after? opened
  · rintro rfl
    exact Bytes.after?_append _ _

end TypedStore
