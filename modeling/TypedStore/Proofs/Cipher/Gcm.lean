import TypedStore.Cipher.Gcm

/-!
# Counter mode opens what it sealed

The key stream does not depend on the bytes that it is added to, only on how many
there are.  Adding it does not change their number, so adding it twice gives the
bytes back, and exactly what was sealed under a key and a nonce opens under them:
`Gcm.aead_sound`.  Nothing is used of the block cipher but the size of a block, and
of the tag only that it is computed from the sealed bytes.
-/

namespace TypedStore

theorem Aes.Block.length_toBytes (block : Aes.Block) : block.toBytes.length = 16 := by
  rw [toBytes, List.length_append, List.length_append, List.length_append, Bytes.length_ofNat,
    Bytes.length_ofNat, Bytes.length_ofNat, Bytes.length_ofNat]

namespace Gcm

/-! ## The key stream -/

/-- Bytes to which others are added twice are as before. -/
theorem zipWith_xor_xor {bytes stream : Bytes} (enough : bytes.length ≤ stream.length) :
    List.zipWith (· ^^^ ·) (List.zipWith (· ^^^ ·) bytes stream) stream = bytes := by
  induction bytes generalizing stream with
  | nil => rfl
  | cons byte bytes hypothesis =>
    cases stream with
    | nil => exact absurd enough (Nat.not_succ_le_zero _)
    | cons mask stream =>
      rw [List.zipWith_cons_cons, List.zipWith_cons_cons, UInt8.xor_assoc, UInt8.xor_self,
        UInt8.xor_zero, hypothesis (Nat.le_of_succ_le_succ enough)]

section Stream

variable (keys : List Aes.Block) (nonce : Bytes)

/-- The bytes of one block, with the key stream added. -/
def addBlock (counter : Nat) (bytes : Bytes) : Bytes :=
  List.zipWith (· ^^^ ·) (bytes.take 16)
    (Aes.encrypt keys (counterBlock nonce counter)).toBytes

theorem addStream_succ (count counter : Nat) (bytes : Bytes) :
    addStream keys nonce (count + 1) counter bytes =
      addBlock keys nonce counter bytes ++ addStream keys nonce count (counter + 1)
        (bytes.drop 16) :=
  rfl

theorem length_addBlock (counter : Nat) (bytes : Bytes) :
    (addBlock keys nonce counter bytes).length = min 16 bytes.length := by
  rw [addBlock, List.length_zipWith, Aes.Block.length_toBytes, List.length_take]
  omega

theorem length_addStream {count : Nat} (counter : Nat) {bytes : Bytes}
    (fits : bytes.length ≤ 16 * count) :
    (addStream keys nonce count counter bytes).length = bytes.length := by
  induction count generalizing counter bytes with
  | zero => exact (Nat.le_zero.mp fits).symm
  | succ count hypothesis =>
    have rest : (bytes.drop 16).length ≤ 16 * count := by
      rw [List.length_drop]
      omega
    rw [addStream_succ, List.length_append, length_addBlock, hypothesis _ rest, List.length_drop]
    omega

/-- A block is followed by something only if it is whole, so what was made of the first
block can be told from what was made of the others. -/
theorem cut_addStream (count counter : Nat) (bytes : Bytes) :
    (addStream keys nonce (count + 1) counter bytes).take 16 = addBlock keys nonce counter bytes ∧
      (addStream keys nonce (count + 1) counter bytes).drop 16 =
        addStream keys nonce count (counter + 1) (bytes.drop 16) := by
  have first := length_addBlock keys nonce counter bytes
  rw [addStream_succ]
  rcases Nat.lt_or_ge bytes.length 16 with short | long
  · have rest : (bytes.drop 16).length = 0 := by
      rw [List.length_drop]
      omega
    have nothing : addStream keys nonce count (counter + 1) (bytes.drop 16) = [] := by
      apply List.length_eq_zero_iff.mp
      rw [length_addStream keys nonce (counter + 1) (by omega), rest]
    rw [nothing, List.append_nil]
    exact ⟨List.take_of_length_le (by omega), List.drop_of_length_le (by omega)⟩
  · rw [Nat.min_eq_left long] at first
    exact ⟨List.take_left' first, List.drop_left' first⟩

theorem addBlock_of_take (counter : Nat) {bytes made : Bytes}
    (same : made.take 16 = addBlock keys nonce counter bytes) :
    addBlock keys nonce counter made = bytes.take 16 := by
  have enough : (bytes.take 16).length ≤
      (Aes.encrypt keys (counterBlock nonce counter)).toBytes.length := by
    rw [Aes.Block.length_toBytes]
    exact List.length_take_le 16 bytes
  rw [addBlock, same]
  exact zipWith_xor_xor enough

/-- Adding the key stream twice gives the bytes back. -/
theorem addStream_addStream {count : Nat} (counter : Nat) {bytes : Bytes}
    (fits : bytes.length ≤ 16 * count) :
    addStream keys nonce count counter (addStream keys nonce count counter bytes) = bytes := by
  induction count generalizing counter bytes with
  | zero => exact (List.length_eq_zero_iff.mp (Nat.le_zero.mp fits)).symm
  | succ count hypothesis =>
    have rest : (bytes.drop 16).length ≤ 16 * count := by
      rw [List.length_drop]
      omega
    rcases cut_addStream keys nonce count counter bytes with ⟨first, others⟩
    rw [addStream_succ, addBlock_of_take keys nonce counter first, others, hypothesis _ rest,
      List.take_append_drop]

theorem length_le_blockCount (length : Nat) : length ≤ 16 * blockCount length := by
  rw [blockCount]
  omega

theorem length_crypt (bytes : Bytes) : (crypt keys nonce bytes).length = bytes.length :=
  length_addStream keys nonce 2 (length_le_blockCount bytes.length)

theorem crypt_crypt (bytes : Bytes) : crypt keys nonce (crypt keys nonce bytes) = bytes := by
  have length := length_crypt keys nonce bytes
  rw [crypt, length, crypt]
  exact addStream_addStream keys nonce 2 (length_le_blockCount bytes.length)

theorem length_tag (sealed : Bytes) : (tag keys nonce sealed).length = tagLength :=
  Bytes.length_ofNat _ _

end Stream

/-! ## Sealed bytes -/

/-- What opens is some bytes and their tag, and the plain bytes are found in them. -/
theorem unlock_eq_some_iff {key nonce bytes plain : Bytes} :
    unlock key nonce bytes = some plain ↔
      ∃ body, bytes = body ++ tag (Aes.roundKeys key) nonce body ∧
        plain = crypt (Aes.roundKeys key) nonce body := by
  constructor
  · intro opened
    rw [unlock] at opened
    split at opened
    · cases opened
    · rw [List.splitAt_eq] at opened
      dsimp only at opened
      split at opened
      · next same =>
        cases opened
        refine ⟨_, ?_, rfl⟩
        rw [← same, List.take_append_drop]
      · cases opened
  · rintro ⟨body, rfl, rfl⟩
    have length := length_tag (Aes.roundKeys key) nonce body
    have cut : (body ++ tag (Aes.roundKeys key) nonce body).length - tagLength = body.length := by
      rw [List.length_append, length, Nat.add_sub_cancel]
    have long : ¬(body ++ tag (Aes.roundKeys key) nonce body).length < tagLength := by
      rw [List.length_append, length]
      omega
    rw [unlock, if_neg long, cut, List.splitAt_eq, List.take_left, List.drop_left]
    exact if_pos rfl

/-- This mode meets what the library relies on. -/
theorem aead_sound : aead.Sound := by
  intro key nonce bytes plain
  change unlock key nonce bytes = some plain ↔ bytes = lock key nonce plain
  rw [unlock_eq_some_iff]
  constructor
  · rintro ⟨body, rfl, rfl⟩
    rw [lock, crypt_crypt]
  · rintro rfl
    exact ⟨_, rfl, (crypt_crypt _ nonce plain).symm⟩

end Gcm
end TypedStore
