import Clarc.Hash.Sha1

/-!
# Keyed hashes: `hmac-sha1.c` and `memxor.c`

A request is signed with the SHA-1 of its text under the secret key.

* `hmacSha1_eq` — **the result is the keyed hash**, for a key of any length.
-/

namespace Clarc

open BlockHash Sha1

/-! ## The program -/

/-- `memxor`. -/
def memxor : (dest src : Bytes) → (n : ℕ) → Bytes
  | d :: dest, s :: src, n + 1 => (d ^^^ s) :: memxor dest src n
  | dest, _, _ => dest

/-- What a run of `hmac_sha1` finds: where its arguments and the inner hash lie, and what lies in a
new context. -/
structure Memory where
  key : ℕ
  text : ℕ
  innerhash : ℕ
  buffer : Buffer UInt8 128

/-- `hmac_sha1`. -/
def hmacSha1 (memory : Memory) (key text : Bytes) : Bytes :=
  let (key, keylen) :=
    if 64 < key.length then
      let keyhash := sha1ProcessBytes memory.key key (sha1InitCtx memory.buffer)
      (sha1FinishCtx keyhash, 20)
    else (key, key.length)
  let inner := sha1InitCtx memory.buffer
  let block := memxor (List.replicate 64 0x36) key keylen
  let inner := sha1ProcessBytes memory.text text (sha1ProcessBlock block inner)
  let innerhash := sha1FinishCtx inner
  let outer := sha1InitCtx memory.buffer
  let block := memxor (List.replicate 64 0x5c) key keylen
  let outer := sha1ProcessBytes memory.innerhash (innerhash.take 20) (sha1ProcessBlock block outer)
  sha1FinishCtx outer

/-! ## The result -/

lemma length_sha1 (msg : Bytes) : (sha1 msg).length = 20 := by
  have hdigest : ∀ v, (sha1Hash.digest v).length = 20 := by
    intro v
    simp only [sha1Hash, List.length_flatMap, length_bigEndian]
    rfl
  exact hdigest _

/-- A key over a filled block. -/
lemma memxor_replicate (pad : UInt8) {key : Bytes} {room : ℕ} (h : key.length ≤ room) :
    memxor (List.replicate room pad) key key.length =
      (key ++ List.replicate (room - key.length) 0).map (pad ^^^ ·) := by
  induction key generalizing room with
  | nil =>
      rw [List.length_nil, Nat.sub_zero, List.nil_append, List.map_replicate, UInt8.xor_zero]
      cases room <;> rfl
  | cons k key ih =>
      obtain ⟨room, rfl⟩ : ∃ r, room = r + 1 := ⟨room - 1, by rw [List.length_cons] at h; omega⟩
      rw [List.length_cons] at h
      rw [List.length_cons, List.replicate_succ, memxor, ih (by omega), Nat.add_sub_add_right,
        List.cons_append, List.map_cons]

/-- A block and a text after it, from a new context. -/
lemma sha1_of_block {block : Bytes} (hblock : block.length = 64) (address : ℕ) (text : Bytes)
    (buffer : Buffer UInt8 128) :
    sha1FinishCtx (sha1ProcessBytes address text (sha1ProcessBlock block (sha1InitCtx buffer))) =
      sha1 (block ++ text) := by
  have hgrown : Taken block (sha1InitCtx buffer) (block ++ []) := by
    rw [List.append_nil]
    exact Taken.append (holds_sha1InitCtx buffer) block
  have htaken := taken_sha1ProcessBlock hgrown (Dvd.intro 1 hblock.symm)
  exact sha1FinishCtx_of_holds (holds_sha1ProcessBytes address htaken)

/-- The keyed hash with the key already short. -/
lemma hmac_of_short (memory : Memory) {key : Bytes} (h : key.length ≤ 64) (text : Bytes) :
    let padded := key ++ List.replicate (64 - key.length) 0
    let innerhash := sha1FinishCtx (sha1ProcessBytes memory.text text (sha1ProcessBlock
      (memxor (List.replicate 64 0x36) key key.length) (sha1InitCtx memory.buffer)))
    sha1FinishCtx (sha1ProcessBytes memory.innerhash (innerhash.take 20) (sha1ProcessBlock
        (memxor (List.replicate 64 0x5c) key key.length) (sha1InitCtx memory.buffer))) =
      sha1 (padded.map (0x5c ^^^ ·) ++ sha1 (padded.map (0x36 ^^^ ·) ++ text)) := by
  intro padded innerhash
  have hpadded : padded.length = 64 := by
    rw [List.length_append, List.length_replicate]
    omega
  have hinner : innerhash = sha1 (padded.map (0x36 ^^^ ·) ++ text) := by
    simp only [innerhash]
    rw [memxor_replicate _ h]
    exact sha1_of_block (by rwa [List.length_map]) _ _ _
  rw [hinner, List.take_of_length_le (length_sha1 _).le, memxor_replicate _ h]
  exact sha1_of_block (by rwa [List.length_map]) _ _ _

/-- **The result is the keyed hash**: a key that is longer than a block is hashed first, and a
shorter one is filled up. -/
theorem hmacSha1_eq (memory : Memory) (key text : Bytes) :
    hmacSha1 memory key text = sha1Hash.hmac key text := by
  have hkeyhash : sha1FinishCtx (sha1ProcessBytes memory.key key (sha1InitCtx memory.buffer)) =
      sha1 key := sha1FinishCtx_of_holds (holds_sha1ProcessBytes _ (holds_sha1InitCtx _))
  unfold hmacSha1 hmac blockKey
  by_cases hlong : 64 < key.length
  · rw [if_pos hlong, if_pos hlong]
    dsimp only
    rw [hkeyhash]
    have hlength : (sha1 key).length ≤ 64 := by
      rw [length_sha1]
      decide
    have hshort := hmac_of_short memory hlength text
    rw [length_sha1] at hshort
    exact hshort
  · rw [if_neg hlong, if_neg hlong]
    exact hmac_of_short memory (Nat.le_of_not_lt hlong) text

end Clarc
