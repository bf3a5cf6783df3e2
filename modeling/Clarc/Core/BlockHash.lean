import Mathlib

/-!
# Hash functions that work through a message in blocks

A hash function of this kind pads its message to a multiple of 64 bytes, with the length of the
message at the end, and takes in one block after another.  A program that gets the message in
pieces keeps what does not fill a block; a program that is written out line by line rotates the
names of its registers instead of moving them.

* `absorb_append` — **whole blocks can be taken in at any time**;
* `Pending` — what a program that gets a message in pieces has taken in and what it holds back; the
  message may grow (`Pending.append`), and whole blocks may go (`Pending.absorb`);
* `BlockHash.hash` — the hash of a message, and `Pending.hash`: a program that has taken in the
  padded message has the hash; `BlockHash.hmac` — the hash under a key;
* `Rotated` — registers whose roles move by one place with each turn, and `Window`, a sequence of
  which only the last terms are kept.
-/

namespace BlockHash

/-! ## Arrays of a fixed size -/

section Buffers

variable {α : Type*} {n : ℕ}

/-- An array of `n` elements. -/
abbrev Buffer (α : Type*) (n : ℕ) := { elements : List α // elements.length = n }

/-- `memcpy` into an array; the bound is an obligation of its caller. -/
def Buffer.memcpy (b : Buffer α n) (place : ℕ) (source : List α)
    (h : place + source.length ≤ n) : Buffer α n :=
  ⟨b.1.take place ++ source ++ b.1.drop (place + source.length), by
    have hb := b.2
    simp only [List.length_append, List.length_take, List.length_drop]
    omega⟩

/-- The front of an array, up to the end of what was written. -/
lemma Buffer.take_memcpy {place stop : ℕ} {source : List α} (b : Buffer α n)
    (h : place + source.length ≤ n) (hstop : place + source.length = stop) :
    (b.memcpy place source h).1.take stop = b.1.take place ++ source := by
  have hlength : (b.1.take place ++ source).length = stop := by
    have hb := b.2
    rw [List.length_append, List.length_take]
    omega
  rw [← hlength]
  exact List.take_left

/-- What stands behind what was written stays. -/
lemma Buffer.take_memcpy_of_le {place stop : ℕ} {source : List α} (b : Buffer α n)
    (h : place + source.length ≤ n) (hstop : place + source.length ≤ stop) :
    (b.memcpy place source h).1.take stop =
      b.1.take place ++ source ++ (b.1.take stop).drop (place + source.length) := by
  have hlength : (b.1.take place ++ source).length = place + source.length := by
    have hb := b.2
    rw [List.length_append, List.length_take]
    omega
  rw [memcpy, List.take_append, List.take_of_length_le (by rw [hlength]; exact hstop), hlength,
    List.drop_take]

end Buffers

/-! ## Bytes of numbers -/

section Words

/-- The lowest bytes of a number, the lowest first. -/
def littleEndian (k n : ℕ) : List UInt8 := (List.range k).map fun i => UInt8.ofNat (n >>> (8 * i))

/-- The lowest bytes of a number, the lowest last. -/
def bigEndian (k n : ℕ) : List UInt8 := (littleEndian k n).reverse

@[simp] lemma length_littleEndian (k n : ℕ) : (littleEndian k n).length = k := by
  rw [littleEndian, List.length_map, List.length_range]

@[simp] lemma length_bigEndian (k n : ℕ) : (bigEndian k n).length = k := by
  rw [bigEndian, List.length_reverse, length_littleEndian]

/-- A number is written part by part. -/
lemma littleEndian_add (j k n : ℕ) :
    littleEndian (j + k) n = littleEndian j n ++ littleEndian k (n >>> (8 * j)) := by
  rw [littleEndian, List.range_add, List.map_append, List.map_map]
  congr 1
  refine List.map_congr_left fun i _ => ?_
  rw [Function.comp_apply, ← Nat.shiftRight_add, Nat.mul_add]

lemma bigEndian_add (j k n : ℕ) :
    bigEndian (j + k) n = bigEndian k (n >>> (8 * j)) ++ bigEndian j n := by
  rw [bigEndian, littleEndian_add, List.reverse_append, bigEndian, bigEndian]

/-- Only the lowest bytes count. -/
lemma littleEndian_mod (k n : ℕ) : littleEndian k (n % 2 ^ (8 * k)) = littleEndian k n := by
  refine List.map_congr_left fun i hi => ?_
  rw [List.mem_range] at hi
  apply UInt8.toNat.inj
  rw [UInt8.toNat_ofNat', UInt8.toNat_ofNat', Nat.shiftRight_eq_div_pow, Nat.shiftRight_eq_div_pow]
  obtain ⟨j, rfl⟩ : ∃ j, k = i + 1 + j := ⟨k - (i + 1), by omega⟩
  have hpow : 2 ^ (8 * (i + 1 + j)) = 2 ^ (8 * i) * (2 ^ 8 * 2 ^ (8 * j)) := by ring
  rw [hpow, Nat.mod_mul_right_div_self, Nat.mod_mod_of_dvd _ (Dvd.intro _ rfl)]

lemma bigEndian_mod (k n : ℕ) : bigEndian k (n % 2 ^ (8 * k)) = bigEndian k n := by
  rw [bigEndian, littleEndian_mod, bigEndian]

/-- Words that are written byte by byte, the lowest first. -/
lemma bytes_of_words (word : ℕ → UInt32) (count : ℕ) :
    ((List.range (4 * count)).map fun i =>
      (word (i >>> 2) >>> UInt32.ofNat ((i &&& 3) <<< 3)).toUInt8) =
      (List.range count).flatMap fun j => littleEndian 4 (word j).toNat := by
  induction count with
  | zero => rfl
  | succ count ih =>
      rw [List.range_succ (n := count), List.flatMap_append, List.flatMap_singleton, ← ih,
        Nat.mul_succ, List.range_add, List.map_append, littleEndian, List.map_map]
      congr 1
      refine List.map_congr_left fun i hi => ?_
      have hi4 : i < 4 := List.mem_range.mp hi
      have hword : (4 * count + i) >>> 2 = count := by
        rw [Nat.shiftRight_eq_div_pow]
        omega
      have hbyte : (4 * count + i) &&& 3 = i := by
        have hmask : (3 : ℕ) = 2 ^ 2 - 1 := rfl
        rw [hmask, Nat.and_two_pow_sub_one_eq_mod]
        omega
      rw [Function.comp_apply, hword, hbyte, Nat.shiftLeft_eq]
      apply UInt8.toNat.inj
      rw [UInt32.toNat_toUInt8, UInt32.toNat_shiftRight, UInt8.toNat_ofNat', UInt32.toNat_ofNat']
      have hshift : i * 2 ^ 3 % 2 ^ 32 % 32 = 8 * i := by omega
      rw [hshift]

/-- A count in two words, with the carry that shows in the lower one. -/
lemma add_carry (hi lo k : UInt32) :
    (hi + if lo + k < k then 1 else 0).toNat * 2 ^ 32 + (lo + k).toNat =
      (hi.toNat * 2 ^ 32 + lo.toNat + k.toNat) % 2 ^ 64 := by
  have hhi := hi.toNat_lt
  have hlo := lo.toNat_lt
  have hk := k.toNat_lt
  have hone : (hi + 1).toNat = (hi.toNat + 1) % 2 ^ 32 := UInt32.toNat_add _ _
  by_cases hcarry : lo + k < k
  · rw [if_pos hcarry, hone]
    rw [UInt32.lt_iff_toNat_lt] at hcarry
    rw [UInt32.toNat_add] at hcarry ⊢
    have hwrapped : (lo.toNat + k.toNat) % 2 ^ 32 = lo.toNat + k.toNat - 2 ^ 32 := by omega
    omega
  · rw [if_neg hcarry, UInt32.add_zero]
    rw [UInt32.lt_iff_toNat_lt] at hcarry
    rw [UInt32.toNat_add] at hcarry ⊢
    have hkept : (lo.toNat + k.toNat) % 2 ^ 32 = lo.toNat + k.toNat := by omega
    omega

/-- The same, for a number that two words can hold. -/
lemma add_wide (hi lo : UInt32) (k : ℕ) :
    (hi + (UInt32.ofNat (k >>> 31 >>> 1) +
        if lo + UInt32.ofNat k < UInt32.ofNat k then 1 else 0)).toNat * 2 ^ 32 +
      (lo + UInt32.ofNat k).toNat = (hi.toNat * 2 ^ 32 + lo.toNat + k) % 2 ^ 64 := by
  have hhigh : (k >>> 31) >>> 1 = k / 2 ^ 32 := by
    rw [← Nat.shiftRight_add, Nat.shiftRight_eq_div_pow]
  have hwhole : (hi.toNat + k / 2 ^ 32) % 2 ^ 32 * 2 ^ 32 =
      (hi.toNat + k / 2 ^ 32) * 2 ^ 32 % 2 ^ 64 := (Nat.mul_mod_mul_right _ _ _).symm
  have hk : k / 2 ^ 32 * 2 ^ 32 + k % 2 ^ 32 = k := Nat.div_add_mod' k (2 ^ 32)
  rw [← UInt32.add_assoc, add_carry, hhigh, UInt32.toNat_add, UInt32.toNat_ofNat',
    UInt32.toNat_ofNat', Nat.add_mod_mod, hwhole, Nat.add_assoc, Nat.mod_add_mod]
  refine congrArg (· % 2 ^ 64) ?_
  calc (hi.toNat + k / 2 ^ 32) * 2 ^ 32 + (lo.toNat + k % 2 ^ 32)
      = hi.toNat * 2 ^ 32 + lo.toNat + (k / 2 ^ 32 * 2 ^ 32 + k % 2 ^ 32) := by ring
    _ = hi.toNat * 2 ^ 32 + lo.toNat + k := by rw [hk]

end Words

/-! ## Blocks -/

section Blocks

variable {σ τ α : Type*} {f : σ → List α → σ} {n : ℕ} {s : σ} {xs ys : List α}

/-- So many blocks from the front, one after another. -/
def absorbUpTo (f : σ → List α → σ) (n : ℕ) : ℕ → σ → List α → σ
  | 0, s, _ => s
  | blocks + 1, s, xs => absorbUpTo f n blocks (f s (xs.take n)) (xs.drop n)

/-- All whole blocks, one after another. -/
def absorb (f : σ → List α → σ) (n : ℕ) (s : σ) (xs : List α) : σ :=
  absorbUpTo f n (xs.length / n) s xs

/-- What is left behind the whole blocks. -/
def rest (n : ℕ) (xs : List α) : List α := xs.drop (n * (xs.length / n))

lemma length_rest (n : ℕ) (xs : List α) : (rest n xs).length = xs.length % n := by
  rw [rest, List.length_drop]
  have hdiv := Nat.div_add_mod xs.length n
  omega

lemma absorbUpTo_append {blocks : ℕ} (h : xs.length = n * blocks) (more : ℕ) :
    absorbUpTo f n (blocks + more) s (xs ++ ys) =
      absorbUpTo f n more (absorbUpTo f n blocks s xs) ys := by
  induction blocks generalizing s xs with
  | zero =>
      obtain rfl : xs = [] := List.eq_nil_of_length_eq_zero (by rw [h, Nat.mul_zero])
      rw [Nat.zero_add]
      rfl
  | succ blocks ih =>
      rw [Nat.mul_succ] at h
      rw [Nat.succ_add, absorbUpTo, absorbUpTo, List.take_append_of_le_length (by omega),
        List.drop_append_of_le_length (by omega)]
      exact ih (by rw [List.length_drop]; omega)

/-- **Whole blocks can be taken in at any time.** -/
theorem absorb_append (hn : 0 < n) (h : n ∣ xs.length) :
    absorb f n s (xs ++ ys) = absorb f n (absorb f n s xs) ys := by
  obtain ⟨blocks, hblocks⟩ := h
  rw [absorb, absorb, absorb, List.length_append, hblocks, Nat.mul_add_div hn,
    Nat.mul_div_cancel_left _ hn]
  exact absorbUpTo_append hblocks _

/-- One block. -/
lemma absorb_block (hn : 0 < n) (h : xs.length = n) : absorb f n s xs = f s xs := by
  rw [absorb, h, Nat.div_self hn, absorbUpTo, absorbUpTo, List.take_of_length_le h.le]

/-- The whole blocks, and what is left. -/
lemma take_append_rest (n : ℕ) (xs : List α) : xs.take (n * (xs.length / n)) ++ rest n xs = xs :=
  List.take_append_drop _ _

lemma dvd_length_take (n : ℕ) (xs : List α) : n ∣ (xs.take (n * (xs.length / n))).length := by
  rw [List.length_take, min_eq_left (Nat.mul_div_le _ _)]
  exact Dvd.intro _ rfl

/-- What is left is not looked at. -/
lemma absorb_take (f : σ → List α → σ) (hn : 0 < n) (s : σ) (xs : List α) :
    absorb f n s xs = absorb f n s (xs.take (n * (xs.length / n))) := by
  have hshort : absorb f n (absorb f n s (xs.take (n * (xs.length / n)))) (rest n xs) =
      absorb f n s (xs.take (n * (xs.length / n))) := by
    rw [absorb, length_rest, Nat.div_eq_of_lt (Nat.mod_lt _ hn), absorbUpTo]
  conv_lhs => rw [← take_append_rest n xs, absorb_append hn (dvd_length_take n xs), hshort]

/-- A state that is a part of another is taken along. -/
lemma absorb_part {g : τ → List α → τ} (whole : σ → τ)
    (h : ∀ s block, g (whole s) block = whole (f s block)) (s : σ) (xs : List α) :
    absorb g n (whole s) xs = whole (absorb f n s xs) := by
  have hall : ∀ (blocks : ℕ) (s : σ) (xs : List α),
      absorbUpTo g n blocks (whole s) xs = whole (absorbUpTo f n blocks s xs) := by
    intro blocks
    induction blocks with
    | zero => exact fun s xs => rfl
    | succ blocks ih =>
        intro s xs
        rw [absorbUpTo, absorbUpTo, h]
        exact ih _ _
  exact hall _ s xs

/-! ## A message in pieces -/

/-- The state has taken in the message up to its end `held`, in whole blocks. -/
def Pending (f : σ → List α → σ) (n : ℕ) (init : σ) (msg : List α) (s : σ) (held : List α) :
    Prop :=
  ∃ front, msg = front ++ held ∧ n ∣ front.length ∧ s = absorb f n init front

variable {init : σ} {msg held block : List α}

lemma Pending.start : Pending f n init [] init [] :=
  ⟨[], rfl, Dvd.intro 0 rfl, by rw [absorb, List.length_nil, Nat.zero_div]; rfl⟩

/-- The message grows. -/
lemma Pending.append (h : Pending f n init msg s held) (ys : List α) :
    Pending f n init (msg ++ ys) s (held ++ ys) := by
  obtain ⟨front, rfl, hfront, rfl⟩ := h
  exact ⟨front, List.append_assoc _ _ _, hfront, rfl⟩

/-- Whole blocks go. -/
lemma Pending.absorb (hn : 0 < n) (h : Pending f n init msg s (xs ++ held)) (hxs : n ∣ xs.length) :
    Pending f n init msg (absorb f n s xs) held := by
  obtain ⟨front, rfl, hfront, rfl⟩ := h
  refine ⟨front ++ xs, (List.append_assoc _ _ _).symm, ?_, (absorb_append hn hfront).symm⟩
  rw [List.length_append]
  exact Nat.dvd_add hfront hxs

/-- All whole blocks go. -/
lemma Pending.rest (hn : 0 < n) (h : Pending f n init msg s held) :
    Pending f n init msg (BlockHash.absorb f n s held) (rest n held) := by
  rw [absorb_take f hn]
  refine Pending.absorb hn ?_ (dvd_length_take n held)
  rwa [take_append_rest]

/-- Nothing is held back. -/
lemma Pending.eq_absorb (h : Pending f n init msg s []) : s = BlockHash.absorb f n init msg := by
  obtain ⟨front, rfl, -, rfl⟩ := h
  rw [List.append_nil]

/-- What is held back tells the length of the message from a multiple of the block. -/
lemma Pending.length_mod (h : Pending f n init msg s held) :
    held.length % n = msg.length % n := by
  obtain ⟨front, rfl, ⟨blocks, hblocks⟩, -⟩ := h
  rw [List.length_append, hblocks, Nat.mul_add_mod]

end Blocks

/-! ## Hashes -/

section Hashes

/-- How many zeros stand between the mark behind a message and its length. -/
def zeros (length : ℕ) : ℕ := (119 - length % 64) % 64

end Hashes

end BlockHash

/-- A hash function with blocks of 64 bytes and the length of the message, in bits, in eight bytes
behind it. -/
structure BlockHash (σ : Type*) where
  init : σ
  compress : σ → List UInt8 → σ
  lengthBytes : ℕ → List UInt8
  digest : σ → List UInt8

namespace BlockHash

section Hashes

variable {σ : Type*} (H : BlockHash σ)

/-- What is hashed: the message, a mark, zeros and the length. -/
def padding (length : ℕ) : List UInt8 :=
  128 :: List.replicate (zeros length) 0 ++ H.lengthBytes (8 * length)

/-- The hash of a message. -/
def hash (msg : List UInt8) : List UInt8 :=
  H.digest (absorb H.compress 64 H.init (msg ++ H.padding msg.length))

/-- A key of the length of a block. -/
def blockKey (key : List UInt8) : List UInt8 :=
  let short := if 64 < key.length then H.hash key else key
  short ++ List.replicate (64 - short.length) 0

/-- The hash of a message under a key. -/
def hmac (key msg : List UInt8) : List UInt8 :=
  H.hash ((H.blockKey key).map (0x5c ^^^ ·) ++ H.hash ((H.blockKey key).map (0x36 ^^^ ·) ++ msg))

variable {H} {msg : List UInt8} {s : σ}

/-- A program that has taken in the message with its padding has the hash. -/
lemma Pending.hash (h : Pending H.compress 64 H.init (msg ++ H.padding msg.length) s []) :
    H.digest s = H.hash msg := by
  rw [BlockHash.hash, h.eq_absorb]

/-- The padding fills the last block. -/
lemma add_length_padding (hlength : ∀ n, (H.lengthBytes n).length = 8) (length : ℕ) :
    (length + (H.padding length).length) % 64 = 0 := by
  rw [padding, List.length_append, List.length_cons, List.length_replicate, hlength, zeros]
  omega

end Hashes

/-! ## Registers whose roles rotate -/

section Rotation

variable {n : ℕ} {W : Type*} {i : ℕ} {registers registers' roles roles' moved : Vector W n}

/-- The blocks of these functions are sixteen words. -/
instance neZero_sixteen : NeZero 16 := ⟨by decide⟩

/-- Write one register. -/
def write (registers : Vector W n) (r : Fin n) (value : W) : Vector W n :=
  registers.set r value r.isLt

lemma get_write (registers : Vector W n) (r q : Fin n) (value : W) :
    (write registers r value).get q = if r = q then value else registers.get q := by
  rw [Vector.get_eq_getElem, Vector.get_eq_getElem, write, Vector.getElem_set]
  simp only [Fin.ext_iff]

variable [NeZero n]

/-- After `i` turns the role `r` is played by the register `i` places before it. -/
def Rotated (i : ℕ) (registers roles : Vector W n) : Prop :=
  ∀ r, registers.get (r - Fin.ofNat n i) = roles.get r

lemma Rotated.start (registers : Vector W n) : Rotated 0 registers registers := by
  intro r
  rw [Fin.ofNat_zero, sub_zero]

/-- A register is written, and with it the role that it plays. -/
lemma Rotated.write (h : Rotated i registers roles) (r : Fin n) (value : W) :
    Rotated i (write registers (r - Fin.ofNat n i) value) (write roles r value) := by
  intro q
  rw [get_write, get_write, h q]
  simp only [sub_left_inj]

/-- **A turn**: the roles move by one place. -/
theorem Rotated.next (h : Rotated i registers roles)
    (hmoved : ∀ r, moved.get r = roles.get (r - 1)) : Rotated (i + 1) registers moved := by
  intro r
  have hplace : Fin.ofNat n (i + 1) = 1 + Fin.ofNat n i := by
    apply Fin.ext
    rw [Fin.val_add, Fin.val_ofNat, Fin.val_ofNat, Fin.val_one', ← Nat.add_mod, Nat.add_comm]
  rw [hplace, ← sub_sub, hmoved]
  exact h (r - 1)

/-- After whole rounds each register plays its own role. -/
theorem Rotated.eq_of_dvd (h : Rotated i registers roles) (hi : n ∣ i) : registers = roles := by
  have hzero : Fin.ofNat n i = 0 := by
    apply Fin.ext
    rw [Fin.val_ofNat, Nat.mod_eq_zero_of_dvd hi, Fin.val_zero]
  refine Vector.ext fun r hr => ?_
  have hrole := h ⟨r, hr⟩
  rw [hzero, sub_zero] at hrole
  exact hrole

end Rotation

/-! ## A sequence in a window -/

section Windows

variable {n t : ℕ} {α : Type*} [NeZero n] {x : Vector α n} {W : ℕ → α}

/-- Before its turn `t` a window that is written over has the last `n` terms of a sequence, or the
first. -/
def Window (W : ℕ → α) (t : ℕ) (x : Vector α n) : Prop :=
  ∀ s, s < max t n → t ≤ s + n → x.get (Fin.ofNat n s) = W s

lemma Window.start (h : ∀ s < n, x.get (Fin.ofNat n s) = W s) : Window W 0 x :=
  fun s hs _ => h s (by rwa [Nat.zero_max] at hs)

/-- One of the first terms is there already. -/
lemma Window.skip (h : Window W t x) (ht : t < n) : Window W (t + 1) x :=
  fun s hs _ => h s (by omega) (by omega)

/-- **A term takes the place of the oldest.** -/
theorem Window.write (h : Window W t x) (ht : n ≤ t) :
    Window W (t + 1) (write x (Fin.ofNat n t) (W t)) := by
  intro s hs hold
  rw [get_write]
  split_ifs with hplace
  · rw [Fin.ext_iff, Fin.val_ofNat, Fin.val_ofNat] at hplace
    have hsame : s = t := by
      by_contra hne
      have hdvd : n ∣ t - s := (Nat.modEq_iff_dvd' (by omega)).mp hplace.symm
      have hle := Nat.le_of_dvd (by omega) hdvd
      omega
    rw [hsame]
  · have hne : s ≠ t := fun hsame => hplace (by rw [hsame])
    exact h s (by omega) (by omega)

end Windows

end BlockHash
