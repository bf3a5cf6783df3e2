import Clarc.Http.MicroCurl

/-!
# Base64: `base64.c`

The signature of a request and the md5 of a deletion document are sent as base64.  `base64_encode`
writes no more than its caller has room for, and ends the text where there is room for that.

* `base64Encode_eq` — **it writes the front of the text with its end**, however small the room is;
* `base64Decode_base64` — the text is decoded, and accepted, as far as there is room;
* `base64Decode_base64Encode` — **what `base64_encode` has written with its end is decoded to what
  it was given.**
-/

namespace Clarc

open Bytes

/-! ## The program -/

/-- `b64str`. -/
def b64str : Bytes :=
  ascii "ABCDEFGHIJKLMNOPQRSTUVWXYZabcdefghijklmnopqrstuvwxyz0123456789+/"

namespace Base64

/-- The end of a turn of the loop: the characters of a group, as far as there is room. -/
def writeGroup : (group : Bytes) → (outlen : ℕ) → (next : ℕ → Bytes) → Bytes
  | [], outlen, next => next outlen
  | c :: group, outlen, next =>
      c :: if outlen - 1 = 0 then [] else writeGroup group (outlen - 1) next

/-- The character of six bits. -/
def char (bits : ℕ) : UInt8 := b64str.getD (bits &&& 0x3f) 0

end Base64

open Base64

/-- What `base64_encode` writes into a buffer. -/
def base64Encode : (input : Bytes) → (outlen : ℕ) → Bytes
  | _, 0 => []
  | [], _ + 1 => [0]
  | [in0], outlen + 1 =>
      writeGroup [char (in0.toNat >>> 2), char ((in0.toNat <<< 4) + 0), 61, 61] (outlen + 1)
        (base64Encode [])
  | [in0, in1], outlen + 1 =>
      writeGroup [char (in0.toNat >>> 2), char ((in0.toNat <<< 4) + (in1.toNat >>> 4)),
        char ((in1.toNat <<< 2) + 0), 61] (outlen + 1) (base64Encode [])
  | in0 :: in1 :: in2 :: input, outlen + 1 =>
      writeGroup [char (in0.toNat >>> 2), char ((in0.toNat <<< 4) + (in1.toNat >>> 4)),
        char ((in1.toNat <<< 2) + (in2.toNat >>> 6)), char in2.toNat] (outlen + 1)
        (base64Encode input)

/-- `b64`: the place of a character in the alphabet, or a negative number. -/
def b64 (c : UInt8) : ℤ := if c ∈ b64str then b64str.idxOf c else -1

/-- `isbase64`. -/
def isbase64 (c : UInt8) : Bool := 0 ≤ b64 c

namespace Base64

/-- A byte that goes out where there is room, with the room behind it. -/
def put (byte : ℕ) (outleft : ℕ) (next : ℕ → Bool × Bytes) : Bool × Bytes :=
  if outleft = 0 then next 0
  else
    let (ok, out) := next (outleft - 1)
    (ok, UInt8.ofNat byte :: out)

/-- The six bits of a character. -/
def value (c : UInt8) : ℕ := (b64 c).toNat

end Base64

/-- `base64_decode`: whether the text is accepted, and what comes out. -/
def base64Decode : (input : Bytes) → (outleft : ℕ) → Bool × Bytes
  | [], _ => (true, [])
  | [_], _ => (false, [])
  | in0 :: in1 :: input, outleft =>
      if !isbase64 in0 || !isbase64 in1 then (false, [])
      else
        put ((value in0 <<< 2) ||| (value in1 >>> 4)) outleft fun outleft =>
          match input with
          | [] => (false, [])
          | in2 :: input =>
              if in2 = 61 then
                match input with
                | [in3] => if in3 ≠ 61 then (false, []) else (true, [])
                | _ => (false, [])
              else if !isbase64 in2 then (false, [])
              else
                put (((value in1 <<< 4) &&& 0xf0) ||| (value in2 >>> 2)) outleft fun outleft =>
                  match input with
                  | [] => (false, [])
                  | in3 :: input =>
                      if in3 = 61 then if input ≠ [] then (false, []) else (true, [])
                      else if !isbase64 in3 then (false, [])
                      else
                        put (((value in2 <<< 6) &&& 0xc0) ||| value in3) outleft
                          fun outleft => base64Decode input outleft

/-! ## The text -/

namespace Base64

/-- A sign of the alphabet. -/
def letter (n : ℕ) : UInt8 := b64str.getD n 0

/-- Three bytes as a number, in four letters. -/
def group (n : ℕ) : Bytes :=
  [letter (n / 2 ^ 18), letter (n / 2 ^ 12 % 64), letter (n / 2 ^ 6 % 64), letter (n % 64)]

end Base64

/-- The base64 text of some bytes. -/
def base64 : Bytes → Bytes
  | [] => []
  | [a] => (group (a.toNat * 2 ^ 16)).take 2 ++ [61, 61]
  | [a, b] => (group (a.toNat * 2 ^ 16 + b.toNat * 2 ^ 8)).take 3 ++ [61]
  | a :: b :: c :: rest =>
      group (a.toNat * 2 ^ 16 + b.toNat * 2 ^ 8 + c.toNat) ++ base64 rest

/-- Four characters stand for three bytes or the last ones. -/
lemma length_base64 (input : Bytes) : (base64 input).length = 4 * ((input.length + 2) / 3) := by
  induction input using base64.induct with
  | case1 => rfl
  | case2 a => simp [base64, group]
  | case3 a b => simp [base64, group]
  | case4 a b c rest ih =>
      rw [base64, List.length_append, ih]
      simp only [group, List.length_cons, List.length_nil]
      omega

namespace Base64

lemma letter_mem (n : ℕ) (hn : n < 64) : letter n ∈ b64str := by
  have hlength : b64str.length = 64 := by decide +kernel
  rw [letter, List.getD_eq_getElem _ _ (by omega)]
  exact List.getElem_mem _

lemma group_mem {n : ℕ} (hn : n < 2 ^ 24) {c : UInt8} (hc : c ∈ group n) : c ∈ b64str := by
  simp only [group, List.mem_cons, List.not_mem_nil, or_false] at hc
  rcases hc with rfl | rfl | rfl | rfl <;> exact letter_mem _ (by omega)

end Base64

/-- The text is made of letters of the alphabet and signs of padding. -/
lemma mem_base64 {input : Bytes} {c : UInt8} (hc : c ∈ base64 input) : c ∈ b64str ∨ c = 61 := by
  induction input using base64.induct with
  | case1 => exact absurd hc List.not_mem_nil
  | case2 a =>
      have ha := a.toNat_lt
      rcases List.mem_append.mp hc with hc | hc
      · exact .inl (group_mem (by omega) (List.mem_of_mem_take hc))
      · exact .inr (by simpa using hc)
  | case3 a b =>
      have ha := a.toNat_lt
      have hb := b.toNat_lt
      rcases List.mem_append.mp hc with hc | hc
      · exact .inl (group_mem (by omega) (List.mem_of_mem_take hc))
      · exact .inr (by simpa using hc)
  | case4 a b c' rest ih =>
      have ha := a.toNat_lt
      have hb := b.toNat_lt
      have hc' := c'.toNat_lt
      rcases List.mem_append.mp hc with hc | hc
      · exact .inl (group_mem (by omega) hc)
      · exact ih hc

namespace Base64

/-! ### Writing -/

/-- A group goes out in front of what follows it. -/
lemma writeGroup_eq {next : ℕ → Bytes} {tail : Bytes} (hnext : ∀ n, next n = tail.take n)
    (cs : Bytes) {outlen : ℕ} (h : 0 < outlen) :
    writeGroup cs outlen next = (cs ++ tail).take outlen := by
  induction cs generalizing outlen with
  | nil => exact hnext outlen
  | cons c cs ih =>
      obtain ⟨room, rfl⟩ : ∃ room, outlen = room + 1 := ⟨outlen - 1, by omega⟩
      rw [writeGroup, List.cons_append, List.take_succ_cons, Nat.add_sub_cancel]
      split_ifs with hroom
      · rw [hroom, List.take_zero]
      · rw [ih (by omega)]

lemma char_eq (bits : ℕ) : char bits = letter (bits % 64) := by
  have hmask : 0x3f = 2 ^ 6 - 1 := rfl
  rw [char, hmask, Nat.and_two_pow_sub_one_eq_mod, letter]

/-- The characters that are computed for a group are its letters. -/
lemma chars_eq (a b c : UInt8) :
    char (a.toNat >>> 2) = letter ((a.toNat * 2 ^ 16 + b.toNat * 2 ^ 8 + c.toNat) / 2 ^ 18) ∧
      char ((a.toNat <<< 4) + (b.toNat >>> 4)) =
        letter ((a.toNat * 2 ^ 16 + b.toNat * 2 ^ 8 + c.toNat) / 2 ^ 12 % 64) ∧
      char ((b.toNat <<< 2) + (c.toNat >>> 6)) =
        letter ((a.toNat * 2 ^ 16 + b.toNat * 2 ^ 8 + c.toNat) / 2 ^ 6 % 64) ∧
      char c.toNat = letter ((a.toNat * 2 ^ 16 + b.toNat * 2 ^ 8 + c.toNat) % 64) := by
  have ha := a.toNat_lt
  have hb := b.toNat_lt
  have hc := c.toNat_lt
  simp only [char_eq, Nat.shiftLeft_eq, Nat.shiftRight_eq_div_pow]
  refine ⟨congrArg letter ?_, congrArg letter ?_, congrArg letter ?_, congrArg letter ?_⟩ <;> omega

end Base64

/-- **`base64_encode` writes the front of the text with its end**, however small the room is. -/
theorem base64Encode_eq (input : Bytes) (outlen : ℕ) :
    base64Encode input outlen = (base64 input ++ [0]).take outlen := by
  have hend : ∀ n, base64Encode [] n = ([0] : Bytes).take n := by
    intro n
    rcases n with _ | n
    · rfl
    · rw [base64Encode, List.take_succ_cons, List.take_nil]
  induction input using base64.induct generalizing outlen with
  | case1 => exact hend outlen
  | case2 a =>
      rcases outlen with _ | outlen
      · rw [base64Encode, List.take_zero]
      · obtain ⟨h0, h1, -, -⟩ := chars_eq a 0 0
        simp only [UInt8.toNat_zero, Nat.zero_shiftRight, Nat.zero_mul, Nat.add_zero] at h0 h1
        rw [base64Encode, writeGroup_eq hend _ (Nat.succ_pos _), Nat.add_zero, h0, h1]
        rfl
  | case3 a b =>
      rcases outlen with _ | outlen
      · rw [base64Encode, List.take_zero]
      · obtain ⟨h0, h1, h2, -⟩ := chars_eq a b 0
        simp only [UInt8.toNat_zero, Nat.zero_shiftRight, Nat.add_zero] at h0 h1 h2
        rw [base64Encode, writeGroup_eq hend _ (Nat.succ_pos _), Nat.add_zero, h0, h1, h2]
        rfl
  | case4 a b c rest ih =>
      rcases outlen with _ | outlen
      · rw [base64Encode, List.take_zero]
      · obtain ⟨h0, h1, h2, h3⟩ := chars_eq a b c
        rw [base64Encode, writeGroup_eq ih _ (Nat.succ_pos _), h0, h1, h2, h3, base64,
          List.append_assoc, group]

namespace Base64

/-! ### Reading -/

lemma letter_spec : ∀ n < 64, isbase64 (letter n) = true ∧ value (letter n) = n ∧ letter n ≠ 61 := by
  decide +kernel

/-- A byte goes out in front of what follows it. -/
lemma put_eq {next : ℕ → Bool × Bytes} (tail : Bytes) (hnext : ∀ n, next n = (true, tail.take n))
    (byte outleft : ℕ) :
    put byte outleft next = (true, (UInt8.ofNat byte :: tail).take outleft) := by
  rw [put]
  split_ifs with hnone
  · rw [hnext, hnone, List.take_zero, List.take_zero]
  · obtain ⟨room, rfl⟩ : ∃ room, outleft = room + 1 := ⟨outleft - 1, by omega⟩
    rw [hnext, List.take_succ_cons, Nat.add_sub_cancel]

/-- The bytes of four letters. -/
lemma bits_eq : ∀ d < 64, ∀ e < 64, ((d <<< 2) ||| (e >>> 4) = d * 4 + e / 16) ∧
    (((d <<< 4) &&& 0xf0) ||| (e >>> 2) = d % 16 * 16 + e / 4) ∧
      (((d <<< 6) &&& 0xc0) ||| e = d % 4 * 64 + e) := by
  intro d _ e he
  have hmask : ∀ low high, (d <<< low) &&& ((2 ^ high - 1) <<< low) = (d % 2 ^ high) <<< low := by
    intro low high
    rw [← Nat.shiftLeft_and_distrib, Nat.and_two_pow_sub_one_eq_mod]
  have hfour : (d <<< 4) &&& 0xf0 = (d % 16) <<< 4 := hmask 4 4
  have htwo : (d <<< 6) &&& 0xc0 = (d % 4) <<< 6 := hmask 6 2
  refine ⟨?_, ?_, ?_⟩
  · rw [Nat.shiftRight_eq_div_pow, ← Nat.shiftLeft_add_eq_or_of_lt (by omega), Nat.shiftLeft_eq]
  · rw [hfour, Nat.shiftRight_eq_div_pow, ← Nat.shiftLeft_add_eq_or_of_lt (by omega),
      Nat.shiftLeft_eq]
  · rw [htwo, ← Nat.shiftLeft_add_eq_or_of_lt (by omega), Nat.shiftLeft_eq]

/-- The bytes of a group are put together again. -/
lemma bytes_eq (a b c : UInt8) {n : ℕ} (hn : a.toNat * 2 ^ 16 + b.toNat * 2 ^ 8 + c.toNat = n) :
    UInt8.ofNat ((value (letter (n / 2 ^ 18)) <<< 2) |||
        (value (letter (n / 2 ^ 12 % 64)) >>> 4)) = a ∧
      UInt8.ofNat (((value (letter (n / 2 ^ 12 % 64)) <<< 4) &&& 0xf0) |||
        (value (letter (n / 2 ^ 6 % 64)) >>> 2)) = b ∧
      UInt8.ofNat (((value (letter (n / 2 ^ 6 % 64)) <<< 6) &&& 0xc0) |||
        value (letter (n % 64))) = c := by
  have ha := a.toNat_lt
  have hb := b.toNat_lt
  have hc := c.toNat_lt
  have hn0 : n / 2 ^ 18 < 64 := by omega
  have hn1 : n / 2 ^ 12 % 64 < 64 := Nat.mod_lt _ (by decide)
  have hn2 : n / 2 ^ 6 % 64 < 64 := Nat.mod_lt _ (by decide)
  have hn3 : n % 64 < 64 := Nat.mod_lt _ (by decide)
  rw [(letter_spec _ hn0).2.1, (letter_spec _ hn1).2.1, (letter_spec _ hn2).2.1,
    (letter_spec _ hn3).2.1, (bits_eq _ hn0 _ hn1).1, (bits_eq _ hn1 _ hn2).2.1,
    (bits_eq _ hn2 _ hn3).2.2]
  have h0 : n / 2 ^ 18 * 4 + n / 2 ^ 12 % 64 / 16 = a.toNat := by omega
  have h1 : n / 2 ^ 12 % 64 % 16 * 16 + n / 2 ^ 6 % 64 / 4 = b.toNat := by omega
  have h2 : n / 2 ^ 6 % 64 % 4 * 64 + n % 64 = c.toNat := by omega
  rw [h0, h1, h2]
  exact ⟨UInt8.ofNat_toNat, UInt8.ofNat_toNat, UInt8.ofNat_toNat⟩

end Base64

/-- The text is decoded, as far as there is room. -/
lemma base64Decode_base64 (input : Bytes) (outleft : ℕ) :
    base64Decode (base64 input) outleft = (true, input.take outleft) := by
  have hspec := fun n : ℕ => letter_spec (n % 64) (Nat.mod_lt _ (by decide))
  have hfirst : ∀ a b c : UInt8, isbase64 (letter
      ((a.toNat * 2 ^ 16 + b.toNat * 2 ^ 8 + c.toNat) / 2 ^ 18)) = true := by
    intro a b c
    have ha := a.toNat_lt
    have hb := b.toNat_lt
    have hc := c.toNat_lt
    exact (letter_spec _ (by omega)).1
  induction input using base64.induct generalizing outleft with
  | case1 => rw [base64, base64Decode, List.take_nil]
  | case2 a =>
      obtain ⟨h0, -, -⟩ := bytes_eq a 0 0 rfl
      have hd0 := hfirst a 0 0
      rw [UInt8.toNat_zero, Nat.zero_mul, Nat.add_zero] at h0 hd0
      generalize hn : a.toNat * 2 ^ 16 = n at h0 hd0
      obtain ⟨hd1, -, -⟩ := hspec (n / 2 ^ 12)
      rw [base64, hn, group, List.take_succ_cons, List.take_succ_cons, List.take_zero,
        List.cons_append, List.cons_append, List.nil_append, base64Decode]
      simp only [hd0, hd1, Bool.not_true, Bool.or_self, Bool.false_eq_true, if_false, if_true,
        ne_eq, not_true_eq_false]
      rw [put_eq [] fun n => by rw [List.take_nil], h0]
  | case3 a b =>
      obtain ⟨h0, h1, -⟩ := bytes_eq a b 0 rfl
      have hd0 := hfirst a b 0
      rw [UInt8.toNat_zero, Nat.add_zero] at h0 h1 hd0
      generalize hn : a.toNat * 2 ^ 16 + b.toNat * 2 ^ 8 = n at h0 h1 hd0
      obtain ⟨hd1, -, -⟩ := hspec (n / 2 ^ 12)
      obtain ⟨hd2, -, hp2⟩ := hspec (n / 2 ^ 6)
      rw [base64, hn, group, List.take_succ_cons, List.take_succ_cons, List.take_succ_cons,
        List.take_zero, List.cons_append, List.cons_append, List.cons_append, List.nil_append,
        base64Decode]
      simp only [hd0, hd1, hd2, hp2, Bool.not_true, Bool.or_self, Bool.false_eq_true, if_false,
        if_true, ne_eq, not_true_eq_false]
      rw [put_eq _ fun n => put_eq [] (fun n => by rw [List.take_nil]) _ _, h0, h1]
  | case4 a b c rest ih =>
      obtain ⟨h0, h1, h2⟩ := bytes_eq a b c rfl
      have hd0 := hfirst a b c
      generalize hn : a.toNat * 2 ^ 16 + b.toNat * 2 ^ 8 + c.toNat = n at h0 h1 h2 hd0
      obtain ⟨hd1, -, -⟩ := hspec (n / 2 ^ 12)
      obtain ⟨hd2, -, hp2⟩ := hspec (n / 2 ^ 6)
      obtain ⟨hd3, -, hp3⟩ := hspec n
      rw [base64, hn, group, List.cons_append, List.cons_append, List.cons_append, List.cons_append,
        List.nil_append, base64Decode]
      simp only [hd0, hd1, hd2, hd3, hp2, hp3, Bool.not_true, Bool.or_self, Bool.false_eq_true,
        if_false]
      rw [put_eq _ fun n => put_eq _ (fun n => put_eq _ ih _ _) _ _, h0, h1, h2]

/-! ## Round trip -/

/-- A buffer that is large enough has the text with its terminator. -/
lemma cString_base64Encode {input : Bytes} {outlen : ℕ}
    (h : 4 * ((input.length + 2) / 3) < outlen) :
    cString (base64Encode input outlen) = base64 input := by
  have hlength : (base64 input ++ [0]).length ≤ outlen := by
    rw [List.length_append, length_base64]
    exact h
  have hletters : (0 : UInt8) ∉ b64str := by decide +kernel
  have hend : (0 : UInt8) ∉ base64 input := by
    intro hmem
    rcases mem_base64 hmem with hletter | hpad
    · exact hletters hletter
    · exact absurd hpad (by decide)
  rw [base64Encode_eq, List.take_of_length_le hlength, cString_append_nul]
  exact cString_eq_self hend

/-- **What `base64_encode` has written with its end is decoded to what it was given**, as far as
there is room. -/
theorem base64Decode_base64Encode {input : Bytes} {outlen : ℕ}
    (h : 4 * ((input.length + 2) / 3) < outlen) (outleft : ℕ) :
    base64Decode (cString (base64Encode input outlen)) outleft = (true, input.take outleft) := by
  rw [cString_base64Encode h, base64Decode_base64]

/-- Two bytes, in the buffer that the signature gets. -/
theorem base64Decode_base64Encode_two :
    base64Decode (cString (base64Encode [255, 0] 64)) 3 = (true, [255, 0]) :=
  base64Decode_base64Encode (by decide) 3

end Clarc
