import Mathlib

/-!
# Byte strings

A C string is a list of bytes.  This file has the three encodings the code relies on and the fact
that each is undone by its reader: percent-encoding (`unescape_escape`), the decimal text of an
unsigned number and `atoll` (`atoll_decimal`), and the octal text `%o` prints.

`atoll` follows the C library: leading blanks, an optional sign, digits up to the first other
character, and a value clamped to the range of `long long`.
-/

/-- A string of bytes. -/
abbrev Bytes := List UInt8

namespace Bytes

/-- The bytes of a string literal. -/
def ascii (s : String) : Bytes := s.toUTF8.data.toList

/-! ## Up to a character -/

section UpTo

variable {α : Type*} [DecidableEq α] {x : α} {front : List α}

lemma all_ne (h : x ∉ front) : ∀ c ∈ front, decide (c ≠ x) = true := by
  intro c hc
  exact decide_eq_true fun heq => h (heq ▸ hc)

/-- What stands before the first occurrence of a character. -/
lemma takeWhile_ne (h : x ∉ front) (rest : List α) :
    (front ++ x :: rest).takeWhile (· ≠ x) = front := by
  rw [List.takeWhile_append_of_pos (all_ne h)]
  simp

/-- What stands from there on. -/
lemma dropWhile_ne (h : x ∉ front) (rest : List α) :
    (front ++ x :: rest).dropWhile (· ≠ x) = x :: rest := by
  rw [List.dropWhile_append_of_pos (all_ne h)]
  simp

end UpTo

/-! ## Percent-encoding -/

/-- The characters a URL component may carry as they are: letters, digits, `-`, `.`, `_`, `~`. -/
def unreserved (b : UInt8) : Bool :=
  (48 ≤ b && b ≤ 57) || (65 ≤ b && b ≤ 90) || (97 ≤ b && b ≤ 122) ||
    b == 45 || b == 46 || b == 95 || b == 126

/-- The upper-case hexadecimal digit of a value below 16. -/
def hexDigit (n : UInt8) : UInt8 := if n < 10 then 48 + n else 55 + n

/-- The value of a hexadecimal digit of either case. -/
def hexValue (c : UInt8) : Option UInt8 :=
  if 48 ≤ c ∧ c ≤ 57 then some (c - 48)
  else if 65 ≤ c ∧ c ≤ 70 then some (c - 55)
  else if 97 ≤ c ∧ c ≤ 102 then some (c - 87)
  else none

/-- One byte, percent-encoded unless it is unreserved. -/
def escapeByte (b : UInt8) : Bytes :=
  if unreserved b then [b] else [37, hexDigit (b / 16), hexDigit (b % 16)]

/-- Percent-encoding, byte by byte. -/
def escape (s : Bytes) : Bytes := s.flatMap escapeByte

/-- Percent-decoding.  A `%` without two hexadecimal digits after it stands for itself. -/
def unescape : Bytes → Bytes
  | [] => []
  | [a] => [a]
  | [a, b] => [a, b]
  | a :: b :: c :: rest =>
      if a = 37 then
        match hexValue b, hexValue c with
        | some x, some y => (16 * x + y) :: unescape rest
        | _, _ => a :: unescape (b :: c :: rest)
      else a :: unescape (b :: c :: rest)

lemma unescape_cons {a : UInt8} (h : a ≠ 37) (rest : Bytes) :
    unescape (a :: rest) = a :: unescape rest := by
  match rest with
  | [] => rfl
  | [_] => rfl
  | _ :: _ :: _ => rw [unescape, if_neg h]

lemma unreserved_ne_percent {b : UInt8} (h : unreserved b = true) : b ≠ 37 := by
  rintro rfl
  exact absurd h (by decide)

private lemma hexValue_hexDigit_nat : ∀ n < 16, hexValue (hexDigit (UInt8.ofNat n)) =
    some (UInt8.ofNat n) := by decide

private lemma hexValue_hexDigit {n : UInt8} (h : n < 16) : hexValue (hexDigit n) = some n := by
  have := hexValue_hexDigit_nat n.toNat (by simpa [UInt8.lt_iff_toNat_lt] using h)
  simpa using this

private lemma div_sixteen_lt (b : UInt8) : b / 16 < 16 := by
  simp only [UInt8.lt_iff_toNat_lt, UInt8.toNat_div]
  have := b.toNat_lt
  show b.toNat / 16 < 16
  omega

private lemma mod_sixteen_lt (b : UInt8) : b % 16 < 16 := by
  simp only [UInt8.lt_iff_toNat_lt, UInt8.toNat_mod]
  show b.toNat % 16 < 16
  omega

/-- One encoded byte is read back. -/
lemma unescape_escapeByte (b : UInt8) (rest : Bytes) :
    unescape (escapeByte b ++ rest) = b :: unescape rest := by
  unfold escapeByte
  split_ifs with h
  · rw [List.singleton_append, unescape_cons (unreserved_ne_percent h)]
  · have hhi := div_sixteen_lt b
    have hlo := mod_sixteen_lt b
    have hval : 16 * (b / 16) + b % 16 = b := by
      apply UInt8.toNat.inj
      have := b.toNat_lt
      simp only [UInt8.toNat_add, UInt8.toNat_mul, UInt8.toNat_div, UInt8.toNat_mod,
        UInt8.reduceToNat]
      omega
    simp only [List.cons_append, List.nil_append, unescape, if_pos, hexValue_hexDigit hhi,
      hexValue_hexDigit hlo, hval]

/-- **Percent-decoding undoes percent-encoding.** -/
@[simp] theorem unescape_escape (s : Bytes) : unescape (escape s) = s := by
  induction s with
  | nil => rfl
  | cons b s ih =>
      have hs : escape (b :: s) = escapeByte b ++ escape s := rfl
      rw [hs, unescape_escapeByte, ih]

private lemma unreserved_hexDigit_nat : ∀ n < 16, unreserved (hexDigit (UInt8.ofNat n)) = true := by
  decide

private lemma unreserved_hexDigit {n : UInt8} (h : n < 16) : unreserved (hexDigit n) = true := by
  have := unreserved_hexDigit_nat n.toNat (by simpa [UInt8.lt_iff_toNat_lt] using h)
  simpa using this

/-- An encoded string has unreserved characters and percent signs only. -/
lemma mem_escape {s : Bytes} {c : UInt8} (h : c ∈ escape s) : unreserved c = true ∨ c = 37 := by
  obtain ⟨b, -, hc⟩ := List.mem_flatMap.mp h
  unfold escapeByte at hc
  split_ifs at hc with hb
  · rw [List.mem_singleton] at hc
    exact Or.inl (hc ▸ hb)
  · simp only [List.mem_cons, List.not_mem_nil, or_false] at hc
    rcases hc with rfl | rfl | rfl
    · exact Or.inr rfl
    · exact Or.inl (unreserved_hexDigit (div_sixteen_lt b))
    · exact Or.inl (unreserved_hexDigit (mod_sixteen_lt b))

/-! ## Numbers -/

/-- The value of a character as a decimal digit. -/
def digitValue (c : UInt8) : Option ℕ := if 48 ≤ c ∧ c ≤ 57 then some (c.toNat - 48) else none

/-- Read digits up to the first other character, from the value `acc` of those already read. -/
def readDigits (acc : ℕ) : Bytes → ℕ
  | [] => acc
  | c :: rest =>
      match digitValue c with
      | some d => readDigits (10 * acc + d) rest
      | none => acc

/-- The blanks `isspace` knows. -/
def isSpace (c : UInt8) : Bool := c == 32 || (9 ≤ c && c ≤ 13)

/-- The largest `long long`. -/
def longLongMax : ℕ := 2 ^ 63 - 1

/-- `atoll`, clamped at the limits of `long long`. -/
def atoll (s : Bytes) : ℤ :=
  match s.dropWhile isSpace with
  | [] => 0
  | c :: rest =>
      if c = 45 then - (min (readDigits 0 rest) (longLongMax + 1) : ℕ)
      else if c = 43 then (min (readDigits 0 rest) longLongMax : ℕ)
      else (min (readDigits 0 (c :: rest)) longLongMax : ℕ)

/-- The text of a number in a base up to ten, as `%llu` and `%o` print it. -/
def inBase (base n : ℕ) : Bytes := (Nat.toDigits base n).map fun c => UInt8.ofNat c.toNat

/-- `%llu`. -/
def decimal (n : ℕ) : Bytes := inBase 10 n

/-- `%o`. -/
def octal (n : ℕ) : Bytes := inBase 8 n

private lemma digitChar_byte_nat : ∀ d < 10,
    digitValue (UInt8.ofNat (Nat.digitChar d).toNat) = some d ∧
      UInt8.ofNat (Nat.digitChar d).toNat ≠ 45 ∧ UInt8.ofNat (Nat.digitChar d).toNat ≠ 43 ∧
      isSpace (UInt8.ofNat (Nat.digitChar d).toNat) = false := by decide

lemma readDigits_append (a b : Bytes) (acc : ℕ)
    (ha : ∀ c ∈ a, digitValue c ≠ none) :
    readDigits acc (a ++ b) = readDigits (readDigits acc a) b := by
  induction a generalizing acc with
  | nil => rfl
  | cons c a ih =>
      obtain ⟨d, hd⟩ := Option.ne_none_iff_exists'.mp (ha c List.mem_cons_self)
      simp only [List.cons_append, readDigits, hd]
      exact ih _ fun x hx => ha x (List.mem_cons_of_mem _ hx)

/-- How the decimal text of a number grows: by its last digit. -/
lemma decimal_step {n d : ℕ} (hn : 0 < n) (hd : d < 10) :
    decimal (10 * n + d) = decimal n ++ [UInt8.ofNat (Nat.digitChar d).toNat] := by
  have h := Nat.toDigits_append_toDigits (b := 10) (n := n) (d := d) (by omega) hn hd
  rw [decimal, inBase, ← h, Nat.toDigits_of_lt_base hd]
  simp [decimal, inBase]

lemma decimal_digit {d : ℕ} (hd : d < 10) :
    decimal d = [UInt8.ofNat (Nat.digitChar d).toNat] := by
  rw [decimal, inBase, Nat.toDigits_of_lt_base hd]
  rfl

/-- The decimal text is made of digits. -/
lemma decimal_digits : ∀ n : ℕ, ∀ c ∈ decimal n, digitValue c ≠ none := by
  intro n
  induction n using Nat.strong_induction_on with
  | _ n ih =>
      intro c hc
      by_cases hn : n < 10
      · rw [decimal_digit hn, List.mem_singleton] at hc
        rw [hc, (digitChar_byte_nat n hn).1]
        simp
      · have hsplit : n = 10 * (n / 10) + n % 10 := by omega
        rw [hsplit, decimal_step (by omega) (by omega), List.mem_append,
          List.mem_singleton] at hc
        rcases hc with hc | hc
        · exact ih (n / 10) (by omega) c hc
        · rw [hc, (digitChar_byte_nat _ (by omega)).1]
          simp

/-- The digits of a number read back as the number. -/
theorem readDigits_decimal (n : ℕ) : readDigits 0 (decimal n) = n := by
  induction n using Nat.strong_induction_on with
  | _ n ih =>
      by_cases hn : n < 10
      · rw [decimal_digit hn]
        simp [readDigits, (digitChar_byte_nat n hn).1]
      · have hsplit : n = 10 * (n / 10) + n % 10 := by omega
        have hd : n % 10 < 10 := by omega
        conv_lhs => rw [hsplit]
        rw [decimal_step (by omega) hd, readDigits_append _ _ _ (decimal_digits _),
          ih (n / 10) (by omega)]
        simp only [readDigits, (digitChar_byte_nat _ hd).1]
        omega

/-- The first character of a decimal text is neither a sign nor a blank. -/
lemma decimal_head (n : ℕ) : ∃ c rest, decimal n = c :: rest ∧ c ≠ 45 ∧ c ≠ 43 ∧
    isSpace c = false := by
  induction n using Nat.strong_induction_on with
  | _ n ih =>
      by_cases hn : n < 10
      · exact ⟨_, [], decimal_digit hn, (digitChar_byte_nat n hn).2⟩
      · obtain ⟨c, rest, hc, h⟩ := ih (n / 10) (by omega)
        refine ⟨c, rest ++ [UInt8.ofNat (Nat.digitChar (n % 10)).toNat], ?_, h⟩
        have hsplit : n = 10 * (n / 10) + n % 10 := by omega
        conv_lhs => rw [hsplit]
        rw [decimal_step (by omega) (by omega), hc, List.cons_append]

/-- **`atoll` reads what `%llu` printed**, up to the largest `long long` and no further. -/
theorem atoll_decimal (n : ℕ) : atoll (decimal n) = (min n longLongMax : ℕ) := by
  obtain ⟨c, rest, hc, hminus, hplus, hspace⟩ := decimal_head n
  have hread := readDigits_decimal n
  rw [hc] at hread
  have hdrop : (c :: rest).dropWhile isSpace = c :: rest := by simp [List.dropWhile, hspace]
  rw [atoll, hc, hdrop]
  simp only [if_neg hminus, if_neg hplus, hread]

end Bytes
