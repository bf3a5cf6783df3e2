import Clarc.Core.BlockHash
import Clarc.Core.Bytes

/-!
# MD5: `md5.c`

The md5 of a file decides whether it is uploaded again, and that of a deletion document is sent
along with it.  `md5.c` is the public implementation: 64 operations written out with four registers
whose roles rotate, and a state that keeps what does not fill a block.

`compress` is the same function as a loop, with the rotation, the order of the words and the shifts
given by formulas, and `md5` is the hash of a whole message.

* `md5Process_eq` — **the operations written out are the loop**;
* `Holds` — what a state has taken in and what it holds back, and `holds_md5Append` that a piece
  makes the message longer by itself;
* `md5_of_pieces` — **the digest of a message in pieces is its MD5**, wherever it was cut.
-/

namespace Clarc

open BlockHash

/-! ## The program -/

/-- `md5_state_t`. -/
structure Md5State where
  count0 : UInt32
  count1 : UInt32
  abcd : Vector UInt32 4
  buf : Buffer UInt8 64

namespace Md5

/-- `T_MASK`. -/
def T_MASK : UInt32 := 0xffffffff

/-- `T1` to `T64`. -/
def constants : List UInt32 := [
  T_MASK ^^^ 0x28955b87, T_MASK ^^^ 0x173848a9, 0x242070db, T_MASK ^^^ 0x3e423111,
  T_MASK ^^^ 0x0a83f050, 0x4787c62a, T_MASK ^^^ 0x57cfb9ec, T_MASK ^^^ 0x02b96afe,
  0x698098d8, T_MASK ^^^ 0x74bb0850, T_MASK ^^^ 0x0000a44e, T_MASK ^^^ 0x76a32841,
  0x6b901122, T_MASK ^^^ 0x02678e6c, T_MASK ^^^ 0x5986bc71, 0x49b40821,
  T_MASK ^^^ 0x09e1da9d, T_MASK ^^^ 0x3fbf4cbf, 0x265e5a51, T_MASK ^^^ 0x16493855,
  T_MASK ^^^ 0x29d0efa2, 0x02441453, T_MASK ^^^ 0x275e197e, T_MASK ^^^ 0x182c0437,
  0x21e1cde6, T_MASK ^^^ 0x3cc8f829, T_MASK ^^^ 0x0b2af278, 0x455a14ed,
  T_MASK ^^^ 0x561c16fa, T_MASK ^^^ 0x03105c07, 0x676f02d9, T_MASK ^^^ 0x72d5b375,
  T_MASK ^^^ 0x0005c6bd, T_MASK ^^^ 0x788e097e, 0x6d9d6122, T_MASK ^^^ 0x021ac7f3,
  T_MASK ^^^ 0x5b4115bb, 0x4bdecfa9, T_MASK ^^^ 0x0944b49f, T_MASK ^^^ 0x4140438f,
  0x289b7ec6, T_MASK ^^^ 0x155ed805, T_MASK ^^^ 0x2b10cf7a, 0x04881d05,
  T_MASK ^^^ 0x262b2fc6, T_MASK ^^^ 0x1924661a, 0x1fa27cf8, T_MASK ^^^ 0x3b53a99a,
  T_MASK ^^^ 0x0bd6ddbb, 0x432aff97, T_MASK ^^^ 0x546bdc58, T_MASK ^^^ 0x036c5fc6,
  0x655b59c3, T_MASK ^^^ 0x70f3336d, T_MASK ^^^ 0x00100b82, T_MASK ^^^ 0x7a7ba22e,
  0x6fa87e4f, T_MASK ^^^ 0x01d3191f, T_MASK ^^^ 0x5cfebceb, 0x4e0811a1,
  T_MASK ^^^ 0x08ac817d, T_MASK ^^^ 0x42c50dca, 0x2ad7d2bb, T_MASK ^^^ 0x14792c6e]

/-- `T1`, `T2` and so on. -/
def T (i : ℕ) : UInt32 := constants.getD (i - 1) 0

/-- `ROTATE_LEFT`. -/
def ROTATE_LEFT (x n : UInt32) : UInt32 := (x <<< n) ||| (x >>> (32 - n))

def F (x y z : UInt32) : UInt32 := (x &&& y) ||| (~~~x &&& z)

def G (x y z : UInt32) : UInt32 := (x &&& z) ||| (y &&& ~~~z)

def H (x y z : UInt32) : UInt32 := x ^^^ y ^^^ z

def I (x y z : UInt32) : UInt32 := y ^^^ (x ||| ~~~z)

/-- One use of the macro `SET`: the registers, the word of the block, the shift and the constant. -/
structure Set where
  a : Fin 4
  b : Fin 4
  c : Fin 4
  d : Fin 4
  k : Fin 16
  s : UInt32
  Ti : UInt32
  deriving DecidableEq

/-- `SET(a, b, c, d, k, s, Ti)` in a round with the function `f`, on the words `X`. -/
def Set.exec (f : UInt32 → UInt32 → UInt32 → UInt32) (X : Vector UInt32 16)
    (registers : Vector UInt32 4) (op : Set) : Vector UInt32 4 :=
  let t := registers.get op.a + f (registers.get op.b) (registers.get op.c) (registers.get op.d) +
    X.get op.k + op.Ti
  BlockHash.write registers op.a (ROTATE_LEFT t op.s + registers.get op.b)

namespace Register

abbrev a : Fin 4 := 0
abbrev b : Fin 4 := 1
abbrev c : Fin 4 := 2
abbrev d : Fin 4 := 3

end Register

open Register in
/-- Round 1. -/
def round1 : List Set := [
  ⟨a, b, c, d, 0, 7, T 1⟩, ⟨d, a, b, c, 1, 12, T 2⟩,
  ⟨c, d, a, b, 2, 17, T 3⟩, ⟨b, c, d, a, 3, 22, T 4⟩,
  ⟨a, b, c, d, 4, 7, T 5⟩, ⟨d, a, b, c, 5, 12, T 6⟩,
  ⟨c, d, a, b, 6, 17, T 7⟩, ⟨b, c, d, a, 7, 22, T 8⟩,
  ⟨a, b, c, d, 8, 7, T 9⟩, ⟨d, a, b, c, 9, 12, T 10⟩,
  ⟨c, d, a, b, 10, 17, T 11⟩, ⟨b, c, d, a, 11, 22, T 12⟩,
  ⟨a, b, c, d, 12, 7, T 13⟩, ⟨d, a, b, c, 13, 12, T 14⟩,
  ⟨c, d, a, b, 14, 17, T 15⟩, ⟨b, c, d, a, 15, 22, T 16⟩]

open Register in
/-- Round 2. -/
def round2 : List Set := [
  ⟨a, b, c, d, 1, 5, T 17⟩, ⟨d, a, b, c, 6, 9, T 18⟩,
  ⟨c, d, a, b, 11, 14, T 19⟩, ⟨b, c, d, a, 0, 20, T 20⟩,
  ⟨a, b, c, d, 5, 5, T 21⟩, ⟨d, a, b, c, 10, 9, T 22⟩,
  ⟨c, d, a, b, 15, 14, T 23⟩, ⟨b, c, d, a, 4, 20, T 24⟩,
  ⟨a, b, c, d, 9, 5, T 25⟩, ⟨d, a, b, c, 14, 9, T 26⟩,
  ⟨c, d, a, b, 3, 14, T 27⟩, ⟨b, c, d, a, 8, 20, T 28⟩,
  ⟨a, b, c, d, 13, 5, T 29⟩, ⟨d, a, b, c, 2, 9, T 30⟩,
  ⟨c, d, a, b, 7, 14, T 31⟩, ⟨b, c, d, a, 12, 20, T 32⟩]

open Register in
/-- Round 3. -/
def round3 : List Set := [
  ⟨a, b, c, d, 5, 4, T 33⟩, ⟨d, a, b, c, 8, 11, T 34⟩,
  ⟨c, d, a, b, 11, 16, T 35⟩, ⟨b, c, d, a, 14, 23, T 36⟩,
  ⟨a, b, c, d, 1, 4, T 37⟩, ⟨d, a, b, c, 4, 11, T 38⟩,
  ⟨c, d, a, b, 7, 16, T 39⟩, ⟨b, c, d, a, 10, 23, T 40⟩,
  ⟨a, b, c, d, 13, 4, T 41⟩, ⟨d, a, b, c, 0, 11, T 42⟩,
  ⟨c, d, a, b, 3, 16, T 43⟩, ⟨b, c, d, a, 6, 23, T 44⟩,
  ⟨a, b, c, d, 9, 4, T 45⟩, ⟨d, a, b, c, 12, 11, T 46⟩,
  ⟨c, d, a, b, 15, 16, T 47⟩, ⟨b, c, d, a, 2, 23, T 48⟩]

open Register in
/-- Round 4. -/
def round4 : List Set := [
  ⟨a, b, c, d, 0, 6, T 49⟩, ⟨d, a, b, c, 7, 10, T 50⟩,
  ⟨c, d, a, b, 14, 15, T 51⟩, ⟨b, c, d, a, 5, 21, T 52⟩,
  ⟨a, b, c, d, 12, 6, T 53⟩, ⟨d, a, b, c, 3, 10, T 54⟩,
  ⟨c, d, a, b, 10, 15, T 55⟩, ⟨b, c, d, a, 1, 21, T 56⟩,
  ⟨a, b, c, d, 8, 6, T 57⟩, ⟨d, a, b, c, 15, 10, T 58⟩,
  ⟨c, d, a, b, 6, 15, T 59⟩, ⟨b, c, d, a, 13, 21, T 60⟩,
  ⟨a, b, c, d, 4, 6, T 61⟩, ⟨d, a, b, c, 11, 10, T 62⟩,
  ⟨c, d, a, b, 2, 15, T 63⟩, ⟨b, c, d, a, 9, 21, T 64⟩]

/-- The words of a block, as `md5_process` reads them. -/
def words (data : Bytes) : Vector UInt32 16 :=
  Vector.ofFn fun i =>
    let xp := data.drop (4 * i)
    (xp.getD 0 0).toUInt32 + ((xp.getD 1 0).toUInt32 <<< 8) + ((xp.getD 2 0).toUInt32 <<< 16) +
      ((xp.getD 3 0).toUInt32 <<< 24)

end Md5

open Md5

/-- `md5_process`. -/
def md5Process (pms : Md5State) (data : Bytes) : Md5State :=
  let X := words data
  let registers := round1.foldl (Set.exec F X) pms.abcd
  let registers := round2.foldl (Set.exec G X) registers
  let registers := round3.foldl (Set.exec H X) registers
  let registers := round4.foldl (Set.exec I X) registers
  { pms with abcd := pms.abcd.zipWith (· + ·) registers }

/-- The state before the first piece; its buffer holds whatever lies there. -/
def md5Init (buf : Buffer UInt8 64) : Md5State where
  count0 := 0
  count1 := 0
  abcd := #v[0x67452301, T_MASK ^^^ 0x10325476, T_MASK ^^^ 0x67452301, 0x10325476]
  buf := buf

/-- `md5_append` from the full blocks on. -/
def md5AppendBlocks (pms : Md5State) (p : Bytes) : Md5State :=
  let pms := absorb md5Process 64 pms p
  let left := rest 64 p
  { pms with buf := pms.buf.memcpy 0 left (by
      have hlength : left.length = p.length % 64 := length_rest 64 p
      omega) }

/-- `md5_append`, for pieces that its `int` can count in bits. -/
def md5Append (pms : Md5State) (data : Bytes) : Md5State :=
  let nbytes := data.length
  let offset := ((pms.count0 >>> 3) &&& 63).toNat
  let nbits := UInt32.ofNat (nbytes <<< 3)
  if nbytes = 0 then pms
  else
    let count0 := pms.count0 + nbits
    let count1 := pms.count1 + UInt32.ofNat (nbytes >>> 29) + if count0 < nbits then 1 else 0
    let pms := { pms with count0 := count0, count1 := count1 }
    if offset = 0 then md5AppendBlocks pms data
    else
      let copy := if 64 < offset + nbytes then 64 - offset else nbytes
      let pms := { pms with buf := pms.buf.memcpy offset (data.take copy) (by
        have hoffset : offset ≤ 63 := Nat.and_le_right
        rw [List.length_take]
        simp only [copy]
        split_ifs <;> omega) }
      if offset + copy < 64 then pms
      else md5AppendBlocks (md5Process pms pms.buf.1) (data.drop copy)

/-- `pad`. -/
def Md5.pad : Bytes := 0x80 :: List.replicate 63 0

/-- `md5_finish`. -/
def md5Finish (pms : Md5State) : Bytes :=
  let data := (List.range 8).map fun i =>
    ((if i >>> 2 = 0 then pms.count0 else pms.count1) >>>
      UInt32.ofNat ((i &&& 3) <<< 3)).toUInt8
  let pms := md5Append pms (pad.take ((((55 : UInt32) - (pms.count0 >>> 3)) &&& 63).toNat + 1))
  let pms := md5Append pms data
  (List.range 16).map fun i =>
    (pms.abcd.get (Fin.ofNat 4 (i >>> 2)) >>> UInt32.ofNat ((i &&& 3) <<< 3)).toUInt8

/-! ## The function as a loop -/

namespace Md5

/-- The constants, as the comments of the source have them. -/
def K : List UInt32 := [
  0xd76aa478, 0xe8c7b756, 0x242070db, 0xc1bdceee, 0xf57c0faf, 0x4787c62a,
  0xa8304613, 0xfd469501, 0x698098d8, 0x8b44f7af, 0xffff5bb1, 0x895cd7be,
  0x6b901122, 0xfd987193, 0xa679438e, 0x49b40821, 0xf61e2562, 0xc040b340,
  0x265e5a51, 0xe9b6c7aa, 0xd62f105d, 0x02441453, 0xd8a1e681, 0xe7d3fbc8,
  0x21e1cde6, 0xc33707d6, 0xf4d50d87, 0x455a14ed, 0xa9e3e905, 0xfcefa3f8,
  0x676f02d9, 0x8d2a4c8a, 0xfffa3942, 0x8771f681, 0x6d9d6122, 0xfde5380c,
  0xa4beea44, 0x4bdecfa9, 0xf6bb4b60, 0xbebfbc70, 0x289b7ec6, 0xeaa127fa,
  0xd4ef3085, 0x04881d05, 0xd9d4d039, 0xe6db99e5, 0x1fa27cf8, 0xc4ac5665,
  0xf4292244, 0x432aff97, 0xab9423a7, 0xfc93a039, 0x655b59c3, 0x8f0ccc92,
  0xffeff47d, 0x85845dd1, 0x6fa87e4f, 0xfe2ce6e0, 0xa3014314, 0x4e0811a1,
  0xf7537e82, 0xbd3af235, 0x2ad7d2bb, 0xeb86d391]

/-- The function of a turn. -/
def functionOf (i : ℕ) : UInt32 → UInt32 → UInt32 → UInt32 :=
  if i < 16 then F else if i < 32 then G else if i < 48 then H else I

/-- Which word of the block a turn takes. -/
def index (i : ℕ) : Fin 16 :=
  Fin.ofNat 16 (if i < 16 then i else if i < 32 then 5 * i + 1 else if i < 48 then 3 * i + 5
    else 7 * i)

/-- By how much a turn shifts. -/
def shift (i : ℕ) : UInt32 :=
  ([[7, 12, 17, 22], [5, 9, 14, 20], [4, 11, 16, 23], [6, 10, 15, 21]].getD (i / 16) []).getD
    (i % 4) 0

/-- A turn of the loop: the roles are computed from their values before it. -/
def turn (X : Vector UInt32 16) (v : Vector UInt32 4) (i : ℕ) : Vector UInt32 4 :=
  let sum := v.get 0 + functionOf i (v.get 1) (v.get 2) (v.get 3) + X.get (index i) + K.getD i 0
  #v[v.get 3, v.get 1 + ROTATE_LEFT sum (shift i), v.get 1, v.get 2]

/-- The loop over a block. -/
def compress (v : Vector UInt32 4) (block : Bytes) : Vector UInt32 4 :=
  v.zipWith (· + ·) ((List.range 64).foldl (turn (words block)) v)

end Md5

/-- MD5, with the length in eight bytes, the lowest first. -/
def md5Hash : BlockHash (Vector UInt32 4) where
  init := #v[0x67452301, 0xefcdab89, 0x98badcfe, 0x10325476]
  compress := Md5.compress
  lengthBytes := littleEndian 8
  digest := fun v => (List.range 4).flatMap fun j => littleEndian 4 (v.get (Fin.ofNat 4 j)).toNat

/-- The MD5 of a message. -/
def md5 (msg : Bytes) : Bytes := md5Hash.hash msg

/-! ## The operations written out are the loop -/

namespace Md5

/-- What the operation of a turn is: its registers are those that play its roles. -/
def Set.at (i : ℕ) : Set where
  a := 0 - Fin.ofNat 4 i
  b := 1 - Fin.ofNat 4 i
  c := 2 - Fin.ofNat 4 i
  d := 3 - Fin.ofNat 4 i
  k := index i
  s := shift i
  Ti := K.getD i 0

lemma round1_eq : round1 = (List.range' 0 16).map Set.at := by decide

lemma round2_eq : round2 = (List.range' 16 16).map Set.at := by decide

lemma round3_eq : round3 = (List.range' 32 16).map Set.at := by decide

lemma round4_eq : round4 = (List.range' 48 16).map Set.at := by decide

variable {f : UInt32 → UInt32 → UInt32 → UInt32} {X : Vector UInt32 16}
  {registers roles : Vector UInt32 4} {i start count : ℕ}

/-- **One operation is one turn.** -/
lemma rotated_exec (h : Rotated i registers roles) (hf : functionOf i = f) :
    Rotated (i + 1) ((Set.at i).exec f X registers) (turn X roles i) := by
  subst hf
  have hvalue : ROTATE_LEFT (registers.get (Set.at i).a + functionOf i (registers.get (Set.at i).b)
      (registers.get (Set.at i).c) (registers.get (Set.at i).d) + X.get (Set.at i).k + (Set.at i).Ti)
      (Set.at i).s + registers.get (Set.at i).b = (turn X roles i).get 1 := by
    simp only [Set.at]
    rw [h 0, h 1, h 2, h 3, UInt32.add_comm]
    rfl
  rw [Set.exec, hvalue]
  refine Rotated.next (h.write 0 _) fun r => ?_
  rw [get_write]
  fin_cases r <;> rfl

/-- The operations of a round are turns. -/
lemma rotated_round (count : ℕ) (h : Rotated start registers roles)
    (hf : ∀ i, start ≤ i → i < start + count → functionOf i = f) :
    Rotated (start + count)
      (((List.range' start count).map Set.at).foldl (Set.exec f X) registers)
      ((List.range' start count).foldl (turn X) roles) := by
  induction count generalizing start registers roles with
  | zero => exact h
  | succ count ih =>
      have hfirst := rotated_exec (X := X) h (hf start le_rfl (by omega))
      have hrest := ih hfirst fun i hi hlt => hf i (by omega) (by omega)
      rw [Nat.add_assoc, Nat.add_comm 1] at hrest
      exact hrest

lemma functionOf_eq (i : ℕ) : (i < 16 → functionOf i = F) ∧
    (16 ≤ i → i < 32 → functionOf i = G) ∧ (32 ≤ i → i < 48 → functionOf i = H) ∧
      (48 ≤ i → functionOf i = I) := by
  unfold functionOf
  refine ⟨fun h => if_pos h, fun hle h => ?_, fun hle h => ?_, fun hle => ?_⟩
  · rw [if_neg (by omega), if_pos h]
  · rw [if_neg (by omega), if_neg (by omega), if_pos h]
  · rw [if_neg (by omega), if_neg (by omega), if_neg (by omega)]

end Md5

/-- **The operations written out are the loop.** -/
theorem md5Process_eq (pms : Md5State) (data : Bytes) :
    md5Process pms data = { pms with abcd := Md5.compress pms.abcd data } := by
  have h1 := rotated_round (X := words data) 16 (Rotated.start pms.abcd)
    fun i _ hi => (functionOf_eq i).1 (by omega)
  have h2 := rotated_round (X := words data) 16 h1
    fun i hi hlt => (functionOf_eq i).2.1 (by omega) (by omega)
  have h3 := rotated_round (X := words data) 16 h2
    fun i hi hlt => (functionOf_eq i).2.2.1 (by omega) (by omega)
  have h4 := rotated_round (X := words data) 16 h3
    fun i hi _ => (functionOf_eq i).2.2.2 (by omega)
  have hloop : List.range 64 = List.range' 0 16 ++ List.range' 16 16 ++ List.range' 32 16 ++
      List.range' 48 16 := by decide
  have hregisters := h4.eq_of_dvd (by decide)
  rw [md5Process, round1_eq, round2_eq, round3_eq, round4_eq, Md5.compress, hloop, List.foldl_append,
    List.foldl_append, List.foldl_append]
  exact congrArg (fun registers => ({ pms with abcd := pms.abcd.zipWith (· + ·) registers } :
    Md5State)) hregisters

/-! ## A message in pieces -/

namespace Md5

/-- A state after a message: it holds back what does not fill a block, and counts the bits. -/
structure Holds (msg : Bytes) (pms : Md5State) : Prop where
  pending : Pending Md5.compress 64 md5Hash.init msg pms.abcd (pms.buf.1.take (msg.length % 64))
  count : pms.count1.toNat * 2 ^ 32 + pms.count0.toNat = 8 * msg.length % 2 ^ 64

variable {msg data : Bytes} {pms : Md5State}

lemma holds_md5Init (buf : Buffer UInt8 64) : Holds [] (md5Init buf) := by
  have hinit : #v[0x67452301, T_MASK ^^^ 0x10325476, T_MASK ^^^ 0x67452301, 0x10325476] =
      md5Hash.init := by decide
  refine ⟨?_, ?_⟩
  · rw [md5Init, hinit, List.length_nil, Nat.zero_mod, List.take_zero]
    exact Pending.start
  · simp [md5Init]

/-- The counter tells where the next byte goes. -/
lemma Holds.count_mod (h : Holds msg pms) : (pms.count0 >>> 3).toNat % 64 = msg.length % 64 := by
  have hcount := h.count
  have hthree : (3 : UInt32).toNat = 3 := rfl
  have hpow : 2 ^ (3 % 32) = 8 := rfl
  rw [UInt32.toNat_shiftRight, hthree, Nat.shiftRight_eq_div_pow, hpow]
  omega

lemma Holds.offset (h : Holds msg pms) : ((pms.count0 >>> 3) &&& 63).toNat = msg.length % 64 := by
  have hmask : (63 : UInt32).toNat = 2 ^ 6 - 1 := rfl
  rw [UInt32.toNat_and, hmask, Nat.and_two_pow_sub_one_eq_mod]
  exact h.count_mod

/-- The count after a piece. -/
lemma count_add {count0 count1 : UInt32} {nbytes length : ℕ} (hnbytes : nbytes < 2 ^ 28)
    (h : count1.toNat * 2 ^ 32 + count0.toNat = 8 * length % 2 ^ 64) :
    (count1 + UInt32.ofNat (nbytes >>> 29) +
        if count0 + UInt32.ofNat (nbytes <<< 3) < UInt32.ofNat (nbytes <<< 3) then 1 else 0).toNat *
          2 ^ 32 + (count0 + UInt32.ofNat (nbytes <<< 3)).toNat =
      8 * (length + nbytes) % 2 ^ 64 := by
  have hbits : (UInt32.ofNat (nbytes <<< 3)).toNat = 8 * nbytes := by
    rw [UInt32.toNat_ofNat', Nat.shiftLeft_eq]
    omega
  have hhigh : UInt32.ofNat (nbytes >>> 29) = 0 := by
    rw [Nat.shiftRight_eq_div_pow, Nat.div_eq_of_lt (by omega)]
    rfl
  rw [hhigh, UInt32.add_zero, add_carry, h, hbits, Nat.mod_add_mod, Nat.mul_add]

/-- The full blocks go, and what is left is held back. -/
lemma holds_md5AppendBlocks {p : Bytes}
    (h : Pending Md5.compress 64 md5Hash.init msg pms.abcd p)
    (hcount : pms.count1.toNat * 2 ^ 32 + pms.count0.toNat = 8 * msg.length % 2 ^ 64) :
    Holds msg (md5AppendBlocks pms p) := by
  have habsorb : absorb md5Process 64 pms p =
      { pms with abcd := absorb Md5.compress 64 pms.abcd p } :=
    absorb_part (fun abcd => ({ pms with abcd := abcd } : Md5State))
      (fun abcd block => md5Process_eq _ block) pms.abcd p
  unfold md5AppendBlocks
  simp only [habsorb]
  constructor
  · have hleft : msg.length % 64 = 0 + (rest 64 p).length := by
      rw [length_rest, h.length_mod, Nat.zero_add]
    rw [Buffer.take_memcpy _ _ hleft.symm, List.take_zero, List.nil_append]
    exact h.rest (by decide)
  · exact hcount

/-- The front of a piece fills the block that was begun, and the rest of the piece follows. -/
lemma holds_md5Process (pms : Md5State) {place copy : ℕ}
    (h : Pending Md5.compress 64 md5Hash.init msg pms.abcd (pms.buf.1.take place))
    (hcount : pms.count1.toNat * 2 ^ 32 + pms.count0.toNat = 8 * (msg ++ data).length % 2 ^ 64)
    (buf : Buffer UInt8 64) (hbuf : buf.1.take 64 = pms.buf.1.take place ++ data.take copy) :
    Holds (msg ++ data)
      (md5AppendBlocks (md5Process { pms with buf := buf } buf.1) (data.drop copy)) := by
  rw [md5Process_eq]
  refine holds_md5AppendBlocks ?_ hcount
  rw [List.take_of_length_le buf.2.le] at hbuf
  have hblock := absorb_block (f := Md5.compress) (s := pms.abcd) (by decide : 0 < 64) buf.2
  have hgrown := h.append data
  rw [← List.take_append_drop copy data, ← List.append_assoc (pms.buf.1.take place), ← hbuf]
    at hgrown
  have htaken := hgrown.absorb (by decide) (Dvd.intro 1 (by rw [buf.2]; rfl))
  rw [hblock, List.take_append_drop] at htaken
  exact htaken

/-- **A piece makes the message longer by itself**, whether it fills a block or not. -/
theorem holds_md5Append (hdata : data.length < 2 ^ 28) (h : Holds msg pms) :
    Holds (msg ++ data) (md5Append pms data) := by
  have hoffset := h.offset
  have hpending := h.pending
  have hcount := count_add hdata h.count
  rw [← List.length_append] at hcount
  unfold md5Append
  simp only [hoffset]
  generalize pms.count1 + UInt32.ofNat (data.length >>> 29) +
    (if pms.count0 + UInt32.ofNat (data.length <<< 3) < UInt32.ofNat (data.length <<< 3) then 1
      else 0) = count1 at hcount ⊢
  generalize pms.count0 + UInt32.ofNat (data.length <<< 3) = count0 at hcount ⊢
  have hroom : msg.length % 64 < 64 := Nat.mod_lt _ (by decide)
  by_cases hempty : data.length = 0
  · rw [if_pos hempty, List.eq_nil_of_length_eq_zero hempty, List.append_nil]
    exact h
  rw [if_neg hempty]
  by_cases hstart : msg.length % 64 = 0
  · rw [if_pos hstart]
    rw [hstart, List.take_zero] at hpending
    exact holds_md5AppendBlocks (hpending.append data) hcount
  rw [if_neg hstart]
  by_cases hfull : 64 < msg.length % 64 + data.length
  · have hplace : msg.length % 64 + (data.take (64 - msg.length % 64)).length = 64 := by
      rw [List.length_take]
      omega
    simp only [if_pos hfull]
    rw [if_neg (by omega)]
    exact holds_md5Process { pms with count0 := count0, count1 := count1 } hpending hcount _
      (pms.buf.take_memcpy hplace.le hplace)
  · have htake : data.take data.length = data := List.take_length
    simp only [if_neg hfull]
    by_cases hshort : msg.length % 64 + data.length < 64
    · rw [if_pos hshort]
      refine ⟨?_, hcount⟩
      have hlength : (msg ++ data).length % 64 = msg.length % 64 + data.length := by
        rw [List.length_append]
        omega
      have hheld : pms.buf.1.take (msg.length % 64) ++ data.take data.length =
          pms.buf.1.take (msg.length % 64) ++ data := by rw [htake]
      rw [Buffer.take_memcpy _ _ (by rw [hlength, htake]), hheld]
      exact hpending.append data
    · have hplace : msg.length % 64 + (data.take data.length).length = 64 := by
        rw [htake]
        omega
      rw [if_neg hshort]
      exact holds_md5Process { pms with count0 := count0, count1 := count1 } hpending hcount
        _ (pms.buf.take_memcpy hplace.le hplace)

end Md5

open Md5

/-- A message in pieces is held like one. -/
lemma holds_pieces (buf : Buffer UInt8 64) (pieces : List Bytes)
    (h : ∀ piece ∈ pieces, piece.length < 2 ^ 28) :
    Holds pieces.flatten (pieces.foldl md5Append (md5Init buf)) := by
  induction pieces using List.reverseRecOn with
  | nil => exact holds_md5Init buf
  | append_singleton pieces piece ih =>
      rw [List.foldl_append, List.flatten_append, List.flatten_singleton]
      exact holds_md5Append (h piece (by simp)) (ih fun p hp => h p (by simp [hp]))

namespace Md5

/-- The length that is put behind the message. -/
lemma data_eq {count0 count1 : UInt32} {length : ℕ}
    (h : count1.toNat * 2 ^ 32 + count0.toNat = 8 * length % 2 ^ 64) :
    ((List.range 8).map fun i => ((if i >>> 2 = 0 then count0 else count1) >>>
      UInt32.ofNat ((i &&& 3) <<< 3)).toUInt8) = md5Hash.lengthBytes (8 * length) := by
  have hwords := bytes_of_words (fun j => if j = 0 then count0 else count1) 2
  have hlow := count0.toNat_lt
  have hcount0 : (count1.toNat * 2 ^ 32 + count0.toNat) % 2 ^ (8 * 4) = count0.toNat := by omega
  have hcount1 : (count1.toNat * 2 ^ 32 + count0.toNat) >>> (8 * 4) = count1.toNat := by
    rw [Nat.shiftRight_eq_div_pow]
    omega
  calc ((List.range 8).map fun i => ((if i >>> 2 = 0 then count0 else count1) >>>
        UInt32.ofNat ((i &&& 3) <<< 3)).toUInt8)
      = littleEndian 4 count0.toNat ++ littleEndian 4 count1.toNat := hwords
    _ = littleEndian (4 + 4) (count1.toNat * 2 ^ 32 + count0.toNat) := by
        rw [littleEndian_add, hcount1, ← littleEndian_mod 4 (_ + _), hcount0]
    _ = littleEndian 8 (8 * length) := by
        rw [h]
        exact littleEndian_mod 8 (8 * length)

/-- The mark and the zeros, as they are cut from `pad`. -/
lemma pad_take {count0 : UInt32} {length : ℕ} (h : (count0 >>> 3).toNat % 64 = length % 64) :
    pad.take ((((55 : UInt32) - (count0 >>> 3)) &&& 63).toNat + 1) =
      128 :: List.replicate (zeros length) 0 := by
  have hmask : (63 : UInt32).toNat = 2 ^ 6 - 1 := rfl
  have hfiftyFive : (55 : UInt32).toNat = 55 := rfl
  have hlt := (count0 >>> 3).toNat_lt
  have hzeros : (((55 : UInt32) - (count0 >>> 3)) &&& 63).toNat = zeros length := by
    rw [UInt32.toNat_and, hmask, Nat.and_two_pow_sub_one_eq_mod, UInt32.toNat_sub, hfiftyFive,
      zeros]
    omega
  have hle : zeros length ≤ 63 := Nat.le_of_lt_succ (Nat.mod_lt _ (by decide))
  rw [hzeros, pad, List.take_succ_cons, List.take_replicate, min_eq_left hle]

end Md5

/-- **The digest of a message in pieces is its MD5**, wherever it was cut. -/
theorem md5_of_pieces (buf : Buffer UInt8 64) (pieces : List Bytes)
    (h : ∀ piece ∈ pieces, piece.length < 2 ^ 28) :
    md5Finish (pieces.foldl md5Append (md5Init buf)) = md5 pieces.flatten := by
  have hheld := holds_pieces buf pieces h
  generalize pieces.foldl md5Append (md5Init buf) = pms at hheld ⊢
  generalize pieces.flatten = msg at hheld ⊢
  unfold md5Finish
  simp only [data_eq hheld.count, pad_take hheld.count_mod]
  have hzeros : zeros msg.length ≤ 63 := Nat.le_of_lt_succ (Nat.mod_lt _ (by decide))
  have hmark : (128 :: List.replicate (zeros msg.length) (0 : UInt8)).length < 2 ^ 28 := by
    rw [List.length_cons, List.length_replicate]
    omega
  have hlength : (md5Hash.lengthBytes (8 * msg.length)).length < 2 ^ 28 := by
    rw [show (md5Hash.lengthBytes (8 * msg.length)).length = 8 from length_littleEndian 8 _]
    decide
  have hpadded := holds_md5Append hlength (holds_md5Append hmark hheld)
  generalize md5Append (md5Append pms _) _ = pms at hpadded ⊢
  have hnone : (msg ++ 128 :: List.replicate (zeros msg.length) 0 ++
      md5Hash.lengthBytes (8 * msg.length)).length % 64 = 0 := by
    rw [List.append_assoc, List.length_append]
    exact add_length_padding (H := md5Hash) (fun n => length_littleEndian 8 n) msg.length
  have hpending := hpadded.pending
  rw [hnone, List.take_zero, List.append_assoc] at hpending
  have hdigest := bytes_of_words (fun j => pms.abcd.get (Fin.ofNat 4 j)) 4
  exact hdigest.trans hpending.hash

/-- The hash of `abc`. -/
example : md5 [97, 98, 99] = [0x90, 0x01, 0x50, 0x98, 0x3c, 0xd2, 0x4f, 0xb0, 0xd6, 0x96, 0x3f,
    0x7d, 0x28, 0xe1, 0x7f, 0x72] := by decide +kernel

end Clarc
