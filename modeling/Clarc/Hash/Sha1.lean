import Clarc.Core.BlockHash
import Clarc.Core.Bytes
import Clarc.Core.Loops

/-!
# SHA-1: `sha1.c`

The signature of a request is a SHA-1 of keyed bytes.  `sha1.c` keeps the schedule of a block in
sixteen words that it writes over as it goes, writes its 80 rounds out with five registers whose
roles rotate, and buffers up to two blocks; where the machine wants words at even addresses it takes
another path through pieces that do not lie so.

* `processBlock_eq` — **the rounds written out, on sixteen words, are the loop over the schedule of
  80 words**;
* `Sha1.Holds` — what a context has taken in and what it holds back;
  `holds_sha1ProcessBytes` — a piece makes the message longer by itself;
* `sha1_of_pieces` — **the digest of a message in pieces is its SHA-1**, wherever it was cut and at
  whatever addresses the pieces lay.
-/

namespace Clarc

open BlockHash

/-! ## The program -/

/-- `struct sha1_ctx`: the registers `A` to `E`, the count of the bytes that went through them, and
the bytes that wait.  Between two calls no more than a block waits. -/
structure Sha1Ctx where
  registers : Vector UInt32 5
  total0 : UInt32
  total1 : UInt32
  buflen : ℕ
  buffer : Buffer UInt8 128
  buflen_le : buflen ≤ 64

namespace Sha1

/-- `SWAP`, on a machine that has the lowest byte of a word first. -/
def SWAP (n : UInt32) : UInt32 :=
  (n <<< 24) ||| ((n &&& (0xff00 : UInt32)) <<< 8) ||| ((n >>> 8) &&& (0xff00 : UInt32)) |||
    (n >>> 24)

/-- A word as that machine reads it. -/
def load (bytes : Bytes) : UInt32 :=
  (bytes.getD 0 0).toUInt32 ||| ((bytes.getD 1 0).toUInt32 <<< 8) |||
    ((bytes.getD 2 0).toUInt32 <<< 16) ||| ((bytes.getD 3 0).toUInt32 <<< 24)

/-- A word as that machine writes it, as `set_uint32` does too. -/
def store (n : UInt32) : Bytes := littleEndian 4 n.toNat

def rol (x n : UInt32) : UInt32 := (x <<< n) ||| (x >>> (32 - n))

def K1 : UInt32 := 0x5a827999

def K2 : UInt32 := 0x6ed9eba1

def K3 : UInt32 := 0x8f1bbcdc

def K4 : UInt32 := 0xca62c1d6

def F1 (b c d : UInt32) : UInt32 := d ^^^ (b &&& (c ^^^ d))

def F2 (b c d : UInt32) : UInt32 := b ^^^ c ^^^ d

def F3 (b c d : UInt32) : UInt32 := (b &&& c) ||| (d &&& (b ||| c))

def F4 (b c d : UInt32) : UInt32 := b ^^^ c ^^^ d

/-- The last operand of the macro `R`: a word of the block, or one that is computed in its place. -/
inductive Operand
  | x (i : ℕ)
  | M (I : ℕ)
  deriving DecidableEq

/-- The word, and the sixteen words after it. -/
def Operand.value (x : Vector UInt32 16) : Operand → UInt32 × Vector UInt32 16
  | .x i => (x.get (Fin.ofNat 16 i), x)
  | .M I =>
      let tm := x.get (Fin.ofNat 16 I) ^^^ x.get (Fin.ofNat 16 (I - 14)) ^^^
        x.get (Fin.ofNat 16 (I - 8)) ^^^ x.get (Fin.ofNat 16 (I - 3))
      (rol tm 1, BlockHash.write x (Fin.ofNat 16 I) (rol tm 1))

/-- One use of the macro `R`, without the function and the constant of its round. -/
structure R where
  A : Fin 5
  B : Fin 5
  C : Fin 5
  D : Fin 5
  E : Fin 5
  M : Operand
  deriving DecidableEq

/-- `R(A, B, C, D, E, F, K, M)`. -/
def R.exec (F : UInt32 → UInt32 → UInt32 → UInt32) (K : UInt32)
    (state : Vector UInt32 5 × Vector UInt32 16) (op : R) : Vector UInt32 5 × Vector UInt32 16 :=
  let (registers, x) := state
  let (M, x) := op.M.value x
  let E := registers.get op.E + (rol (registers.get op.A) 5 +
    F (registers.get op.B) (registers.get op.C) (registers.get op.D) + K + M)
  let registers := BlockHash.write registers op.E E
  (BlockHash.write registers op.B (rol (registers.get op.B) 30), x)

namespace Register

abbrev a : Fin 5 := 0
abbrev b : Fin 5 := 1
abbrev c : Fin 5 := 2
abbrev d : Fin 5 := 3
abbrev e : Fin 5 := 4

end Register

open Register in
/-- The rounds with `F1`. -/
def rounds1 : List R := [
  ⟨a, b, c, d, e, .x 0⟩, ⟨e, a, b, c, d, .x 1⟩, ⟨d, e, a, b, c, .x 2⟩,
  ⟨c, d, e, a, b, .x 3⟩, ⟨b, c, d, e, a, .x 4⟩, ⟨a, b, c, d, e, .x 5⟩,
  ⟨e, a, b, c, d, .x 6⟩, ⟨d, e, a, b, c, .x 7⟩, ⟨c, d, e, a, b, .x 8⟩,
  ⟨b, c, d, e, a, .x 9⟩, ⟨a, b, c, d, e, .x 10⟩, ⟨e, a, b, c, d, .x 11⟩,
  ⟨d, e, a, b, c, .x 12⟩, ⟨c, d, e, a, b, .x 13⟩, ⟨b, c, d, e, a, .x 14⟩,
  ⟨a, b, c, d, e, .x 15⟩, ⟨e, a, b, c, d, .M 16⟩, ⟨d, e, a, b, c, .M 17⟩,
  ⟨c, d, e, a, b, .M 18⟩, ⟨b, c, d, e, a, .M 19⟩]

open Register in
/-- The rounds with `F2`. -/
def rounds2 : List R := [
  ⟨a, b, c, d, e, .M 20⟩, ⟨e, a, b, c, d, .M 21⟩, ⟨d, e, a, b, c, .M 22⟩,
  ⟨c, d, e, a, b, .M 23⟩, ⟨b, c, d, e, a, .M 24⟩, ⟨a, b, c, d, e, .M 25⟩,
  ⟨e, a, b, c, d, .M 26⟩, ⟨d, e, a, b, c, .M 27⟩, ⟨c, d, e, a, b, .M 28⟩,
  ⟨b, c, d, e, a, .M 29⟩, ⟨a, b, c, d, e, .M 30⟩, ⟨e, a, b, c, d, .M 31⟩,
  ⟨d, e, a, b, c, .M 32⟩, ⟨c, d, e, a, b, .M 33⟩, ⟨b, c, d, e, a, .M 34⟩,
  ⟨a, b, c, d, e, .M 35⟩, ⟨e, a, b, c, d, .M 36⟩, ⟨d, e, a, b, c, .M 37⟩,
  ⟨c, d, e, a, b, .M 38⟩, ⟨b, c, d, e, a, .M 39⟩]

open Register in
/-- The rounds with `F3`. -/
def rounds3 : List R := [
  ⟨a, b, c, d, e, .M 40⟩, ⟨e, a, b, c, d, .M 41⟩, ⟨d, e, a, b, c, .M 42⟩,
  ⟨c, d, e, a, b, .M 43⟩, ⟨b, c, d, e, a, .M 44⟩, ⟨a, b, c, d, e, .M 45⟩,
  ⟨e, a, b, c, d, .M 46⟩, ⟨d, e, a, b, c, .M 47⟩, ⟨c, d, e, a, b, .M 48⟩,
  ⟨b, c, d, e, a, .M 49⟩, ⟨a, b, c, d, e, .M 50⟩, ⟨e, a, b, c, d, .M 51⟩,
  ⟨d, e, a, b, c, .M 52⟩, ⟨c, d, e, a, b, .M 53⟩, ⟨b, c, d, e, a, .M 54⟩,
  ⟨a, b, c, d, e, .M 55⟩, ⟨e, a, b, c, d, .M 56⟩, ⟨d, e, a, b, c, .M 57⟩,
  ⟨c, d, e, a, b, .M 58⟩, ⟨b, c, d, e, a, .M 59⟩]

open Register in
/-- The rounds with `F4`. -/
def rounds4 : List R := [
  ⟨a, b, c, d, e, .M 60⟩, ⟨e, a, b, c, d, .M 61⟩, ⟨d, e, a, b, c, .M 62⟩,
  ⟨c, d, e, a, b, .M 63⟩, ⟨b, c, d, e, a, .M 64⟩, ⟨a, b, c, d, e, .M 65⟩,
  ⟨e, a, b, c, d, .M 66⟩, ⟨d, e, a, b, c, .M 67⟩, ⟨c, d, e, a, b, .M 68⟩,
  ⟨b, c, d, e, a, .M 69⟩, ⟨a, b, c, d, e, .M 70⟩, ⟨e, a, b, c, d, .M 71⟩,
  ⟨d, e, a, b, c, .M 72⟩, ⟨c, d, e, a, b, .M 73⟩, ⟨b, c, d, e, a, .M 74⟩,
  ⟨a, b, c, d, e, .M 75⟩, ⟨e, a, b, c, d, .M 76⟩, ⟨d, e, a, b, c, .M 77⟩,
  ⟨c, d, e, a, b, .M 78⟩, ⟨b, c, d, e, a, .M 79⟩]

/-- The words of a block. -/
def words (block : Bytes) : Vector UInt32 16 :=
  Vector.ofFn fun t => SWAP (load (block.drop (4 * t)))

/-- One turn of the loop of `sha1_process_block`. -/
def processOne (registers : Vector UInt32 5) (block : Bytes) : Vector UInt32 5 :=
  let state := (registers, words block)
  let state := rounds1.foldl (R.exec F1 K1) state
  let state := rounds2.foldl (R.exec F2 K2) state
  let state := rounds3.foldl (R.exec F3 K3) state
  let state := rounds4.foldl (R.exec F4 K4) state
  registers.zipWith (· + ·) state.1

end Sha1

open Sha1

/-- `sha1_process_block`: whole blocks, in the buffer or in the piece itself. -/
def sha1ProcessBlock (buffer : Bytes) (ctx : Sha1Ctx) : Sha1Ctx :=
  let len := buffer.length
  let lolen := UInt32.ofNat len
  let total0 := ctx.total0 + lolen
  let total1 := ctx.total1 + (UInt32.ofNat (len >>> 31 >>> 1) + if total0 < lolen then 1 else 0)
  { ctx with registers := absorb processOne 64 ctx.registers buffer,
             total0 := total0, total1 := total1 }

/-- `sha1_init_ctx`; the buffer holds whatever lies there. -/
def sha1InitCtx (buffer : Buffer UInt8 128) : Sha1Ctx where
  registers := #v[0x67452301, 0xefcdab89, 0x98badcfe, 0x10325476, 0xc3d2e1f0]
  total0 := 0
  total1 := 0
  buflen := 0
  buffer := buffer
  buflen_le := Nat.zero_le _

/-- So many bytes of a piece are put behind those that wait, and whole blocks go. -/
def Sha1.fillWith (buffer : Bytes) (ctx : Sha1Ctx) (add : ℕ) (hadd : add ≤ 128 - ctx.buflen) :
    Sha1Ctx :=
  have htake : (buffer.take add).length ≤ add := List.length_take_le _ _
  have hbuflen := ctx.buflen_le
  let left_over := ctx.buflen
  let filled := ctx.buffer.memcpy left_over (buffer.take add) (by omega)
  let buflen := left_over + add
  if h : 64 < buflen then
    let whole := buflen / 64 * 64
    let ctx := sha1ProcessBlock (filled.1.take whole) ctx
    have hrest : ((filled.1.drop whole).take (buflen % 64)).length ≤ buflen % 64 :=
      List.length_take_le _ _
    { ctx with buflen := buflen % 64,
               buffer := filled.memcpy 0 ((filled.1.drop whole).take (buflen % 64)) (by omega),
               buflen_le := by omega }
  else { ctx with buflen := buflen, buffer := filled, buflen_le := by omega }

/-- `sha1_process_bytes` where bytes wait already: the piece fills the buffer up to two blocks.
How much of it went is told too. -/
def Sha1.fillBuffer (buffer : Bytes) (ctx : Sha1Ctx) : Sha1Ctx × ℕ :=
  let left_over := ctx.buflen
  let add := if buffer.length < 128 - left_over then buffer.length else 128 - left_over
  (Sha1.fillWith buffer ctx add (by simp only [add, left_over]; split_ifs <;> omega), add)

/-- The loop over a piece at an odd address, which leaves at most a block. -/
def Sha1.unalignedBlocks : (fuel : ℕ) → (buffer : Bytes) → Sha1Ctx → buffer.length ≤ fuel →
    Sha1Ctx × { left : Bytes // left.length ≤ 64 }
  | 0, buffer, ctx, h => (ctx, ⟨buffer, by omega⟩)
  | fuel + 1, buffer, ctx, h =>
      if hlong : 64 < buffer.length then
        have hblock : (buffer.take 64).length = 64 := by
          rw [List.length_take]
          omega
        let ctx := { ctx with buffer := ctx.buffer.memcpy 0 (buffer.take 64) (by omega) }
        Sha1.unalignedBlocks fuel (buffer.drop 64)
          (sha1ProcessBlock (ctx.buffer.1.take 64) ctx) (by rw [List.length_drop]; omega)
      else (ctx, ⟨buffer, by omega⟩)

/-- The complete blocks of a piece at an address. -/
def Sha1.completeBlocks (address : ℕ) (buffer : Bytes) (ctx : Sha1Ctx) :
    Sha1Ctx × { left : Bytes // left.length ≤ 64 } :=
  if hlong : 64 ≤ buffer.length then
    if address % 4 ≠ 0 then Sha1.unalignedBlocks buffer.length buffer ctx le_rfl
    else
      let whole := buffer.length / 64 * 64
      (sha1ProcessBlock (buffer.take whole) ctx, ⟨buffer.drop whole, by
        rw [List.length_drop]
        omega⟩)
  else (ctx, ⟨buffer, by omega⟩)

/-- The rest of a piece, at most a block, moves to the buffer. -/
def Sha1.moveRest (buffer : { left : Bytes // left.length ≤ 64 }) (ctx : Sha1Ctx) : Sha1Ctx :=
  if 0 < buffer.1.length then
    have hbuflen := ctx.buflen_le
    have hlength := buffer.2
    let left_over := ctx.buflen
    let filled := ctx.buffer.memcpy left_over buffer.1 (by omega)
    let left_over := left_over + buffer.1.length
    if hfull : 64 ≤ left_over then
      let ctx := sha1ProcessBlock (filled.1.take 64) { ctx with buffer := filled }
      have hrest : ((filled.1.drop 64).take (left_over - 64)).length ≤ 64 := by
        rw [List.length_take]
        omega
      { ctx with buflen := left_over - 64,
                 buffer := filled.memcpy 0 ((filled.1.drop 64).take (left_over - 64)) (by omega),
                 buflen_le := by omega }
    else { ctx with buflen := left_over, buffer := filled, buflen_le := by omega }
  else ctx

/-- `sha1_process_bytes` on a piece at an address. -/
def sha1ProcessBytes (address : ℕ) (buffer : Bytes) (ctx : Sha1Ctx) : Sha1Ctx :=
  let (ctx, add) := if ctx.buflen ≠ 0 then fillBuffer buffer ctx else (ctx, 0)
  let (ctx, left) := completeBlocks (address + add) (buffer.drop add) ctx
  moveRest left ctx

/-- `fillbuf`. -/
def Sha1.fillbuf : Bytes := 0x80 :: List.replicate 63 0

/-- `sha1_read_ctx`. -/
def sha1ReadCtx (ctx : Sha1Ctx) : Bytes :=
  store (SWAP (ctx.registers.get 0)) ++ store (SWAP (ctx.registers.get 1)) ++
    store (SWAP (ctx.registers.get 2)) ++ store (SWAP (ctx.registers.get 3)) ++
      store (SWAP (ctx.registers.get 4))

/-- `sha1_finish_ctx`. -/
def sha1FinishCtx (ctx : Sha1Ctx) : Bytes :=
  let bytes := ctx.buflen
  let size := if bytes < 56 then 64 / 4 else 64 * 2 / 4
  have hsize : size = 16 ∨ size = 32 := by
    simp only [size]
    split_ifs <;> simp
  have hbytes : bytes ≤ (size - 2) * 4 := by
    have hbuflen := ctx.buflen_le
    simp only [size]
    split_ifs <;> omega
  let total0 := ctx.total0 + UInt32.ofNat bytes
  let total1 := if total0 < UInt32.ofNat bytes then ctx.total1 + 1 else ctx.total1
  let buffer := ctx.buffer.memcpy (4 * (size - 2))
    (store (SWAP ((total1 <<< 3) ||| (total0 >>> 29)))) (by rw [store, length_littleEndian]; omega)
  let buffer := buffer.memcpy (4 * (size - 1)) (store (SWAP (total0 <<< 3)))
    (by rw [store, length_littleEndian]; omega)
  let buffer := buffer.memcpy bytes (fillbuf.take ((size - 2) * 4 - bytes))
    (by rw [List.length_take]; omega)
  sha1ReadCtx (sha1ProcessBlock (buffer.1.take (size * 4))
    { ctx with total0 := total0, total1 := total1, buffer := buffer })

/-! ## The function as a loop -/

namespace Sha1

def Ch (x y z : UInt32) : UInt32 := (x &&& y) ^^^ (~~~x &&& z)

def Parity (x y z : UInt32) : UInt32 := x ^^^ y ^^^ z

def Maj (x y z : UInt32) : UInt32 := (x &&& y) ^^^ (x &&& z) ^^^ (y &&& z)

/-- The function of a turn. -/
def functionOf (t : ℕ) : UInt32 → UInt32 → UInt32 → UInt32 :=
  if t < 20 then Ch else if t < 40 then Parity else if t < 60 then Maj else Parity

/-- The constant of a turn. -/
def constantOf (t : ℕ) : UInt32 :=
  if t < 20 then 0x5a827999 else if t < 40 then 0x6ed9eba1 else if t < 60 then 0x8f1bbcdc
    else 0xca62c1d6

/-- The highest byte of a word comes first. -/
def word (bytes : Bytes) : UInt32 :=
  ((bytes.getD 0 0).toUInt32 <<< 24) ||| ((bytes.getD 1 0).toUInt32 <<< 16) |||
    ((bytes.getD 2 0).toUInt32 <<< 8) ||| (bytes.getD 3 0).toUInt32

/-- The words of a block and so many after them. -/
def schedule (block : Bytes) : ℕ → List UInt32
  | 0 => (List.range 16).map fun t => word (block.drop (4 * t))
  | n + 1 =>
      let W := schedule block n
      W ++ [rol (W.getD (n + 13) 0 ^^^ W.getD (n + 8) 0 ^^^ W.getD (n + 2) 0 ^^^ W.getD n 0) 1]

/-- A turn of the loop. -/
def turn (W : List UInt32) (v : Vector UInt32 5) (t : ℕ) : Vector UInt32 5 :=
  #v[rol (v.get 0) 5 + functionOf t (v.get 1) (v.get 2) (v.get 3) + v.get 4 + constantOf t +
      W.getD t 0,
    v.get 0, rol (v.get 1) 30, v.get 2, v.get 3]

/-- The loop over a block. -/
def compress (v : Vector UInt32 5) (block : Bytes) : Vector UInt32 5 :=
  v.zipWith (· + ·) ((List.range 80).foldl (turn (schedule block 64)) v)

end Sha1

/-- SHA-1, with the length in eight bytes, the highest first. -/
def sha1Hash : BlockHash (Vector UInt32 5) where
  init := #v[0x67452301, 0xefcdab89, 0x98badcfe, 0x10325476, 0xc3d2e1f0]
  compress := Sha1.compress
  lengthBytes := bigEndian 8
  digest := fun v => (List.range 5).flatMap fun j => bigEndian 4 (v.get (Fin.ofNat 5 j)).toNat

/-- The SHA-1 of a message. -/
def sha1 (msg : Bytes) : Bytes := sha1Hash.hash msg

/-! ## The rounds written out are the loop -/

namespace Sha1

/-! ### Words -/

lemma F1_eq (b c d : UInt32) : F1 b c d = Ch b c d := by
  rw [← UInt32.toBitVec_inj]
  refine BitVec.eq_of_getLsbD_eq fun i hi => ?_
  simp only [F1, Ch, UInt32.toBitVec_xor, UInt32.toBitVec_and, UInt32.toBitVec_not,
    BitVec.getLsbD_xor, BitVec.getLsbD_and, BitVec.getLsbD_not, hi, decide_true, Bool.true_and]
  cases b.toBitVec.getLsbD i <;> cases c.toBitVec.getLsbD i <;> cases d.toBitVec.getLsbD i <;> rfl

lemma F3_eq (b c d : UInt32) : F3 b c d = Maj b c d := by
  rw [← UInt32.toBitVec_inj]
  refine BitVec.eq_of_getLsbD_eq fun i hi => ?_
  simp only [F3, Maj, UInt32.toBitVec_xor, UInt32.toBitVec_and, UInt32.toBitVec_or,
    BitVec.getLsbD_xor, BitVec.getLsbD_and, BitVec.getLsbD_or]
  cases b.toBitVec.getLsbD i <;> cases c.toBitVec.getLsbD i <;> cases d.toBitVec.getLsbD i <;> rfl

/-- What the machine reads, the other way round. -/
lemma swap_load (bytes : Bytes) : SWAP (load bytes) = word bytes := by
  rw [← UInt32.toBitVec_inj]
  refine BitVec.eq_of_getLsbD_eq fun i hi => ?_
  simp only [SWAP, load, word, UInt32.toBitVec_or, UInt32.toBitVec_and, UInt32.toBitVec_shiftLeft,
    UInt32.toBitVec_shiftRight, BitVec.getLsbD_or, BitVec.getLsbD_and]
  interval_cases i <;> simp

/-- What the machine writes, the other way round. -/
lemma store_swap (n : UInt32) : store (SWAP n) = bigEndian 4 n.toNat := by
  have hbytes : ∀ x : UInt32, littleEndian 4 x.toNat =
      [(x >>> 0).toUInt8, (x >>> 8).toUInt8, (x >>> 16).toUInt8, (x >>> 24).toUInt8] :=
    fun x => ((bytes_of_words (fun _ => x) 1).trans (List.append_nil _)).symm
  rw [store, bigEndian, hbytes, hbytes]
  simp only [List.reverse_cons, List.reverse_nil, List.nil_append, List.cons_append,
    List.cons.injEq, and_true]
  refine ⟨?_, ?_, ?_, ?_⟩ <;>
    (rw [← UInt8.toBitVec_inj]
     refine BitVec.eq_of_getLsbD_eq fun i hi => ?_
     interval_cases i <;> simp [SWAP])

lemma words_get (block : Bytes) (t : ℕ) (ht : t < 16) :
    (words block).get (Fin.ofNat 16 t) = (schedule block 0).getD t 0 := by
  have hword : (schedule block 0).getD t 0 = word (block.drop (4 * t)) := by
    rw [schedule, List.getD_eq_getElem _ _ (by rwa [List.length_map, List.length_range]),
      List.getElem_map, List.getElem_range]
  rw [hword, words, Vector.get_ofFn, swap_load, Fin.val_ofNat, Nat.mod_eq_of_lt ht]

/-! ### The schedule -/

lemma length_schedule (block : Bytes) (n : ℕ) : (schedule block n).length = 16 + n := by
  induction n with
  | zero => rfl
  | succ n ih => rw [schedule, List.length_append, ih, List.length_singleton, Nat.add_assoc]

lemma getD_schedule_add (block : Bytes) {n t : ℕ} (m : ℕ) (ht : t < 16 + n) :
    (schedule block (n + m)).getD t 0 = (schedule block n).getD t 0 := by
  induction m with
  | zero => rfl
  | succ m ih =>
      rw [← Nat.add_assoc, schedule, List.getD_append _ _ _ _ (by rw [length_schedule]; omega), ih]

/-- A word of the schedule after the block. -/
lemma getD_schedule (block : Bytes) {n m : ℕ} (hn : n < m) :
    (schedule block m).getD (16 + n) 0 =
      rol ((schedule block m).getD (n + 13) 0 ^^^ (schedule block m).getD (n + 8) 0 ^^^
        (schedule block m).getD (n + 2) 0 ^^^ (schedule block m).getD n 0) 1 := by
  obtain ⟨k, rfl⟩ : ∃ k, m = n + 1 + k := ⟨m - (n + 1), by omega⟩
  have hbefore : ∀ t < 16 + n,
      (schedule block (n + 1 + k)).getD t 0 = (schedule block n).getD t 0 := by
    intro t ht
    rw [Nat.add_assoc]
    exact getD_schedule_add block (1 + k) ht
  rw [hbefore (n + 13) (by omega), hbefore (n + 8) (by omega), hbefore (n + 2) (by omega),
    hbefore n (by omega), getD_schedule_add block k (by omega), schedule,
    List.getD_append_right _ _ _ _ (length_schedule block n).le, length_schedule, Nat.sub_self]
  rfl

/-! ### Rounds -/

/-- What the operation of a turn is: its registers are those that play its roles. -/
def R.at (t : ℕ) : R where
  A := 0 - Fin.ofNat 5 t
  B := 1 - Fin.ofNat 5 t
  C := 2 - Fin.ofNat 5 t
  D := 3 - Fin.ofNat 5 t
  E := 4 - Fin.ofNat 5 t
  M := if t < 16 then .x t else .M t

lemma rounds1_eq : rounds1 = (List.range' 0 20).map R.at := by decide

lemma rounds2_eq : rounds2 = (List.range' 20 20).map R.at := by decide

lemma rounds3_eq : rounds3 = (List.range' 40 20).map R.at := by decide

lemma rounds4_eq : rounds4 = (List.range' 60 20).map R.at := by decide

variable {F : UInt32 → UInt32 → UInt32 → UInt32} {K : UInt32} {block : Bytes} {t start count : ℕ}
  {registers roles : Vector UInt32 5} {x : Vector UInt32 16}

/-- Before its turn `t` the program has the roles in its registers and the words that are still
needed in its window. -/
structure AtTurn (block : Bytes) (t : ℕ) (state : Vector UInt32 5 × Vector UInt32 16)
    (roles : Vector UInt32 5) : Prop where
  rotated : Rotated t state.1 roles
  window : Window (fun s => (schedule block 64).getD s 0) t state.2

lemma xor_reverse (a b c d : UInt32) : a ^^^ b ^^^ c ^^^ d = d ^^^ c ^^^ b ^^^ a := by ac_rfl

lemma add_rotate (e r f k w : UInt32) : e + (r + f + k + w) = r + f + e + k + w := by ac_rfl

/-- The operand of a turn is its word of the schedule. -/
lemma value_at (h : Window (fun s => (schedule block 64).getD s 0) t x) (ht : t < 80) :
    ((R.at t).M.value x).1 = (schedule block 64).getD t 0 ∧
      Window (fun s => (schedule block 64).getD s 0) (t + 1) ((R.at t).M.value x).2 := by
  by_cases hfirst : t < 16
  · rw [R.at, if_pos hfirst]
    exact ⟨h t (by omega) (by omega), h.skip hfirst⟩
  · have htm : rol (x.get (Fin.ofNat 16 t) ^^^ x.get (Fin.ofNat 16 (t - 14)) ^^^
        x.get (Fin.ofNat 16 (t - 8)) ^^^ x.get (Fin.ofNat 16 (t - 3))) 1 =
          (schedule block 64).getD t 0 := by
      obtain ⟨n, rfl⟩ : ∃ n, t = 16 + n := ⟨t - 16, by omega⟩
      have hplace : Fin.ofNat 16 (16 + n) = Fin.ofNat 16 n := by
        rw [Fin.ext_iff, Fin.val_ofNat, Fin.val_ofNat, Nat.add_mod_left]
      rw [hplace, h n (by omega) (by omega), h (16 + n - 14) (by omega) (by omega),
        h (16 + n - 8) (by omega) (by omega), h (16 + n - 3) (by omega) (by omega),
        getD_schedule block (by omega), Nat.add_comm 16 n]
      have h14 : n + 16 - 14 = n + 2 := by omega
      have h8 : n + 16 - 8 = n + 8 := by omega
      have h3 : n + 16 - 3 = n + 13 := by omega
      rw [h14, h8, h3, xor_reverse]
    rw [R.at, if_neg hfirst]
    simp only [Operand.value]
    rw [htm]
    exact ⟨rfl, h.write (by omega)⟩

/-- **One operation is one turn.** -/
lemma atTurn_exec {state : Vector UInt32 5 × Vector UInt32 16} (h : AtTurn block t state roles)
    (ht : t < 80) (hF : ∀ b c d, F b c d = functionOf t b c d) (hK : K = constantOf t) :
    AtTurn block (t + 1) ((R.at t).exec F K state) (turn (schedule block 64) roles t) := by
  obtain ⟨registers, x⟩ := state
  obtain ⟨hvalue, hwindow⟩ := value_at h.window ht
  have hrotated : Rotated t registers roles := h.rotated
  have hA : registers.get (R.at t).A = roles.get 0 := hrotated 0
  have hB : registers.get (R.at t).B = roles.get 1 := hrotated 1
  have hC : registers.get (R.at t).C = roles.get 2 := hrotated 2
  have hD : registers.get (R.at t).D = roles.get 3 := hrotated 3
  have hE : registers.get (R.at t).E = roles.get 4 := hrotated 4
  have hsum : registers.get (R.at t).E + (rol (registers.get (R.at t).A) 5 +
      F (registers.get (R.at t).B) (registers.get (R.at t).C) (registers.get (R.at t).D) + K +
        ((R.at t).M.value x).1) = (turn (schedule block 64) roles t).get 0 := by
    have hturn : (turn (schedule block 64) roles t).get 0 =
        rol (roles.get 0) 5 + functionOf t (roles.get 1) (roles.get 2) (roles.get 3) +
          roles.get 4 + constantOf t + (schedule block 64).getD t 0 := rfl
    rw [hvalue, hF, hK, hA, hB, hC, hD, hE, hturn]
    exact add_rotate _ _ _ _ _
  refine ⟨?_, hwindow⟩
  have hfirst := hrotated.write 4 ((turn (schedule block 64) roles t).get 0)
  have hsecond := hfirst.write 1 (rol ((write registers (R.at t).E
    ((turn (schedule block 64) roles t).get 0)).get (R.at t).B) 30)
  have hwritten : (write registers (R.at t).E ((turn (schedule block 64) roles t).get 0)).get
      (R.at t).B = roles.get 1 := (hfirst 1).trans (get_write roles 4 1 _)
  rw [hwritten] at hsecond
  have hexec : ((R.at t).exec F K (registers, x)).1 = write (write registers (R.at t).E
      ((turn (schedule block 64) roles t).get 0)) (R.at t).B (rol (roles.get 1) 30) := by
    rw [← hwritten, ← hsum]
    rfl
  rw [hexec]
  refine Rotated.next hsecond fun r => ?_
  rw [get_write, get_write]
  fin_cases r <;> rfl

/-- The operations of a round are turns. -/
lemma atTurn_rounds (count : ℕ) {state : Vector UInt32 5 × Vector UInt32 16}
    (h : AtTurn block start state roles) (hle : start + count ≤ 80)
    (hF : ∀ t, start ≤ t → t < start + count → ∀ b c d, F b c d = functionOf t b c d)
    (hK : ∀ t, start ≤ t → t < start + count → K = constantOf t) :
    AtTurn block (start + count)
      (((List.range' start count).map R.at).foldl (R.exec F K) state)
      ((List.range' start count).foldl (turn (schedule block 64)) roles) := by
  induction count generalizing start state roles with
  | zero => exact h
  | succ count ih =>
      have hfirst := atTurn_exec h (by omega) (hF start le_rfl (by omega))
        (hK start le_rfl (by omega))
      have hrest := ih hfirst (by omega) (fun t ht hlt => hF t (by omega) (by omega))
        fun t ht hlt => hK t (by omega) (by omega)
      rw [Nat.add_assoc, Nat.add_comm 1] at hrest
      exact hrest

/-- **The rounds written out, on sixteen words, are the loop.** -/
theorem processOne_eq (registers : Vector UInt32 5) (block : Bytes) :
    processOne registers block = compress registers block := by
  have h0 : AtTurn block 0 (registers, words block) registers := by
    refine ⟨Rotated.start registers, Window.start fun s hs => ?_⟩
    rw [words_get block s hs]
    exact (getD_schedule_add block 64 (by omega)).symm
  have h1 := atTurn_rounds (F := F1) (K := K1) 20 h0 (by decide)
    (fun t _ ht b c d => by rw [functionOf, if_pos (by omega), F1_eq])
    fun t _ ht => by rw [constantOf, if_pos (by omega), K1]
  have h2 := atTurn_rounds (F := F2) (K := K2) 20 h1 (by decide)
    (fun t ht hlt b c d => by rw [functionOf, if_neg (by omega), if_pos (by omega), F2, Parity])
    fun t ht hlt => by rw [constantOf, if_neg (by omega), if_pos (by omega), K2]
  have h3 := atTurn_rounds (F := F3) (K := K3) 20 h2 (by decide)
    (fun t ht hlt b c d => by
      rw [functionOf, if_neg (by omega), if_neg (by omega), if_pos (by omega), F3_eq])
    fun t ht hlt => by
      rw [constantOf, if_neg (by omega), if_neg (by omega), if_pos (by omega), K3]
  have h4 := atTurn_rounds (F := F4) (K := K4) 20 h3 (by decide)
    (fun t ht hlt b c d => by
      rw [functionOf, if_neg (by omega), if_neg (by omega), if_neg (by omega), F4, Parity])
    fun t ht hlt => by
      rw [constantOf, if_neg (by omega), if_neg (by omega), if_neg (by omega), K4]
  have hloop : List.range 80 = List.range' 0 20 ++ List.range' 20 20 ++ List.range' 40 20 ++
      List.range' 60 20 := by decide
  have hregisters := h4.rotated.eq_of_dvd (by decide)
  rw [processOne, rounds1_eq, rounds2_eq, rounds3_eq, rounds4_eq, compress, hloop,
    List.foldl_append, List.foldl_append, List.foldl_append]
  exact congrArg (registers.zipWith (· + ·)) hregisters

end Sha1

/-! ## A message in pieces -/

namespace Sha1

/-- A context after a message up to its end `left`. -/
structure Taken (msg : Bytes) (ctx : Sha1Ctx) (left : Bytes) : Prop where
  pending : Pending Sha1.compress 64 sha1Hash.init msg ctx.registers left
  total : (ctx.total1.toNat * 2 ^ 32 + ctx.total0.toNat + left.length) % 2 ^ 64 =
    msg.length % 2 ^ 64

/-- A context after a message: the buffer has what does not fill a block, or the last block. -/
def Holds (msg : Bytes) (ctx : Sha1Ctx) : Prop := Taken msg ctx (ctx.buffer.1.take ctx.buflen)

variable {msg data block left : Bytes} {ctx : Sha1Ctx}

lemma holds_sha1InitCtx (buffer : Buffer UInt8 128) : Holds [] (sha1InitCtx buffer) :=
  ⟨Pending.start, by simp [sha1InitCtx]⟩

/-- The message grows. -/
lemma Taken.append (h : Taken msg ctx left) (data : Bytes) :
    Taken (msg ++ data) ctx (left ++ data) := by
  refine ⟨h.pending.append data, ?_⟩
  rw [List.length_append, List.length_append, ← Nat.add_assoc, Nat.add_mod, h.total, ← Nat.add_mod]

/-- Whole blocks are counted as they go. -/
lemma taken_sha1ProcessBlock (h : Taken msg ctx (block ++ left)) (hblock : 64 ∣ block.length) :
    Taken msg (sha1ProcessBlock block ctx) left := by
  have hprocess : processOne = Sha1.compress := funext fun _ => funext fun _ => processOne_eq _ _
  have htotal := h.total
  refine ⟨?_, ?_⟩
  · rw [sha1ProcessBlock, hprocess]
    exact h.pending.absorb (by decide) hblock
  · rw [sha1ProcessBlock, add_wide, Nat.mod_add_mod, ← htotal, List.length_append, Nat.add_assoc]

/-- The front of the buffer goes, and what is behind it moves to the front. -/
lemma taken_shift {filled : Buffer UInt8 128} {whole rest : ℕ} (hwhole : 64 ∣ whole)
    (hfits : whole + rest ≤ 128) (h : Taken msg ctx (filled.1.take (whole + rest) ++ left))
    (hroom : 0 + ((filled.1.drop whole).take rest).length ≤ 128) :
    Taken msg (sha1ProcessBlock (filled.1.take whole) ctx)
      ((filled.memcpy 0 ((filled.1.drop whole).take rest) hroom).1.take rest ++ left) := by
  have hfilled := filled.2
  have hrest : 0 + ((filled.1.drop whole).take rest).length = rest := by
    rw [List.length_take, List.length_drop]
    omega
  rw [Buffer.take_memcpy _ _ hrest, List.take_zero, List.nil_append]
  refine taken_sha1ProcessBlock ?_ ?_
  · rwa [← List.append_assoc, ← List.take_add]
  · rwa [List.length_take, hfilled, min_eq_left (by omega)]

/-- The buffer is filled, and what goes leaves the rest at its front. -/
lemma taken_fillWith {buffer : Bytes} {add : ℕ} (hadd : add ≤ 128 - ctx.buflen)
    (hbuffer : add ≤ buffer.length)
    (h : Taken msg ctx (ctx.buffer.1.take ctx.buflen ++ (buffer.take add ++ left))) :
    Taken msg (fillWith buffer ctx add hadd)
      ((fillWith buffer ctx add hadd).buffer.1.take (fillWith buffer ctx add hadd).buflen ++
        left) := by
  have hbuflen := ctx.buflen_le
  have htake : (buffer.take add).length = add := List.length_take_of_le hbuffer
  have hroom : ctx.buflen + (buffer.take add).length ≤ 128 := by omega
  have hfilled := ctx.buffer.take_memcpy hroom (by rw [htake])
  rw [← List.append_assoc, ← hfilled] at h
  unfold fillWith
  dsimp only
  split_ifs with hfull
  · have hsplit : (ctx.buflen + add) / 64 * 64 + (ctx.buflen + add) % 64 = ctx.buflen + add :=
      Nat.div_add_mod' _ _
    have hfits : (ctx.buflen + add) / 64 * 64 + (ctx.buflen + add) % 64 ≤ 128 := by omega
    have hshift := taken_shift (Dvd.intro_left _ rfl) hfits (by rwa [hsplit])
      (by rw [List.length_take]; omega)
    exact ⟨hshift.pending, hshift.total⟩
  · exact ⟨h.pending, h.total⟩

/-- The buffer is filled: afterwards nothing waits or the piece is used up. -/
lemma taken_fillBuffer (h : Holds msg ctx) (buffer : Bytes) :
    Taken (msg ++ buffer) (fillBuffer buffer ctx).1
        ((fillBuffer buffer ctx).1.buffer.1.take (fillBuffer buffer ctx).1.buflen ++
          buffer.drop (fillBuffer buffer ctx).2) ∧
      ((fillBuffer buffer ctx).1.buflen = 0 ∨ buffer.drop (fillBuffer buffer ctx).2 = []) := by
  have hgrown := Taken.append h buffer
  have hbuflen := ctx.buflen_le
  have hadd : (fillBuffer buffer ctx).2 =
      if buffer.length < 128 - ctx.buflen then buffer.length else 128 - ctx.buflen := rfl
  have hle : (fillBuffer buffer ctx).2 ≤ buffer.length := by
    rw [hadd]
    split_ifs <;> omega
  have hroom : (fillBuffer buffer ctx).2 ≤ 128 - ctx.buflen := by
    rw [hadd]
    split_ifs <;> omega
  refine ⟨?_, ?_⟩
  · refine taken_fillWith hroom hle ?_
    rwa [List.take_append_drop]
  · by_cases hall : buffer.length < 128 - ctx.buflen
    · rw [hadd, if_pos hall, List.drop_length]
      exact .inr rfl
    · rw [if_neg hall] at hadd
      have htwo : ctx.buflen + (fillBuffer buffer ctx).2 = 128 := by omega
      refine .inl ?_
      show (fillWith buffer ctx (fillBuffer buffer ctx).2 hroom).buflen = 0
      unfold fillWith
      dsimp only
      rw [dif_pos (by omega)]
      show (ctx.buflen + (fillBuffer buffer ctx).2) % 64 = 0
      rw [htwo]

/-- The loop over a piece at an odd address. -/
lemma taken_unalignedBlocks (fuel : ℕ) (buffer : Bytes) (ctx : Sha1Ctx) (hfuel : buffer.length ≤ fuel)
    (h : Taken msg ctx buffer) :
    Taken msg (unalignedBlocks fuel buffer ctx hfuel).1 (unalignedBlocks fuel buffer ctx hfuel).2.1 ∧
      (unalignedBlocks fuel buffer ctx hfuel).1.buflen = ctx.buflen := by
  induction fuel generalizing buffer ctx with
  | zero => exact ⟨h, rfl⟩
  | succ fuel ih =>
      rw [unalignedBlocks]
      split_ifs with hlong
      · have hblock : (buffer.take 64).length = 64 := by
          rw [List.length_take]
          omega
        refine ih _ _ _ ?_
        have hroom : 0 + (buffer.take 64).length ≤ 128 := by
          rw [hblock]
          decide
        have hcopied := ctx.buffer.take_memcpy hroom (by rw [hblock])
        dsimp only
        rw [hcopied, List.take_zero, List.nil_append]
        have hsplit : Taken msg ctx (buffer.take 64 ++ buffer.drop 64) := by
          rwa [List.take_append_drop]
        have hprocessed := taken_sha1ProcessBlock hsplit (Dvd.intro 1 hblock.symm)
        exact ⟨hprocessed.pending, hprocessed.total⟩
      · exact ⟨h, rfl⟩

/-- The complete blocks go, and the buffer stays as long as it was. -/
lemma taken_completeBlocks (address : ℕ) (h : Taken msg ctx left) :
    Taken msg (completeBlocks address left ctx).1 (completeBlocks address left ctx).2.1 ∧
      (completeBlocks address left ctx).1.buflen = ctx.buflen := by
  unfold completeBlocks
  split_ifs with hlong hodd
  · exact taken_unalignedBlocks _ _ _ _ h
  · refine ⟨taken_sha1ProcessBlock ?_ ?_, rfl⟩
    · rwa [List.take_append_drop]
    · rw [List.length_take, min_eq_left (Nat.div_mul_le_self _ _)]
      exact Dvd.intro_left _ rfl
  · exact ⟨h, rfl⟩

/-- What is left waits. -/
lemma holds_moveRest {left : { left : Bytes // left.length ≤ 64 }}
    (h : Taken msg ctx (ctx.buffer.1.take ctx.buflen ++ left.1)) : Holds msg (moveRest left ctx) := by
  have hbuflen := ctx.buflen_le
  have hlength := left.2
  have hroom : ctx.buflen + left.1.length ≤ 128 := by omega
  have hfilled := ctx.buffer.take_memcpy hroom rfl
  unfold moveRest
  dsimp only
  split_ifs with hsome hfull
  · rw [← hfilled, ← List.append_nil (List.take _ _)] at h
    have hsplit : 64 + (ctx.buflen + left.1.length - 64) = ctx.buflen + left.1.length := by omega
    have hfits : 64 + (ctx.buflen + left.1.length - 64) ≤ 128 := by omega
    have hshift := taken_shift (dvd_refl 64) hfits (by rwa [hsplit])
      (by rw [List.length_take]; omega)
    rw [List.append_nil] at hshift
    exact ⟨hshift.pending, hshift.total⟩
  · rw [← hfilled] at h
    exact ⟨h.pending, h.total⟩
  · rw [List.eq_nil_of_length_eq_zero (by omega : left.1.length = 0), List.append_nil] at h
    exact h

/-- **A piece makes the message longer by itself**, at whatever address it lies. -/
theorem holds_sha1ProcessBytes (address : ℕ) (h : Holds msg ctx) :
    Holds (msg ++ data) (sha1ProcessBytes address data ctx) := by
  have hfirst : ∃ ctx' add, (if ctx.buflen ≠ 0 then fillBuffer data ctx else (ctx, 0)) = (ctx', add) ∧
      Taken (msg ++ data) ctx' (ctx'.buffer.1.take ctx'.buflen ++ data.drop add) ∧
        (ctx'.buflen = 0 ∨ data.drop add = []) := by
    by_cases hwaits : ctx.buflen ≠ 0
    · rw [if_pos hwaits]
      exact ⟨_, _, rfl, taken_fillBuffer h data⟩
    · rw [if_neg hwaits]
      exact ⟨_, _, rfl, Taken.append h data, .inl (not_not.mp hwaits)⟩
  obtain ⟨ctx', add, hfill, htaken, hnone⟩ := hfirst
  rw [sha1ProcessBytes, hfill]
  show Holds _ (moveRest (completeBlocks (address + add) (data.drop add) ctx').2
    (completeBlocks (address + add) (data.drop add) ctx').1)
  refine holds_moveRest ?_
  rcases hnone with hempty | hused
  · rw [hempty, List.take_zero, List.nil_append] at htaken
    obtain ⟨hcomplete, hstill⟩ := taken_completeBlocks (address + add) htaken
    rw [hstill, hempty, List.take_zero, List.nil_append]
    exact hcomplete
  · rw [hused] at htaken ⊢
    exact htaken

/-! ### The end -/

/-- The last words of the buffer are the length in bits. -/
lemma length_bits {total0 total1 : UInt32} {length : ℕ}
    (h : total1.toNat * 2 ^ 32 + total0.toNat = length % 2 ^ 64) :
    store (SWAP ((total1 <<< 3) ||| (total0 >>> 29))) ++ store (SWAP (total0 <<< 3)) =
      sha1Hash.lengthBytes (8 * length) := by
  have hlow := total0.toNat_lt
  have hthree : (3 : UInt32).toNat % 32 = 3 := rfl
  have htwentyNine : (29 : UInt32).toNat % 32 = 29 := rfl
  have hcut : total1.toNat * 2 ^ 3 % 2 ^ 32 = total1.toNat % 2 ^ 29 * 2 ^ 3 := by
    omega
  have hhigh : ((total1 <<< 3) ||| (total0 >>> 29)).toNat =
      total1.toNat % 2 ^ 29 * 2 ^ 3 + total0.toNat / 2 ^ 29 := by
    rw [UInt32.toNat_or, UInt32.toNat_shiftLeft, UInt32.toNat_shiftRight, hthree, htwentyNine,
      Nat.shiftLeft_eq, hcut, ← Nat.shiftLeft_eq, Nat.shiftRight_eq_div_pow,
      Nat.shiftLeft_add_eq_or_of_lt (by omega)]
  have hbits : 8 * length % 2 ^ (8 * 8) =
      ((total1 <<< 3) ||| (total0 >>> 29)).toNat * 2 ^ 32 + (total0 <<< 3).toNat := by
    have hmod : 8 * length % 2 ^ 64 = 8 * (total1.toNat * 2 ^ 32 + total0.toNat) % 2 ^ 64 := by
      rw [h, Nat.mul_mod_mod]
    rw [hhigh, UInt32.toNat_shiftLeft, hthree, Nat.shiftLeft_eq]
    refine hmod.trans ?_
    omega
  have hlt := (total0 <<< 3).toNat_lt
  have hfront : (8 * length % 2 ^ (8 * 8)) >>> (8 * 4) =
      ((total1 <<< 3) ||| (total0 >>> 29)).toNat := by
    rw [hbits, Nat.shiftRight_eq_div_pow]
    omega
  have hback : 8 * length % 2 ^ (8 * 8) % 2 ^ (8 * 4) = (total0 <<< 3).toNat := by
    rw [hbits]
    omega
  rw [store_swap, store_swap, ← hfront, ← hback, bigEndian_mod, ← bigEndian_add]
  exact bigEndian_mod 8 _

/-- The mark and the zeros, as they are cut from `fillbuf`. -/
lemma fillbuf_take {bytes length : ℕ} (hbytes : bytes ≤ 64) (h : bytes % 64 = length % 64) :
    fillbuf.take (((if bytes < 56 then 64 / 4 else 64 * 2 / 4) - 2) * 4 - bytes) =
      128 :: List.replicate (zeros length) 0 := by
  have hzeros : ((if bytes < 56 then 64 / 4 else 64 * 2 / 4) - 2) * 4 - bytes =
      zeros length + 1 := by
    rw [zeros]
    split_ifs <;> omega
  have hle : zeros length ≤ 63 := Nat.le_of_lt_succ (Nat.mod_lt _ (by decide))
  rw [hzeros, fillbuf, List.take_succ_cons, List.take_replicate, min_eq_left hle]

lemma sha1ReadCtx_eq (ctx : Sha1Ctx) : sha1ReadCtx ctx = sha1Hash.digest ctx.registers := by
  rw [sha1ReadCtx]
  simp only [store_swap, sha1Hash, List.range_succ, List.range_zero, List.nil_append,
    List.cons_append, List.flatMap_cons, List.flatMap_nil, List.append_nil, List.append_assoc]
  rfl

/-- What the last blocks are: the two ends are written before what lies between. -/
lemma take_memcpy_three {b : Buffer UInt8 128} {bytes place next stop : ℕ}
    {first second fill : Bytes} (h1 : place + first.length ≤ 128)
    (h2 : next + second.length ≤ 128) (h3 : bytes + fill.length ≤ 128)
    (hnext : place + first.length = next) (hstop : next + second.length = stop)
    (hfill : bytes + fill.length = place) :
    (((b.memcpy place first h1).memcpy next second h2).memcpy bytes fill h3).1.take stop =
      b.1.take bytes ++ (fill ++ (first ++ second)) := by
  have hb := b.2
  have hplace : (b.1.take place).length = place := List.length_take_of_le (by omega)
  have hends : ((b.memcpy place first h1).memcpy next second h2).1.take stop =
      b.1.take place ++ (first ++ second) := by
    rw [Buffer.take_memcpy _ _ hstop, b.take_memcpy h1 hnext, List.append_assoc]
  have hfront : ((b.memcpy place first h1).memcpy next second h2).1.take bytes =
      b.1.take bytes := by
    have htake := congrArg (List.take bytes) hends
    rwa [List.take_take, min_eq_left (by omega), List.take_append_of_le_length (by omega),
      List.take_take, min_eq_left (by omega)] at htake
  rw [Buffer.take_memcpy_of_le _ h3 (by omega), hends, hfront, hfill,
    List.drop_append_of_le_length hplace.ge, List.drop_of_length_le hplace.le, List.nil_append,
    List.append_assoc]

end Sha1

/-- A message is finished with what the buffer holds of it. -/
theorem sha1FinishCtx_of_holds {msg : Bytes} {ctx : Sha1Ctx} (h : Holds msg ctx) :
    sha1FinishCtx ctx = sha1 msg := by
  have hbuflen := ctx.buflen_le
  have hheld : (ctx.buffer.1.take ctx.buflen).length = ctx.buflen := by
    rw [List.length_take, ctx.buffer.2, min_eq_left (by omega)]
  have hmod : ctx.buflen % 64 = msg.length % 64 := by
    have hpending := h.pending.length_mod
    rwa [hheld] at hpending
  have htotal : (if ctx.total0 + UInt32.ofNat ctx.buflen < UInt32.ofNat ctx.buflen
      then ctx.total1 + 1 else ctx.total1).toNat * 2 ^ 32 +
        (ctx.total0 + UInt32.ofNat ctx.buflen).toNat = msg.length % 2 ^ 64 := by
    have hcarry := add_carry ctx.total1 ctx.total0 (UInt32.ofNat ctx.buflen)
    have hsum := h.total
    rw [hheld] at hsum
    rw [UInt32.toNat_ofNat', Nat.mod_eq_of_lt (by omega : ctx.buflen < 2 ^ 32), hsum] at hcarry
    rw [← hcarry]
    split_ifs with hless
    · rfl
    · rw [UInt32.add_zero]
  have hfill := fillbuf_take hbuflen hmod
  have hlength := length_bits htotal
  unfold sha1FinishCtx
  dsimp only
  rw [sha1ReadCtx_eq, take_memcpy_three]
  · show sha1Hash.digest (absorb processOne 64 ctx.registers _) = _
    rw [hfill, hlength, ← padding]
    have hpadded := h.pending.append (sha1Hash.padding msg.length)
    have hprocess : processOne = Sha1.compress := funext fun _ => funext fun _ => processOne_eq _ _
    have hall : (ctx.buffer.1.take ctx.buflen ++ sha1Hash.padding msg.length).length % 64 = 0 := by
      have hblock := add_length_padding (H := sha1Hash) (fun n => length_bigEndian 8 n) msg.length
      rw [List.length_append, hheld]
      omega
    rw [← List.append_nil (List.take _ _ ++ _)] at hpadded
    have hdone := hpadded.absorb (by decide) (Nat.dvd_of_mod_eq_zero hall)
    have hdigest := Pending.hash (H := sha1Hash) hdone
    rw [← hprocess] at hdigest
    exact hdigest
  · rw [store, length_littleEndian]
    split_ifs <;> omega
  · rw [store, length_littleEndian]
    split_ifs <;> omega
  · rw [List.length_take, fillbuf, List.length_cons, List.length_replicate]
    split_ifs <;> omega

/-- **The digest of a message in pieces is its SHA-1**, wherever it was cut and at whatever addresses
the pieces lay. -/
theorem sha1_of_pieces (buffer : Buffer UInt8 128) (pieces : List (ℕ × Bytes)) :
    sha1FinishCtx (pieces.foldl (fun ctx piece => sha1ProcessBytes piece.1 piece.2 ctx)
      (sha1InitCtx buffer)) = sha1 (pieces.flatMap Prod.snd) :=
  sha1FinishCtx_of_holds (Loops.foldl_appends Holds
    (fun _ _ piece h => holds_sha1ProcessBytes piece.1 h) (holds_sha1InitCtx buffer) pieces)

/-- The hash of `abc`. -/
example : sha1 [97, 98, 99] = [0xa9, 0x99, 0x3e, 0x36, 0x47, 0x06, 0x81, 0x6a, 0xba, 0x3e, 0x25,
    0x71, 0x78, 0x50, 0xc2, 0x6c, 0x9c, 0xd0, 0xd8, 0x9d] := by decide +kernel

end Clarc
