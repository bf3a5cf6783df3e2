import Clarc.Http.MicroCurl

/-!
# The body of a request, buffer by buffer: `readFunctionForMicroCurl`

libcurl asks for the body of a POST, and for the target of a link, one buffer at a time.  The
callback copies with `strncpy`, which ends what it writes with a NUL only where the buffer is larger
than what is left of the body, and then takes the `strlen` of the buffer for the number of bytes it
has copied.  In a buffer that is filled to its end the count runs on into the memory behind it.

* `call_short`, `call_full` — what a call returns, and where it leaves the cursor;
* `streamed_iff` — **the body arrives whole exactly when a NUL stands behind each buffer that is
  filled**.
-/

namespace Clarc

open Bytes

namespace MicroCurl

/-! ## One call -/

/-- `strncpy(ptr, src, n)`: what it leaves in the `n` bytes at `ptr`. -/
def strncpy (src : Bytes) (n : ℕ) : Bytes := src.take n ++ List.replicate (n - src.length) 0

/-- `strlen`; there is no answer where no NUL comes before the end of the memory. -/
def strlen : Bytes → Option ℕ
  | [] => none
  | c :: memory => if c = 0 then some 0 else (strlen memory).map (· + 1)

/-- A buffer of libcurl's, of `size*nmemb` bytes, and the memory behind it. -/
structure Buffer where
  totalBytes : ℕ
  behind : Bytes
  deriving DecidableEq, Repr

/-- `readFunctionForMicroCurl`, with `currentPtr` as a position in `postData`: the bytes that it
returns, and the next `currentPtr`.  Behind the terminator of `postData` there is nothing to
read. -/
def readFunctionForMicroCurl (postData : Bytes) (currentPtr : ℕ) (buffer : Buffer) :
    Option (Bytes × ℕ) :=
  if postData.length < currentPtr then none
  else
    let ptr := strncpy (postData.drop currentPtr) buffer.totalBytes ++ buffer.behind
    (strlen ptr).map fun l => (ptr.take l, currentPtr + l)

/-! ## A sequence of calls -/

section

variable (postData : Bytes) (buffers : ℕ → Buffer)

/-- `currentPtr` after so many calls; `go` sets it to the beginning of `postData`. -/
def currentPtr : ℕ → Option ℕ
  | 0 => some 0
  | n + 1 => (currentPtr n).bind fun p =>
      (readFunctionForMicroCurl postData p (buffers n)).map Prod.snd

/-- What call `n` returns. -/
def returned (n : ℕ) : Option Bytes :=
  (currentPtr postData buffers n).bind fun p =>
    (readFunctionForMicroCurl postData p (buffers n)).map Prod.fst

/-- The body arrives whole: no call returns more than its buffer holds, the calls return the body
piece by piece, and then nothing. -/
structure Streamed : Prop where
  fits : ∀ n, ∃ chunk, returned postData buffers n = some chunk ∧
    chunk.length ≤ (buffers n).totalBytes
  whole : ∃ n, ((List.range n).filterMap (returned postData buffers)).flatten = postData ∧
    ∀ m ≥ n, returned postData buffers m = some []

/-- How much fits into the first `n` buffers. -/
def room (n : ℕ) : ℕ := ∑ i ∈ Finset.range n, (buffers i).totalBytes

/-- Behind every buffer that the body fills there is a NUL. -/
def Terminated : Prop :=
  ∀ n, room buffers (n + 1) ≤ postData.length → (buffers n).behind.head? = some 0

end

variable {postData : Bytes} {buffers : ℕ → Buffer} {buffer : Buffer} {p n : ℕ}

/-! ## What a call does -/

/-- The bytes before a NUL are counted one by one. -/
lemma strlen_append {text memory : Bytes} (h : 0 ∉ text) :
    strlen (text ++ memory) = (strlen memory).map (text.length + ·) := by
  induction text with
  | nil => simp
  | cons c text ih =>
      rw [List.mem_cons, not_or] at h
      rw [List.cons_append, strlen, if_neg (Ne.symm h.1), ih h.2, Option.map_map]
      congr 1
      funext l
      simp only [Function.comp_apply, List.length_cons]
      omega

lemma strlen_cons_zero (memory : Bytes) : strlen (0 :: memory) = some 0 := rfl

/-- A text has length zero when it begins with its terminator. -/
lemma strlen_eq_zero {memory : Bytes} : strlen memory = some 0 ↔ memory.head? = some 0 := by
  rcases memory with _ | ⟨c, memory⟩
  · simp [strlen]
  · rw [strlen]
    split_ifs with hc
    · simp [hc]
    · simp [hc]

lemma notMem_drop {data : Bytes} (h : 0 ∉ data) (k : ℕ) : 0 ∉ data.drop k :=
  fun hmem => h (List.mem_of_mem_drop hmem)

/-- A buffer that is larger than the rest of the body gets it whole, and a terminator. -/
lemma call_short (hnul : 0 ∉ postData) (hp : p ≤ postData.length)
    (h : postData.length < p + buffer.totalBytes) :
    readFunctionForMicroCurl postData p buffer =
      some (postData.drop p, postData.length) := by
  obtain ⟨k, hk⟩ : ∃ k, buffer.totalBytes - (postData.drop p).length = k + 1 := by
    refine ⟨buffer.totalBytes - (postData.drop p).length - 1, ?_⟩
    rw [List.length_drop]
    omega
  have htake : (postData.drop p).take buffer.totalBytes = postData.drop p :=
    List.take_of_length_le (by rw [List.length_drop]; omega)
  rw [readFunctionForMicroCurl, if_neg (not_lt.mpr hp)]
  dsimp only
  rw [strncpy, htake, hk, List.replicate_succ, List.append_assoc,
    strlen_append (notMem_drop hnul p),
    List.cons_append, strlen_cons_zero]
  simp only [Option.map_some, Nat.add_zero, List.take_left]
  rw [List.length_drop, Nat.add_sub_cancel' hp]

/-- A buffer that is filled has no terminator of its own. -/
lemma call_full (hnul : 0 ∉ postData) (h : p + buffer.totalBytes ≤ postData.length) :
    readFunctionForMicroCurl postData p buffer = (strlen buffer.behind).map fun l =>
      ((postData.drop p).take buffer.totalBytes ++ buffer.behind.take l,
        p + (buffer.totalBytes + l)) := by
  have hfill : buffer.totalBytes - (postData.drop p).length = 0 := by
    rw [List.length_drop]
    omega
  have hlen : ((postData.drop p).take buffer.totalBytes).length = buffer.totalBytes := by
    rw [List.length_take, List.length_drop]
    omega
  have hfree : 0 ∉ (postData.drop p).take buffer.totalBytes :=
    fun hmem => notMem_drop hnul p (List.mem_of_mem_take hmem)
  rw [readFunctionForMicroCurl, if_neg (by omega)]
  dsimp only
  rw [strncpy, hfill, List.replicate_zero, List.append_nil, strlen_append hfree, hlen,
    Option.map_map]
  congr 1
  funext l
  have htake : ((postData.drop p).take buffer.totalBytes ++ buffer.behind).take
      (((postData.drop p).take buffer.totalBytes).length + l) =
        (postData.drop p).take buffer.totalBytes ++ buffer.behind.take l :=
    List.take_length_add_append l
  rw [hlen] at htake
  simp only [Function.comp_apply, htake]

/-- A buffer with a NUL behind it gets as much of the body as it holds. -/
lemma call_terminated (hnul : 0 ∉ postData) (hp : p ≤ postData.length)
    (h : p + buffer.totalBytes ≤ postData.length → buffer.behind.head? = some 0) :
    readFunctionForMicroCurl postData p buffer =
      some ((postData.drop p).take buffer.totalBytes,
        min (p + buffer.totalBytes) postData.length) := by
  rcases Nat.lt_or_ge postData.length (p + buffer.totalBytes) with hshort | hfull
  · rw [call_short hnul hp hshort, min_eq_right hshort.le, List.take_of_length_le]
    rw [List.length_drop]
    omega
  · rw [call_full hnul hfull, strlen_eq_zero.mpr (h hfull), min_eq_left hfull]
    simp

/-! ## What the calls return -/

lemma room_succ (n : ℕ) : room buffers (n + 1) = room buffers n + (buffers n).totalBytes :=
  Finset.sum_range_succ _ n

lemma le_room (hpos : ∀ n, 0 < (buffers n).totalBytes) (n : ℕ) : n ≤ room buffers n := by
  induction n with
  | zero => exact Nat.zero_le _
  | succ n ih =>
      rw [room_succ]
      have hn := hpos n
      omega

lemma room_mono {m : ℕ} (h : n ≤ m) : room buffers n ≤ room buffers m :=
  Finset.sum_le_sum_of_subset (Finset.range_mono h)

/-- **The cursor follows the buffers** as long as the filled ones have a NUL behind them. -/
lemma currentPtr_eq (hnul : 0 ∉ postData) (hpos : ∀ n, 0 < (buffers n).totalBytes)
    (h : ∀ m < n, room buffers (m + 1) ≤ postData.length → (buffers m).behind.head? = some 0) :
    currentPtr postData buffers n = some (min (room buffers n) postData.length) := by
  induction n with
  | zero => simp [currentPtr, room]
  | succ n ih =>
      have hfull : min (room buffers n) postData.length + (buffers n).totalBytes ≤
          postData.length → (buffers n).behind.head? = some 0 := by
        intro hle
        have hn := hpos n
        refine h n (Nat.lt_succ_self n) ?_
        rw [room_succ]
        omega
      rw [currentPtr, ih fun m hm => h m (Nat.lt_succ_of_lt hm), Option.bind_some,
        call_terminated hnul (min_le_right _ _) hfull, room_succ, Option.map_some]
      congr 1
      omega

/-- A call returns what comes next in the body, as much of it as its buffer holds. -/
lemma returned_eq (hnul : 0 ∉ postData) (hpos : ∀ n, 0 < (buffers n).totalBytes)
    (h : Terminated postData buffers) (n : ℕ) :
    returned postData buffers n =
      some ((postData.drop (room buffers n)).take (buffers n).totalBytes) := by
  have hfull : min (room buffers n) postData.length + (buffers n).totalBytes ≤
      postData.length → (buffers n).behind.head? = some 0 := by
    intro hle
    have hn := hpos n
    refine h n ?_
    rw [room_succ]
    omega
  rw [returned, currentPtr_eq hnul hpos fun m _ => h m, Option.bind_some,
    call_terminated hnul (min_le_right _ _) hfull, Option.map_some]
  rcases Nat.lt_or_ge postData.length (room buffers n) with hover | hwithin
  · rw [min_eq_right hover.le, List.drop_length, List.drop_eq_nil_of_le hover.le]
  · rw [min_eq_left hwithin]

/-- The first calls return the beginning of the body. -/
lemma flatten_returned (hnul : 0 ∉ postData) (hpos : ∀ n, 0 < (buffers n).totalBytes)
    (h : Terminated postData buffers) (n : ℕ) :
    ((List.range n).filterMap (returned postData buffers)).flatten =
      postData.take (room buffers n) := by
  induction n with
  | zero => simp [room]
  | succ n ih =>
      rw [List.range_succ, List.filterMap_append, List.flatten_append, ih, room_succ, List.take_add]
      simp [returned_eq hnul hpos h]

/-- A body that arrives whole has filled no buffer without a NUL behind it. -/
lemma Streamed.terminated (hnul : 0 ∉ postData) (hpos : ∀ n, 0 < (buffers n).totalBytes)
    (h : Streamed postData buffers) : Terminated postData buffers := by
  intro n
  -- by the calls before this one the cursor is where it should be
  induction n using Nat.strong_induction_on with
  | _ n ih =>
      intro hfull
      obtain ⟨chunk, hchunk, hlen⟩ := h.fits n
      rw [room_succ] at hfull
      rw [returned, currentPtr_eq hnul hpos ih, Option.bind_some, min_eq_left (by omega),
        call_full hnul hfull, Option.map_map] at hchunk
      obtain ⟨l, hl, rfl⟩ := Option.map_eq_some_iff.mp hchunk
      have hbehind : (buffers n).behind.take l = [] := by
        rw [Function.comp_apply, List.length_append, List.length_take, List.length_drop] at hlen
        rw [← List.length_eq_zero_iff]
        omega
      rcases l with _ | l
      · exact strlen_eq_zero.mp hl
      · rcases hmemory : (buffers n).behind with _ | ⟨c, memory⟩
        · rw [hmemory] at hl
          cases hl
        · rw [hmemory] at hbehind
          cases hbehind

/-- **When the body arrives whole**: exactly when a NUL stands behind each buffer that is filled. -/
theorem streamed_iff (hnul : 0 ∉ postData) (hpos : ∀ n, 0 < (buffers n).totalBytes) :
    Streamed postData buffers ↔ Terminated postData buffers := by
  constructor
  · exact Streamed.terminated hnul hpos
  · intro h
    have hall : postData.length ≤ room buffers postData.length := le_room hpos _
    constructor
    · intro n
      refine ⟨_, returned_eq hnul hpos h n, ?_⟩
      rw [List.length_take]
      exact min_le_left _ _
    · refine ⟨postData.length, ?_, fun m hm => ?_⟩
      · rw [flatten_returned hnul hpos h, List.take_of_length_le hall]
      · have hm' := hall.trans (room_mono hm)
        rw [returned_eq hnul hpos h, List.drop_eq_nil_of_le hm', List.take_nil]

theorem streamed_iff_sample :
    Streamed (ascii "abcd") (fun _ => ⟨3, [0]⟩) :=
  (streamed_iff (by decide) fun _ => by decide).mpr fun _ _ => rfl

/-- A body that is longer than its buffer, with other bytes behind the buffer: the first call
returns more than the buffer holds. -/
theorem not_streamed_sample : ¬ Streamed (ascii "abcd") (fun _ => ⟨3, [88, 0]⟩) := by
  intro h
  obtain ⟨chunk, hchunk, hlen⟩ := h.fits 0
  obtain rfl : ascii "abcX" = chunk := Option.some.inj hchunk
  exact absurd hlen (by decide)

end MicroCurl

end Clarc
