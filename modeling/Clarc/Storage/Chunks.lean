import Clarc.Storage.Operations

/-!
# Storing a list in chunks: `storeRemoteListOfFiles`

The number of chunks is a division with a correction for the remainder in `uint32_t`, the bounds of
a chunk are products in `int`, clamped to the count.  Here the arithmetic is that of the source
(`chunkBounds32`), and an `int` that overflows is `none`.

* `chunkBounds32_eq` — below `2^31 - 100` nothing overflows, and the bounds are those of
  `chunkBounds`;
* `storeRemoteListOfFiles32_eq` — so that a list of fewer files is stored as in
  `storeRemoteListOfFiles`;
* `storeChunks_transactions` — what a store does without failures, as transactions of indices;
* `storeRemoteListOfFiles32_exact` — **after `truncate` the table is exactly the list**: every index
  is inserted once and in order, at most a hundred in a transaction.
-/

namespace Clarc

open Bytes Sqlite

namespace FileListStorage

/-! ## The arithmetic of the source -/

/-- The product of two `int`s, none of them negative. -/
def intMul (a b : ℕ) : Option ℕ := if a * b < 2 ^ 31 then some (a * b) else none

/-- The number of chunks. -/
def chunks32 (count : UInt32) : UInt32 :=
  let chunks := count / 100
  if chunks * 100 < count then chunks + 1 else chunks

/-- The bounds of the chunk that the loop stores in round `i`. -/
def roundBounds (count : UInt32) (i : ℕ) : Option (UInt32 × UInt32) := do
  let max ← intMul (i + 1) 100
  let lo ← intMul i 100
  some (UInt32.ofNat lo, if count < UInt32.ofNat max then count else UInt32.ofNat max)

/-- The rounds of the loop from `i` on. -/
def loopBounds (count : UInt32) (i : ℕ) : ℕ → Option (List (UInt32 × UInt32))
  | 0 => some []
  | rounds + 1 => do
      let b ← roundBounds count i
      let rest ← loopBounds count (i + 1) rounds
      some (b :: rest)

/-- The bounds of all chunks. -/
def chunkBounds32 (count : UInt32) : Option (List (UInt32 × UInt32)) :=
  if count ≤ 100 then some [(0, count)] else loopBounds count 0 (chunks32 count).toNat

/-- `FileListStorage::storeRemoteListOfFiles`, for a list that `count` counts. -/
def storeRemoteListOfFiles32 (fails : ℕ → Faults) (remote : List RemoteFile) :
    Option (Script Bytes Row Unit) :=
  (chunkBounds32 (UInt32.ofNat remote.length)).map fun bounds =>
    storeChunks fails remote (bounds.map fun b => (b.1.toNat, b.2.toNat))

/-- The number of chunks without 32 bits. -/
def chunksOf (count : ℕ) : ℕ := if count / 100 * 100 < count then count / 100 + 1 else count / 100

lemma chunks32_toNat (count : UInt32) : (chunks32 count).toNat = chunksOf count.toNat := by
  have hcount := count.toNat_lt
  have hdiv : (count / 100).toNat = count.toNat / 100 := UInt32.toNat_div count 100
  have hmul : (count / 100 * 100).toNat = count.toNat / 100 * 100 := by
    rw [UInt32.toNat_mul, hdiv]
    exact Nat.mod_eq_of_lt (by simp only [UInt32.reduceToNat]; omega)
  unfold chunks32 chunksOf
  simp only [UInt32.lt_iff_toNat_lt, hmul]
  split_ifs
  · rw [UInt32.toNat_add, hdiv]
    exact Nat.mod_eq_of_lt (by simp only [UInt32.reduceToNat]; omega)
  · exact hdiv

/-- A round below the number of chunks does not overflow. -/
lemma roundBounds_eq (count : UInt32) {i : ℕ} (hi : (i + 1) * 100 < 2 ^ 31) :
    ∃ b, roundBounds count i = some b ∧ b.1.toNat = i * 100 ∧
      b.2.toNat = min ((i + 1) * 100) count.toNat := by
  have hlo : i * 100 < 2 ^ 31 := by omega
  refine ⟨_, by rw [roundBounds, intMul, intMul, if_pos hi, if_pos hlo]; rfl, ?_, ?_⟩
  · exact UInt32.toNat_ofNat_of_lt' (by rw [UInt32.size]; omega)
  · have hmax : (UInt32.ofNat ((i + 1) * 100)).toNat = (i + 1) * 100 :=
      UInt32.toNat_ofNat_of_lt' (by rw [UInt32.size]; omega)
    dsimp only
    simp only [UInt32.lt_iff_toNat_lt, hmax]
    split_ifs with hclamp
    · omega
    · rw [hmax]
      omega

lemma loopBounds_eq {count : UInt32} (rounds i : ℕ) (h : (i + rounds) * 100 < 2 ^ 31) :
    ∃ bounds, loopBounds count i rounds = some bounds ∧
      bounds.map (fun b => (b.1.toNat, b.2.toNat)) =
        (List.range' i rounds).map fun i => (i * 100, min ((i + 1) * 100) count.toNat) := by
  induction rounds generalizing i with
  | zero => exact ⟨[], rfl, rfl⟩
  | succ rounds ih =>
      obtain ⟨b, hb, hlo, hhi⟩ := roundBounds_eq count (i := i) (by omega)
      obtain ⟨rest, hrest, hmap⟩ := ih (i + 1) (by omega)
      refine ⟨b :: rest, by rw [loopBounds, hb, hrest]; rfl, ?_⟩
      rw [List.map_cons, hmap, hlo, hhi, List.range'_succ, List.map_cons]

/-- **Nothing overflows** below `2^31 - 100`, and the bounds are those without 32 bits. -/
lemma chunkBounds32_eq {count : UInt32} (h : count.toNat < 2 ^ 31 - 100) :
    ∃ bounds, chunkBounds32 count = some bounds ∧
      bounds.map (fun b => (b.1.toNat, b.2.toNat)) = chunkBounds count.toNat := by
  unfold chunkBounds32 chunkBounds
  by_cases hsmall : count.toNat ≤ 100
  · rw [if_pos hsmall, if_pos (UInt32.le_iff_toNat_le.mpr hsmall)]
    exact ⟨_, rfl, rfl⟩
  · rw [if_neg hsmall, if_neg fun hle => hsmall (UInt32.le_iff_toNat_le.mp hle),
      chunks32_toNat]
    dsimp only
    rw [List.range_eq_range']
    refine loopBounds_eq _ 0 ?_
    unfold chunksOf
    split_ifs <;> omega

/-- A list of fewer files is stored as `storeRemoteListOfFiles` says. -/
lemma storeRemoteListOfFiles32_eq (fails : ℕ → Faults) {remote : List RemoteFile}
    (h : remote.length < 2 ^ 31 - 100) :
    storeRemoteListOfFiles32 fails remote = some (storeRemoteListOfFiles fails remote) := by
  have hlength : (UInt32.ofNat remote.length).toNat = remote.length :=
    UInt32.toNat_ofNat_of_lt' (by rw [UInt32.size]; omega)
  obtain ⟨bounds, hbounds, hmap⟩ := chunkBounds32_eq (by rwa [hlength])
  rw [storeRemoteListOfFiles32, hbounds, Option.map_some, hmap, hlength]
  rfl

/-! ## What a store does -/

/-- Insert the file with the index. -/
def insertIndex (remote : List RemoteFile) (i : ℕ) : Script Bytes Row Unit :=
  match remote[i]? with
  | some f => Script.perform none (Connection.insert f.path ⟨f.md5, f.mtime.toUInt64⟩)
  | none => Script.stop

/-- Insert the files with the indices, one after another. -/
def insertIndices (remote : List RemoteFile) : List ℕ → Script Bytes Row Unit
  | [] => pure ()
  | i :: rest => do
      insertIndex remote i
      insertIndices remote rest

/-- Transactions, each given by the indices it inserts. -/
def performTransactions (remote : List RemoteFile) : List (List ℕ) → Script Bytes Row Unit
  | [] => pure ()
  | indices :: rest => do
      Script.perform none Connection.begin
      insertIndices remote indices
      Script.perform none Connection.commit
      performTransactions remote rest

/-- The indices of a chunk. -/
def indicesOf (b : ℕ × ℕ) : List ℕ := List.range' b.1 (b.2 - b.1)

lemma insertRows_indices (remote : List RemoteFile) (n : ℕ) :
    ∀ lo, lo + n ≤ remote.length →
      insertRows noFaults lo ((remote.drop lo).take n) =
        insertIndices remote (List.range' lo n) := by
  induction n with
  | zero =>
      intro lo _
      rw [List.take_zero]
      rfl
  | succ n ih =>
      intro lo hle
      have hlo : lo < remote.length := by omega
      rw [List.drop_eq_getElem_cons hlo, List.take_succ_cons, List.range'_succ, insertIndices,
        ← ih (lo + 1) (by omega), insertIndex, List.getElem?_eq_getElem hlo]
      rfl

lemma storeChunks_transactions (remote : List RemoteFile) (bounds : List (ℕ × ℕ))
    (h : ∀ b ∈ bounds, b.1 ≤ b.2 ∧ b.2 ≤ remote.length) :
    storeChunks (fun _ => noFaults) remote bounds =
      performTransactions remote (bounds.map indicesOf) := by
  induction bounds with
  | nil => rfl
  | cons b rest ih =>
      obtain ⟨lo, hi⟩ := b
      obtain ⟨hle, hhi⟩ := h (lo, hi) List.mem_cons_self
      rw [storeChunks, ih fun b hb => h b (List.mem_cons_of_mem _ hb), List.map_cons,
        performTransactions, storeRemoteListOfFilesChunk, chunk,
        insertRows_indices remote (hi - lo) lo (by omega)]
      simp only [bind_assoc]
      rfl

/-- The bounds lie in the list, and a chunk has at most a hundred files. -/
lemma chunkBounds_bounded {count : ℕ} {b : ℕ × ℕ} (h : b ∈ chunkBounds count) :
    b.1 ≤ b.2 ∧ b.2 ≤ count ∧ b.2 - b.1 ≤ 100 := by
  unfold chunkBounds at h
  split_ifs at h with hsmall hmore
  · obtain rfl := List.mem_singleton.mp h
    exact ⟨Nat.zero_le _, le_refl _, hsmall⟩
  all_goals
    obtain ⟨i, hi, rfl⟩ := List.mem_map.mp h
    rw [List.mem_range] at hi
    dsimp only
    omega

/-- The first chunks have the first indices. -/
lemma flatMap_indices_range (count k : ℕ) :
    (List.range k).flatMap (fun i => indicesOf (i * 100, min ((i + 1) * 100) count)) =
      List.range (min (k * 100) count) := by
  induction k with
  | zero => simp
  | succ k ih =>
      rw [List.range_succ, List.flatMap_append, ih, List.flatMap_singleton, indicesOf,
        List.range_eq_range', List.range_eq_range']
      dsimp only
      rcases le_total count (k * 100) with hle | hle
      · rw [show min ((k + 1) * 100) count - k * 100 = 0 by omega, List.range'_zero,
          List.append_nil, min_eq_right hle, min_eq_right (by omega)]
      · have happend := List.range'_append_1 (s := 0) (m := k * 100)
          (n := min ((k + 1) * 100) count - k * 100)
        rw [Nat.zero_add] at happend
        rw [min_eq_left hle, happend]
        congr 1
        omega

/-- The chunks have the indices of the list, in order. -/
lemma chunkBounds_indices (count : ℕ) :
    ((chunkBounds count).map indicesOf).flatten = List.range count := by
  rw [← List.flatMap_def]
  unfold chunkBounds
  split_ifs with hsmall hmore
  · rw [List.flatMap_singleton, List.range_eq_range']
    rfl
  all_goals
    rw [List.flatMap_map, flatMap_indices_range, min_eq_right]
    omega

/-! ## The table afterwards -/

lemma mem_insertAll {key : Bytes} (t : Files) (l : List RemoteFile) :
    key ∈ insertAll t l ↔ key ∈ t ∨ key ∈ l.map RemoteFile.path := by
  induction l generalizing t with
  | nil => simp [insertAll]
  | cons f l ih =>
      rw [insertAll, ih, AList.mem_insert, List.map_cons, List.mem_cons]
      tauto

/-- A chunk of new files is stored. -/
lemma storeRemoteListOfFilesChunk_noFaults {remote : List RemoteFile} {lo hi : ℕ} {t : Files}
    (hdistinct : ((chunk remote lo hi).map RemoteFile.path).Nodup)
    (habsent : ∀ f ∈ chunk remote lo hi, f.path ∉ t) :
    (storeRemoteListOfFilesChunk noFaults remote lo hi).runOn { committed := t } =
      (some (), { committed := insertAll t (chunk remote lo hi) }) := by
  have hinsertable : Insertable noFaults lo (chunk remote lo hi) t :=
    ⟨fun _ _ => ⟨rfl, rfl, rfl, rfl⟩, hdistinct, habsent⟩
  have hbegin : Connection.begin ({ committed := t } : Db) =
      some { committed := t, working := some ⟨t, none⟩ } := rfl
  have hbody := storeRemoteListOfFilesChunk_stopsBy noFaults remote lo hi hbegin
  rw [insertRowsStop_eq_none.mpr hinsertable] at hbody
  have hchunk : Script.StopsBy none _ _ (storeRemoteListOfFilesChunk noFaults remote lo hi)
      { committed := t } := Script.stopsBy_perform_then rfl hbegin hbody
  obtain ⟨⟨⟩, c', hrun, rfl⟩ := hchunk.runOn
  exact hrun

/-- Chunks of new files are stored, all of them. -/
lemma storeChunks_noFaults (remote : List RemoteFile) (bounds : List (ℕ × ℕ)) {t : Files}
    (hdistinct : ((bounds.flatMap fun b => chunk remote b.1 b.2).map RemoteFile.path).Nodup)
    (habsent : ∀ f ∈ bounds.flatMap fun b => chunk remote b.1 b.2, f.path ∉ t) :
    (storeChunks (fun _ => noFaults) remote bounds).runOn { committed := t } =
      (some (), { committed := insertAll t (bounds.flatMap fun b => chunk remote b.1 b.2) }) := by
  induction bounds generalizing t with
  | nil => rfl
  | cons b rest ih =>
      obtain ⟨lo, hi⟩ := b
      rw [List.flatMap_cons] at hdistinct habsent ⊢
      rw [List.map_append, List.nodup_append] at hdistinct
      obtain ⟨hfirst, hrest, hdisjoint⟩ := hdistinct
      have hchunk := storeRemoteListOfFilesChunk_noFaults hfirst
        fun f hf => habsent f (List.mem_append_left _ hf)
      have hlater := ih (t := insertAll t (chunk remote lo hi)) hrest ?_
      · suffices h : (storeChunks (fun _ => noFaults) remote ((lo, hi) :: rest)).wp (fun r c' =>
            r = some () ∧ c' = { committed := insertAll t (chunk remote lo hi ++
              rest.flatMap fun b => chunk remote b.1 b.2) }) { committed := t }
          from Prod.ext h.1 h.2
        rw [storeChunks, Script.wp_bind, Script.wp, hchunk]
        dsimp only
        rw [Script.wp, hlater, insertAll_append]
        exact ⟨rfl, rfl⟩
      · intro f hf hmem
        rcases (mem_insertAll t _).mp hmem with hmem | hmem
        · exact habsent f (List.mem_append_right _ hf) hmem
        · exact hdisjoint _ hmem _ (List.mem_map_of_mem hf) rfl

/-- The rows of the files, and no others. -/
lemma lookup_insertAll_iff {l : List RemoteFile} (hdistinct : (l.map RemoteFile.path).Nodup)
    (key : Bytes) (row : Row) : (insertAll ∅ l).lookup key = some row ↔
      ∃ i, ∃ h : i < l.length, l[i].path = key ∧ row = ⟨l[i].md5, l[i].mtime.toUInt64⟩ := by
  constructor
  · intro hlookup
    have hmem : key ∈ insertAll ∅ l := by
      rw [← AList.lookup_isSome, hlookup]
      rfl
    have hpath : key ∈ l.map RemoteFile.path := by
      rcases (mem_insertAll ∅ l).mp hmem with hempty | hpath
      · exact absurd hempty (AList.notMem_empty key)
      · exact hpath
    obtain ⟨f, hf, rfl⟩ := List.mem_map.mp hpath
    obtain ⟨i, hi, rfl⟩ := List.mem_iff_getElem.mp hf
    refine ⟨i, hi, rfl, ?_⟩
    rw [lookup_insertAll ∅ hf hdistinct] at hlookup
    exact (Option.some.inj hlookup).symm
  · rintro ⟨i, hi, rfl, rfl⟩
    exact lookup_insertAll ∅ (List.getElem_mem hi) hdistinct

/-- **A list that is stored in chunks loses nothing**: below `2^31 - 100` files nothing overflows,
every index is inserted once and in order, at most a hundred in a transaction, and after `truncate`
the table is the list. -/
theorem storeRemoteListOfFiles32_exact (remote : List RemoteFile)
    (hcount : remote.length < 2 ^ 31 - 100) (hdistinct : (remote.map RemoteFile.path).Nodup)
    (t : Files) :
    ∃ store, storeRemoteListOfFiles32 (fun _ => noFaults) remote = some store ∧
      (∃ transactions, store = performTransactions remote transactions ∧
        transactions.flatten = List.range remote.length ∧
        ∀ indices ∈ transactions, indices.length ≤ 100) ∧
      ∃ t' : Files,
        (do truncate noFaults; store).runOn { committed := t } = (some (), { committed := t' }) ∧
        ∀ key row, t'.lookup key = some row ↔ ∃ i, ∃ h : i < remote.length,
          remote[i].path = key ∧ row = ⟨remote[i].md5, remote[i].mtime.toUInt64⟩ := by
  refine ⟨storeRemoteListOfFiles (fun _ => noFaults) remote,
    storeRemoteListOfFiles32_eq _ hcount, ?_, ?_⟩
  · refine ⟨(chunkBounds remote.length).map indicesOf, ?_, chunkBounds_indices _, ?_⟩
    · refine storeChunks_transactions remote _ fun b hb => ?_
      exact ⟨(chunkBounds_bounded hb).1, (chunkBounds_bounded hb).2.1⟩
    · intro indices hindices
      obtain ⟨b, hb, rfl⟩ := List.mem_map.mp hindices
      rw [indicesOf, List.length_range']
      exact (chunkBounds_bounded hb).2.2
  · have hstore := storeChunks_noFaults remote (chunkBounds remote.length) (t := ∅)
    rw [chunkBounds_chunks] at hstore
    refine ⟨insertAll ∅ remote, ?_, lookup_insertAll_iff hdistinct⟩
    exact hstore hdistinct fun f _ => AList.notMem_empty f.path

/-- Two files, over a table with another. -/
theorem storeRemoteListOfFiles32_exact_sample :
    ∃ store, storeRemoteListOfFiles32 (fun _ => noFaults)
        [⟨ascii "a", ascii "900150983cd24fb0d6963f7d28e17f72", 1000⟩,
          ⟨ascii "b", ascii "900150983cd24fb0d6963f7d28e17f72", 2000⟩] = some store ∧
      ∃ t' : Files, (do truncate noFaults; store).runOn
          { committed := AList.insert (ascii "c") ⟨[], 0⟩ ∅ } = (some (), { committed := t' }) ∧
        t'.lookup (ascii "b") = some ⟨ascii "900150983cd24fb0d6963f7d28e17f72", 2000⟩ := by
  obtain ⟨store, hstore, -, t', hrun, hrows⟩ := storeRemoteListOfFiles32_exact
    [⟨ascii "a", ascii "900150983cd24fb0d6963f7d28e17f72", 1000⟩,
      ⟨ascii "b", ascii "900150983cd24fb0d6963f7d28e17f72", 2000⟩] (by decide) (by decide)
    (AList.insert (ascii "c") ⟨[], 0⟩ ∅)
  exact ⟨store, hstore, t', hrun, (hrows _ _).mpr ⟨1, by decide, rfl, rfl⟩⟩

end FileListStorage

end Clarc
