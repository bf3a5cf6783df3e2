import Clarc.Core.Within
import Clarc.Local.LocalFileList

/-!
# The files table: `fileListStorage.cc`

Each operation is the sequence of SQLite calls its source makes, and returns at the first that
fails: no operation rolls anything back itself.  Which calls fail, and whether SQLite undoes the
whole transaction then, is the parameter `fails`; a statement also fails when the connection's state
refuses it (`BEGIN` inside a transaction, `INSERT` of a key that is there), which changes nothing.

What the rest of the development uses of an operation is one lemma that says what it leaves
behind, whatever failed: `store_cases`, `truncate_spec`, `storeRemoteListOfFilesChunk_spec`
and `calculateListOfFilesToDelete_spec`.
-/

namespace Clarc

open Sqlite

/-- A row of the files table, without its key.  `mtime` is the 64-bit column. -/
structure Row where
  md5 : Bytes
  mtime : UInt64
  deriving DecidableEq, Repr

/-- The files table. -/
abbrev Files := Table Bytes Row

/-- The connection behind a `FileListStorage`. -/
abbrev Db := Connection Bytes Row

/-- The SQLite calls of one operation, each once: `bind` and `step` carry the row they are for. -/
inductive Call
  | create | begin | prepare | bind (row column : ℕ) | step (row : ℕ) | clear | commit
  | select | fetch (row : ℕ) | drop
  deriving DecidableEq, Repr

/-- Which calls fail, and what SQLite undoes then. -/
abbrev Faults := Call → Option Undoing

/-- No call fails. -/
def noFaults : Faults := fun _ => none

/-- One file of a `RemoteListOfFiles`: its place in `paths`, `md5s` and `mtimes`. -/
structure RemoteFile where
  path : Bytes
  md5 : Bytes
  mtime : UInt32 := 0
  deriving DecidableEq, Repr

namespace FileListStorage

/-! ## Operations -/

/-- `FileListStorage::lookup`: the md5 and mtime of a row, empty and 0 without one. -/
def lookup (fails : Faults) (remotePath : Bytes) : Script Bytes Row (Bytes × UInt64) := do
  Script.call (fails .prepare)
  Script.call (fails (.bind 0 1))
  Script.call (fails (.step 0))
  Script.ask fun c =>
    match c.view.lookup remotePath with
    | some row => (row.md5, row.mtime)
    | none => ([], 0)

/-- `FileListStorage::store`, which binds exactly 32 bytes of `md5`.  While the upload stores rows
no transaction is open (`Main.upload_alone`), so that the `REPLACE` fails alone. -/
def store (fails : Faults) (remotePath md5 : Bytes) (mtime : UInt64) : Script Bytes Row Unit := do
  Script.call (fails .prepare)
  Script.call (fails (.bind 0 1))
  Script.call (fails (.bind 0 2))
  Script.call (fails (.bind 0 3))
  Script.performAlone (fails (.step 0)) (Connection.replace remotePath ⟨md5.take 32, mtime⟩)

/-- `FileListStorage::truncate`. -/
def truncate (fails : Faults) : Script Bytes Row Unit := do
  Script.perform (fails .begin) Connection.begin
  Script.perform (fails .clear) Connection.clear
  Script.perform (fails .commit) Connection.commit

/-- The loop of `storeRemoteListOfFilesChunk`, from row `i`. -/
def insertRows (fails : Faults) (i : ℕ) : List RemoteFile → Script Bytes Row Unit
  | [] => pure ()
  | f :: rest => do
      Script.call (fails (.bind i 1))
      Script.call (fails (.bind i 2))
      Script.call (fails (.bind i 3))
      Script.perform (fails (.step i)) (Connection.insert f.path ⟨f.md5, f.mtime.toUInt64⟩)
      insertRows fails (i + 1) rest

/-- The files of a chunk. -/
def chunk (remote : List RemoteFile) (lo hi : ℕ) : List RemoteFile :=
  (remote.drop lo).take (hi - lo)

/-- `FileListStorage::storeRemoteListOfFilesChunk`. -/
def storeRemoteListOfFilesChunk (fails : Faults) (remote : List RemoteFile) (lo hi : ℕ) :
    Script Bytes Row Unit := do
  Script.perform (fails .begin) Connection.begin
  Script.call (fails .prepare)
  insertRows fails lo (chunk remote lo hi)
  Script.perform (fails .commit) Connection.commit

/-- The bounds `storeRemoteListOfFiles` goes through. -/
def chunkBounds (count : ℕ) : List (ℕ × ℕ) :=
  if count ≤ 100 then [(0, count)]
  else
    let chunks := if count / 100 * 100 < count then count / 100 + 1 else count / 100
    (List.range chunks).map fun i => (i * 100, min ((i + 1) * 100) count)

/-- Store the chunks one after another. -/
def storeChunks (fails : ℕ → Faults) (remote : List RemoteFile) :
    List (ℕ × ℕ) → Script Bytes Row Unit
  | [] => pure ()
  | (lo, hi) :: rest => do
      storeRemoteListOfFilesChunk (fails lo) remote lo hi
      storeChunks fails remote rest

/-- `FileListStorage::storeRemoteListOfFiles`. -/
def storeRemoteListOfFiles (fails : ℕ → Faults) (remote : List RemoteFile) :
    Script Bytes Row Unit :=
  storeChunks fails remote (chunkBounds remote.length)

/-- The loop of `calculateListOfFilesToDelete` over the local files, from row `i`. -/
def insertLocal (fails : Faults) (i : ℕ) : List Bytes → Script Bytes Row Unit
  | [] => pure ()
  | path :: rest => do
      Script.call (fails (.bind i 1))
      Script.perform (fails (.step i)) (Connection.insertTemporary (path.drop 1))
      insertLocal fails (i + 1) rest

/-- The cursor loop: rows up to the first step that does not return one. -/
def fetchRows (fails : Faults) (i : ℕ) : List Bytes → List Bytes
  | [] => []
  | k :: rest => if (fails (.fetch i)).isSome then [] else k :: fetchRows fails (i + 1) rest

/-- `SELECT filePath FROM files WHERE files.filePath NOT IN (SELECT filePath FROM localFiles)`.
SQLite reads the rows out of the index of the primary key, which is in the order of the bytes. -/
def notLocal (c : Db) : List Bytes :=
  (c.view.keys.filter fun k => k ∉ c.temporary.getD []).insertionSort (· ≤ ·)

/-- `FileListStorage::calculateListOfFilesToDelete`; a null pointer is a failed script. -/
def calculateListOfFilesToDelete (fails : Faults) (localFiles : LocalFileList) :
    Script Bytes Row (List Bytes) := do
  Script.perform (fails .create) Connection.createTemporary
  Script.perform (fails .begin) Connection.begin
  Script.call (fails .prepare)
  insertLocal fails 0 localFiles.paths
  Script.perform (fails .commit) Connection.commit
  Script.call (fails .select)
  let rows ← Script.ask notLocal
  Script.attempt (fails .drop) Connection.dropTemporary
  pure (fetchRows fails 0 rows)

/-- The loop of `storeDeletedBatch`, from row `i`. -/
def eraseRows (fails : Faults) (i : ℕ) : List Bytes → Script Bytes Row Unit
  | [] => pure ()
  | k :: rest => do
      Script.call (fails (.bind i 1))
      Script.perform (fails (.step i)) (Connection.erase k)
      eraseRows fails (i + 1) rest

/-- `FileListStorage::storeDeletedBatch`. -/
def storeDeletedBatch (fails : Faults) (batch : List Bytes) : Script Bytes Row Unit := do
  Script.perform (fails .begin) Connection.begin
  Script.call (fails .prepare)
  eraseRows fails 0 batch
  Script.perform (fails .commit) Connection.commit

/-! ## What they leave behind -/

/-- A lookup changes nothing, and what it returns is the row, or empty and 0. -/
lemma lookup_cases (fails : Faults) (remotePath : Bytes) (c : Db) :
    (lookup fails remotePath).runOn c = (none, c) ∨
      (lookup fails remotePath).runOn c =
        (some (match c.view.lookup remotePath with
          | some row => (row.md5, row.mtime)
          | none => ([], 0)), c) := by
  have h : (lookup fails remotePath).wp (fun r c' => c' = c ∧ (r = none ∨
      r = some (match c.view.lookup remotePath with
        | some row => (row.md5, row.mtime)
        | none => ([], 0)))) c := by
    simp only [lookup, Script.wp_bind, Script.wp_call, Script.wp_ask]
    rcases fails .prepare with _ | _ <;> rcases fails (.bind 0 1) with _ | _ <;>
      rcases fails (.step 0) with _ | _ <;> simp
  rcases h with ⟨hc, hr | hr⟩
  · exact Or.inl (Prod.ext hr hc)
  · exact Or.inr (Prod.ext hr hc)

/-- No SQLite call of `store` fails. -/
def StoreUndisturbed (fails : Faults) : Prop :=
  ∀ call ∈ [Call.prepare, .bind 0 1, .bind 0 2, .bind 0 3, .step 0], fails call = none

instance (fails : Faults) : Decidable (StoreUndisturbed fails) :=
  inferInstanceAs (Decidable (∀ _ ∈ _, _))

/-- A store writes its row when none of its calls fails, and changes nothing otherwise. -/
lemma store_eq (fails : Faults) (remotePath md5 : Bytes) (mtime : UInt64) (c : Db) :
    (store fails remotePath md5 mtime).runOn c =
      if StoreUndisturbed fails then
        (some (), c.update (AList.insert remotePath ⟨md5.take 32, mtime⟩))
      else (none, c) := by
  suffices h : (store fails remotePath md5 mtime).wp (fun r c' => (r, c') =
      if StoreUndisturbed fails then
        (some (), c.update (AList.insert remotePath ⟨md5.take 32, mtime⟩))
      else (none, c)) c from h
  simp only [store, Script.wp_bind, Script.wp_call, Script.wp_performAlone, Connection.replace,
    StoreUndisturbed, List.forall_mem_cons]
  repeat' split
  all_goals simp_all

/-- A store fails and changes nothing, or writes its row. -/
lemma store_cases (fails : Faults) (remotePath md5 : Bytes) (mtime : UInt64) (c : Db) :
    (store fails remotePath md5 mtime).runOn c = (none, c) ∨
      (store fails remotePath md5 mtime).runOn c =
        (some (), c.update (AList.insert remotePath ⟨md5.take 32, mtime⟩)) := by
  rw [store_eq]
  split_ifs
  · exact Or.inr rfl
  · exact Or.inl rfl

/-- Rows inserted one after another. -/
def insertAll (t : Files) : List RemoteFile → Files
  | [] => t
  | f :: rest => insertAll (t.insert f.path ⟨f.md5, f.mtime.toUInt64⟩) rest

/-- Rows deleted one after another. -/
def eraseAll (t : Files) : List Bytes → Files
  | [] => t
  | k :: rest => eraseAll (t.erase k) rest

/-! ### Inside a transaction -/

/-- What stops the loop of `storeRemoteListOfFilesChunk`, from row `i` on and above the table `t`:
the first call that fails, or the first row that is there already. -/
def insertRowsStop (fails : Faults) (i : ℕ) (t : Files) : List RemoteFile → Option Undoing
  | [] => none
  | f :: rest =>
      (alone (fails (.bind i 1))).or <| (alone (fails (.bind i 2))).or <|
        (alone (fails (.bind i 3))).or <|
          ((fails (.step i)).or (if f.path ∈ t then some .statement else none)).or <|
            insertRowsStop fails (i + 1) (t.insert f.path ⟨f.md5, f.mtime.toUInt64⟩) rest

/-- What stops the loop of `storeDeletedBatch` over so many keys, from row `i` on. -/
def eraseRowsStop (fails : Faults) (i : ℕ) : ℕ → Option Undoing
  | 0 => none
  | batchCount + 1 =>
      (alone (fails (.bind i 1))).or <| (fails (.step i)).or <|
        eraseRowsStop fails (i + 1) batchCount

/-- What stops a transaction behind its `BEGIN`, by what stops its loop. -/
def transactionStop (fails : Faults) (loop : Option Undoing) : Option Undoing :=
  (alone (fails .prepare)).or (loop.or (fails .commit))

/-- The connection is inside the transaction of `c₀`, with this working copy. -/
structure Reached (c₀ : Db) (t : Files) (c : Db) : Prop where
  inside : c₀.Inside c
  working : c.working.map Transaction.table = some t
  temporary : c.temporary = c₀.temporary

lemma reached_begin {c c₀ : Db} (h : c.begin = some c₀) : Reached c₀ c.committed c₀ := by
  refine ⟨Connection.inside_begin h, ?_, ?_⟩
  all_goals
    obtain ⟨-, rfl⟩ := Connection.begin_eq_some.mp h
    rfl

lemma Reached.view {c₀ c : Db} {t : Files} (h : Reached c₀ t c) : c.view = t := by
  obtain ⟨t', ht', heq⟩ := Option.map_eq_some_iff.mp h.working
  rw [Connection.view, ht']
  exact heq

lemma Reached.update {c₀ c : Db} {t : Files} (h : Reached c₀ t c) (f : Files → Files) :
    Reached c₀ (f t) (c.update f) := by
  obtain ⟨t', ht', rfl⟩ := Option.map_eq_some_iff.mp h.working
  refine ⟨h.inside.update f, ?_, ?_⟩
  · rw [Connection.update, ht']
    rfl
  · rw [Connection.temporary_update, h.temporary]

lemma insert_stopsBy (fails : Option Undoing) (k : Bytes) (row : Row) {c₀ c : Db} {t : Files}
    (h : Reached c₀ t c) :
    Script.StopsBy (fails.or (if k ∈ t then some .statement else none))
      (fun _ c' => Reached c₀ (t.insert k row) c') c₀.Broken
      (Script.perform fails (Connection.insert k row)) c := by
  refine Script.stopsBy_perform_of_ite h.inside.broken ?_ fun _ => h.update (AList.insert k row)
  rw [Connection.insert, h.view]

/-- The loop puts in every row, or what stops it leaves the transaction broken. -/
lemma insertRows_stopsBy (fails : Faults) (rows : List RemoteFile) {c₀ : Db} :
    ∀ (i : ℕ) (c : Db) (t : Files), Reached c₀ t c →
      Script.StopsBy (insertRowsStop fails i t rows) (fun _ c' => Reached c₀ (insertAll t rows) c')
        c₀.Broken (insertRows fails i rows) c := by
  induction rows with
  | nil => exact fun i c t h => Script.stopsBy_pure h
  | cons f rest ih =>
      intro i c t h
      have hsame : c₀.Broken .statement c := h.inside
      refine Script.stopsBy_call_then hsame (Script.stopsBy_call_then hsame
        (Script.stopsBy_call_then hsame ?_))
      exact (insert_stopsBy _ _ _ h).bind fun _ c₁ h₁ => ih (i + 1) c₁ _ h₁

lemma eraseRows_stopsBy (fails : Faults) (batch : List Bytes) {c₀ : Db} :
    ∀ (i : ℕ) (c : Db) (t : Files), Reached c₀ t c →
      Script.StopsBy (eraseRowsStop fails i batch.length)
        (fun _ c' => Reached c₀ (eraseAll t batch) c') c₀.Broken (eraseRows fails i batch) c := by
  induction batch with
  | nil => exact fun i c t h => Script.stopsBy_pure h
  | cons k rest ih =>
      intro i c t h
      have herase : Script.StopsBy (fails (.step i)) (fun _ c' => Reached c₀ (t.erase k) c')
          c₀.Broken (Script.perform (fails (.step i)) (Connection.erase k)) c :=
        Script.stopsBy_perform_of_some h.inside.broken rfl (h.update _)
      refine Script.stopsBy_call_then (show c₀.Broken .statement c from h.inside) ?_
      exact herase.bind fun _ c₁ h₁ => ih (i + 1) c₁ _ h₁

/-- The end of a transaction. -/
lemma commit_stopsBy (fails : Option Undoing) {c c₀ c₁ : Db} {t : Files}
    (hbegin : c.begin = some c₀) (h : Reached c₀ t c₁) :
    Script.StopsBy fails (fun _ c' => c' = { c with committed := t }) c₀.Broken
      (Script.perform fails Connection.commit) c₁ := by
  obtain ⟨hsettled, rfl⟩ := Connection.begin_eq_some.mp hbegin
  obtain ⟨t', ht', rfl⟩ := Option.map_eq_some_iff.mp h.working
  refine Script.stopsBy_perform_of_some h.inside.broken
    (by rw [Connection.commit, ht']) ?_
  have htemporary := h.temporary
  rcases c with ⟨committed, working, temporary⟩
  obtain rfl : working = none := hsettled
  simp only [htemporary]

/-- **A transaction behind its `BEGIN`** whose loop works on the working copy only: it goes through
when nothing stops it, and is broken otherwise. -/
lemma transaction_stopsBy {fails : Faults} {loop : Script Bytes Row Unit} {stop : Option Undoing}
    {c c₀ : Db} {t : Files} (hbegin : c.begin = some c₀)
    (hloop : Script.StopsBy stop (fun _ c' => Reached c₀ t c') c₀.Broken loop c₀) :
    Script.StopsBy (transactionStop fails stop) (fun _ c' => c' = { c with committed := t })
      c₀.Broken (do
        Script.call (fails .prepare)
        loop
        Script.perform (fails .commit) Connection.commit) c₀ := by
  refine Script.stopsBy_call_then
    (show c₀.Broken .statement c₀ from (reached_begin hbegin).inside) ?_
  exact hloop.bind fun _ c₁ h₁ => commit_stopsBy _ hbegin h₁

/-! ### From any connection -/

/-- An operation that begins with `BEGIN`: it leaves what its transaction leaves, or the committed
table as it was. -/
lemma begun_spec {fails : Faults} {body : Script Bytes Row Unit} {stop : Option Undoing} {c : Db}
    {t : Files} (hbody : ∀ c₀, c.begin = some c₀ →
      Script.StopsBy stop (fun _ c' => c' = { c with committed := t }) c₀.Broken body c₀) :
    (do Script.perform (fails .begin) Connection.begin
        body).wp (fun r c' => match r with
      | none => c'.committed = c.committed
      | some _ => c' = { c with committed := t } ∧ c.Settled) c := by
  refine Script.wp_perform_then (fun failure => c.committed_undo failure) ?_
  intro c₀ hbegin
  refine Script.wp_mono _ (hbody c₀ hbegin) ?_
  rintro (_ | _) c' h
  · rcases stop with _ | failure
    · exact h.elim
    · exact (Connection.Broken.committed h).trans (Connection.committed_begin hbegin)
  · rcases stop with _ | failure
    · exact ⟨h, (Connection.begin_eq_some.mp hbegin).1⟩
    · exact h.elim

/-- What stops `truncate` behind its `BEGIN`. -/
def truncateStop (fails : Faults) : Option Undoing := (fails .clear).or (fails .commit)

lemma truncate_stopsBy (fails : Faults) {c c₀ : Db} (hbegin : c.begin = some c₀) :
    Script.StopsBy (truncateStop fails) (fun _ c' => c' = { c with committed := ∅ }) c₀.Broken (do
      Script.perform (fails .clear) Connection.clear
      Script.perform (fails .commit) Connection.commit) c₀ := by
  have hreached := reached_begin hbegin
  have hclear : Script.StopsBy (fails .clear) (fun _ c' => Reached c₀ ∅ c') c₀.Broken
      (Script.perform (fails .clear) Connection.clear) c₀ :=
    Script.stopsBy_perform_of_some hreached.inside.broken rfl (hreached.update fun _ => ∅)
  exact hclear.bind fun _ c₁ h₁ => commit_stopsBy _ hbegin h₁

/-- `truncate` ends with an empty table and no transaction, or fails with the committed table as
it was. -/
lemma truncate_spec (fails : Faults) (c : Db) :
    (truncate fails).wp (fun r c' => match r with
      | none => c'.committed = c.committed
      | some _ => c' = { c with committed := ∅ } ∧ c.Settled) c :=
  begun_spec fun _ hbegin => truncate_stopsBy fails hbegin

lemma storeRemoteListOfFilesChunk_stopsBy (fails : Faults) (remote : List RemoteFile) (lo hi : ℕ)
    {c c₀ : Db} (hbegin : c.begin = some c₀) :
    Script.StopsBy
      (transactionStop fails (insertRowsStop fails lo c.committed (chunk remote lo hi)))
      (fun _ c' => c' = { c with committed := insertAll c.committed (chunk remote lo hi) })
      c₀.Broken (do
        Script.call (fails .prepare)
        insertRows fails lo (chunk remote lo hi)
        Script.perform (fails .commit) Connection.commit) c₀ :=
  transaction_stopsBy hbegin (insertRows_stopsBy fails _ lo c₀ _ (reached_begin hbegin))

lemma storeDeletedBatch_stopsBy (fails : Faults) (batch : List Bytes) {c c₀ : Db}
    (hbegin : c.begin = some c₀) :
    Script.StopsBy (transactionStop fails (eraseRowsStop fails 0 batch.length))
      (fun _ c' => c' = { c with committed := eraseAll c.committed batch }) c₀.Broken (do
        Script.call (fails .prepare)
        eraseRows fails 0 batch
        Script.perform (fails .commit) Connection.commit) c₀ :=
  transaction_stopsBy hbegin (eraseRows_stopsBy fails batch 0 c₀ _ (reached_begin hbegin))

/-- A chunk is stored whole, or fails with the committed table as it was. -/
lemma storeRemoteListOfFilesChunk_spec (fails : Faults) (remote : List RemoteFile) (lo hi : ℕ)
    (c : Db) :
    (storeRemoteListOfFilesChunk fails remote lo hi).wp (fun r c' => match r with
      | none => c'.committed = c.committed
      | some _ => c' = { c with committed := insertAll c.committed (chunk remote lo hi) } ∧
          c.Settled) c :=
  begun_spec fun _ hbegin => storeRemoteListOfFilesChunk_stopsBy fails remote lo hi hbegin

/-- The rows of a batch are deleted together, or the committed table is as it was. -/
lemma storeDeletedBatch_spec (fails : Faults) (batch : List Bytes) (c : Db) :
    (storeDeletedBatch fails batch).wp (fun r c' => match r with
      | none => c'.committed = c.committed
      | some _ => c' = { c with committed := eraseAll c.committed batch } ∧ c.Settled) c :=
  begun_spec fun _ hbegin => storeDeletedBatch_stopsBy fails batch hbegin

/-! ## A whole list is stored -/

/-- The first chunks of a hundred, put together, are the beginning of the list. -/
lemma flatMap_chunk_range (remote : List RemoteFile) (k : ℕ) :
    (List.range k).flatMap (fun i =>
      chunk remote (i * 100) (min ((i + 1) * 100) remote.length)) = remote.take (k * 100) := by
  induction k with
  | zero => simp
  | succ k ih =>
      have hlast : chunk remote (k * 100) (min ((k + 1) * 100) remote.length) =
          (remote.drop (k * 100)).take 100 := by
        rw [chunk, List.take_eq_take_iff, List.length_drop]
        omega
      rw [List.range_succ, List.flatMap_append, ih, List.flatMap_singleton, hlast,
        Nat.succ_mul, List.take_add]

/-- The chunks of the list, put together, are the list. -/
lemma chunkBounds_chunks (remote : List RemoteFile) :
    (chunkBounds remote.length).flatMap (fun b => chunk remote b.1 b.2) = remote := by
  unfold chunkBounds
  split_ifs with hsmall hmore
  · simp [chunk]
  all_goals
    rw [List.flatMap_map, flatMap_chunk_range]
    exact List.take_of_length_le (by omega)

/-- Some of the first chunks, but not all of them, are a whole number of hundreds. -/
lemma chunkBounds_prefix (remote : List RemoteFile) {done rest : List (ℕ × ℕ)} {b : ℕ × ℕ}
    (h : chunkBounds remote.length = done ++ b :: rest) :
    ∃ k, (k = 0 ∨ k * 100 < remote.length) ∧
      done.flatMap (fun b => chunk remote b.1 b.2) = remote.take (k * 100) := by
  unfold chunkBounds at h
  split_ifs at h with hsmall hmore
  · rcases done with _ | ⟨b', done⟩
    · exact ⟨0, Or.inl rfl, by simp⟩
    · simp at h
  all_goals
    have hlen := congrArg List.length h
    simp only [List.length_map, List.length_range, List.length_append, List.length_cons] at hlen
    have hdone : done = (List.range done.length).map fun i =>
        (i * 100, min ((i + 1) * 100) remote.length) := by
      have htake := congrArg (List.take done.length) h
      rw [List.take_left, ← List.map_take, List.take_range, min_eq_left (by omega)] at htake
      exact htake.symm
    refine ⟨done.length, Or.inr (by omega), ?_⟩
    rw [hdone, List.flatMap_map, List.length_map, List.length_range, flatMap_chunk_range]

lemma insertAll_append (t : Files) (l l' : List RemoteFile) :
    insertAll t (l ++ l') = insertAll (insertAll t l) l' := by
  induction l generalizing t with
  | nil => rfl
  | cons f l ih => exact ih _

/-- The chunks before the one that fails are committed, or all of them. -/
lemma storeChunks_wp (fails : ℕ → Faults) (remote : List RemoteFile) (bounds : List (ℕ × ℕ))
    (c : Db) :
    (storeChunks fails remote bounds).wp (fun r c' => ∃ done rest, bounds = done ++ rest ∧
      c'.committed = insertAll c.committed (done.flatMap fun b => chunk remote b.1 b.2) ∧
        (r = none ↔ rest ≠ [])) c := by
  induction bounds generalizing c with
  | nil =>
      refine ⟨[], [], rfl, rfl, ?_, fun h => absurd rfl h⟩
      rintro ⟨⟩
  | cons b rest ih =>
      obtain ⟨lo, hi⟩ := b
      simp only [storeChunks, Script.wp_bind]
      refine Script.wp_mono _ (storeRemoteListOfFilesChunk_spec (fails lo) remote lo hi c) ?_
      rintro r c₁ h₁
      cases r with
      | none => exact ⟨[], (lo, hi) :: rest, rfl, h₁, by simp⟩
      | some _ =>
          refine Script.wp_mono _ (ih c₁) ?_
          rintro r c₂ ⟨done, rest', hbounds, hcommitted, hr⟩
          refine ⟨(lo, hi) :: done, rest', by rw [hbounds]; rfl, ?_, hr⟩
          rw [hcommitted, h₁.1, List.flatMap_cons, insertAll_append]

/-- Chunks that are all stored have all their rows inserted. -/
lemma storeChunks_spec (fails : ℕ → Faults) (remote : List RemoteFile) (bounds : List (ℕ × ℕ))
    (c : Db) :
    (storeChunks fails remote bounds).wp (fun r c' => r ≠ none →
      c'.committed = insertAll c.committed (bounds.flatMap fun b => chunk remote b.1 b.2)) c := by
  refine Script.wp_mono _ (storeChunks_wp fails remote bounds c) ?_
  rintro r c' ⟨done, rest, hbounds, hcommitted, hr⟩ hsome
  have hrest : rest = [] := by
    by_contra hne
    exact hsome (hr.mpr hne)
  rw [hbounds, hrest, List.append_nil]
  exact hcommitted

/-- When a chunk fails, the chunks before it are committed and nothing else. -/
lemma storeChunks_failed (fails : ℕ → Faults) (remote : List RemoteFile) (bounds : List (ℕ × ℕ))
    (c : Db) :
    (storeChunks fails remote bounds).wp (fun r c' => r = none →
      ∃ done b rest, bounds = done ++ b :: rest ∧
        c'.committed = insertAll c.committed (done.flatMap fun b => chunk remote b.1 b.2)) c := by
  refine Script.wp_mono _ (storeChunks_wp fails remote bounds c) ?_
  rintro r c' ⟨done, rest, hbounds, hcommitted, hr⟩ hnone
  obtain ⟨b, rest', rfl⟩ := List.exists_cons_of_ne_nil (hr.mp hnone)
  exact ⟨done, b, rest', hbounds, hcommitted⟩

/-- **A list that is stored is stored whole.** -/
lemma storeRemoteListOfFiles_spec (fails : ℕ → Faults) (remote : List RemoteFile) (c : Db) :
    (storeRemoteListOfFiles fails remote).wp (fun r c' => r ≠ none →
      c'.committed = insertAll c.committed remote) c := by
  have h := storeChunks_spec fails remote (chunkBounds remote.length) c
  rwa [chunkBounds_chunks] at h

/-- A list that fails is stored up to a whole number of hundreds. -/
lemma storeRemoteListOfFiles_failed (fails : ℕ → Faults) (remote : List RemoteFile) (c : Db) :
    (storeRemoteListOfFiles fails remote).wp (fun r c' => r = none →
      ∃ k, (k = 0 ∨ k * 100 < remote.length) ∧
        c'.committed = insertAll c.committed (remote.take (k * 100))) c := by
  refine Script.wp_mono _ (storeChunks_failed fails remote (chunkBounds remote.length) c) ?_
  intro r c' h hr
  obtain ⟨done, b, rest, hbounds, hcommitted⟩ := h hr
  obtain ⟨k, hk, hchunks⟩ := chunkBounds_prefix remote hbounds
  exact ⟨k, hk, hchunks ▸ hcommitted⟩

/-- The rows that no inserted file has stay. -/
lemma lookup_insertAll_of_notMem {key : Bytes} (t : Files) (l : List RemoteFile)
    (h : ∀ f ∈ l, f.path ≠ key) : (insertAll t l).lookup key = t.lookup key := by
  induction l generalizing t with
  | nil => rfl
  | cons f l ih =>
      rw [insertAll, ih _ fun g hg => h g (List.mem_cons_of_mem _ hg),
        AList.lookup_insert_ne (h f List.mem_cons_self).symm]

/-- Among files with distinct paths each has its row. -/
lemma lookup_insertAll {f : RemoteFile} (t : Files) {l : List RemoteFile} (hf : f ∈ l)
    (h : (l.map RemoteFile.path).Nodup) :
    (insertAll t l).lookup f.path = some ⟨f.md5, f.mtime.toUInt64⟩ := by
  induction l generalizing t with
  | nil => cases hf
  | cons g l ih =>
      rw [List.map_cons, List.nodup_cons] at h
      rcases List.mem_cons.mp hf with rfl | hf
      · rw [insertAll, lookup_insertAll_of_notMem, AList.lookup_insert]
        rintro g hg heq
        exact h.1 (heq ▸ List.mem_map_of_mem hg)
      · exact ih _ hf h.2

/-! ## The list to delete -/

lemma fetchRows_subset (fails : Faults) :
    ∀ (rows : List Bytes) (i : ℕ), fetchRows fails i rows ⊆ rows
  | [], _ => by simp [fetchRows]
  | k :: rest, i => by
      simp only [fetchRows]
      split_ifs
      · simp
      · exact List.cons_subset_cons k (fetchRows_subset fails rest (i + 1))

lemma fetchRows_eq {fails : Faults} (hfetch : ∀ i, fails (.fetch i) = none) :
    ∀ (rows : List Bytes) (i : ℕ), fetchRows fails i rows = rows
  | [], _ => rfl
  | k :: rest, i => by
      rw [fetchRows, hfetch i, if_neg (by decide), fetchRows_eq hfetch rest (i + 1)]

lemma mem_notLocal {c : Db} {k : Bytes} :
    k ∈ notLocal c ↔ k ∈ c.view ∧ k ∉ c.temporary.getD [] := by
  rw [notLocal, List.mem_insertionSort, List.mem_filter, decide_eq_true_eq, AList.mem_keys]

lemma nodup_notLocal (c : Db) : (notLocal c).Nodup :=
  (List.perm_insertionSort _ _).nodup_iff.mpr (c.view.keys_nodup.filter _)

/-- What stops the loop of `calculateListOfFilesToDelete`, from row `i` on and with these keys in
the temporary table: the first call that fails, or the first path that is there already. -/
def insertLocalStop (fails : Faults) (i : ℕ) (ks : List Bytes) : List Bytes → Option Undoing
  | [] => none
  | path :: rest =>
      (alone (fails (.bind i 1))).or <|
        ((fails (.step i)).or (if path.drop 1 ∈ ks then some .statement else none)).or <|
          insertLocalStop fails (i + 1) (ks ++ [path.drop 1]) rest

/-- What stops `calculateListOfFilesToDelete` behind its `CREATE`. -/
def calculateStop (fails : Faults) (paths : List Bytes) : Option Undoing :=
  (fails .begin).or <| (alone (fails .prepare)).or <|
    (insertLocalStop fails 0 [] paths).or <| (fails .commit).or <| alone (fails .select)

/-- The connection is inside the transaction of `c₀`, which has not touched the files table, with
these keys in the temporary table. -/
structure Listed (c₀ : Db) (ks : List Bytes) (c : Db) : Prop where
  inside : c₀.Inside c
  working : c.working = c₀.working
  temporary : c.temporary = some ks

/-- What a failure leaves of the transaction of `c₀`, in which the temporary table is filled. -/
structure Spilt (c₀ : Db) (failure : Undoing) (c : Db) : Prop where
  broken : c₀.Broken failure c
  temporary : c.temporary.isSome = true

lemma Listed.spilt {c₀ c : Db} {ks : List Bytes} (hsaved : c₀.rollback.temporary.isSome = true)
    (h : Listed c₀ ks c) (failure : Undoing) : Spilt c₀ failure (c.undo failure) := by
  refine ⟨h.inside.broken failure, ?_⟩
  cases failure
  · rw [Connection.undo_statement, h.temporary]
    rfl
  · rwa [Connection.undo_transaction, h.inside.rollback]

lemma insertTemporary_stopsBy (fails : Option Undoing) (k : Bytes) {c₀ c : Db} {ks : List Bytes}
    (hsaved : c₀.rollback.temporary.isSome = true) (h : Listed c₀ ks c) :
    Script.StopsBy (fails.or (if k ∈ ks then some .statement else none))
      (fun _ c' => Listed c₀ (ks ++ [k]) c') (Spilt c₀)
      (Script.perform fails (Connection.insertTemporary k)) c := by
  have hinsert : Connection.insertTemporary k c =
      if k ∈ ks then none else some { c with temporary := some (ks ++ [k]) } := by
    simp only [Connection.insertTemporary, h.temporary]
    split_ifs <;> rfl
  refine Script.stopsBy_perform_of_ite (h.spilt hsaved) hinsert fun _ => ?_
  exact ⟨⟨h.inside.committed, h.inside.working⟩, h.working, rfl⟩

lemma insertLocal_stopsBy (fails : Faults) (paths : List Bytes) {c₀ : Db}
    (hsaved : c₀.rollback.temporary.isSome = true) :
    ∀ (i : ℕ) (c : Db) (ks : List Bytes), Listed c₀ ks c →
      Script.StopsBy (insertLocalStop fails i ks paths)
        (fun _ c' => Listed c₀ (ks ++ paths.map (List.drop 1)) c') (Spilt c₀)
        (insertLocal fails i paths) c := by
  induction paths with
  | nil =>
      intro i c ks h
      exact Script.stopsBy_pure (by simpa using h)
  | cons path rest ih =>
      intro i c ks h
      refine Script.stopsBy_call_then (h.spilt hsaved .statement) ?_
      refine (insertTemporary_stopsBy _ _ hsaved h).bind fun _ c₁ h₁ => ?_
      simpa using ih (i + 1) c₁ _ h₁

/-- **`calculateListOfFilesToDelete` behind its `CREATE`**: when nothing stops it, it returns the
rows that are no local path and drops the temporary table; otherwise that is left behind. -/
lemma calculateListOfFilesToDelete_stopsBy (fails : Faults) (files : LocalFileList) {c : Db}
    (hsettled : c.Settled) (htemporary : c.temporary = none) :
    Script.StopsBy (calculateStop fails files.paths)
      (fun l c' => c'.committed = c.committed ∧ c'.working = none ∧
        (fails .drop = none → c' = c) ∧
        l = fetchRows fails 0
          (notLocal { c with temporary := some (files.paths.map (List.drop 1)) }))
      (fun _ c' => c'.committed = c.committed ∧ c'.temporary.isSome = true) (do
        Script.perform (fails .begin) Connection.begin
        Script.call (fails .prepare)
        insertLocal fails 0 files.paths
        Script.perform (fails .commit) Connection.commit
        Script.call (fails .select)
        let rows ← Script.ask notLocal
        Script.attempt (fails .drop) Connection.dropTemporary
        pure (fetchRows fails 0 rows)) { c with temporary := some [] } := by
  obtain ⟨committed, working, temporary⟩ := c
  obtain rfl : working = none := hsettled
  obtain rfl : temporary = none := htemporary
  have hlisted : Listed ⟨committed, some ⟨committed, some []⟩, some []⟩ []
      ⟨committed, some ⟨committed, some []⟩, some []⟩ := ⟨Connection.inside_self rfl, rfl, rfl⟩
  have hbegin : Script.StopsBy (fails .begin)
      (fun _ c' => c' = ⟨committed, some ⟨committed, some []⟩, some []⟩)
      (fun _ c' => c'.committed = committed ∧ c'.temporary.isSome = true)
      (Script.perform (fails .begin) Connection.begin) ⟨committed, none, some []⟩ := by
    refine Script.stopsBy_perform_of_some ?_ rfl rfl
    intro failure
    cases failure <;> exact ⟨rfl, rfl⟩
  refine hbegin.bind ?_
  rintro _ _ rfl
  refine Script.stopsBy_call_then ⟨rfl, rfl⟩ ?_
  have hloop : Script.StopsBy (insertLocalStop fails 0 [] files.paths)
      (fun _ c' => c' = ⟨committed, some ⟨committed, some []⟩,
        some (files.paths.map (List.drop 1))⟩)
      (fun _ c' => c'.committed = committed ∧ c'.temporary.isSome = true)
      (insertLocal fails 0 files.paths) ⟨committed, some ⟨committed, some []⟩, some []⟩ := by
    refine (insertLocal_stopsBy fails files.paths rfl 0 _ _ hlisted).mono ?_ ?_
    · rintro _ ⟨committed₁, working₁, temporary₁⟩ ⟨hinside, rfl, rfl⟩
      obtain rfl : committed₁ = committed := hinside.committed
      rfl
    · exact fun _ _ h => ⟨h.broken.committed, h.temporary⟩
  refine hloop.bind ?_
  rintro _ _ rfl
  have hcommit : Script.StopsBy (fails .commit)
      (fun _ c' => c' = ⟨committed, none, some (files.paths.map (List.drop 1))⟩)
      (fun _ c' => c'.committed = committed ∧ c'.temporary.isSome = true)
      (Script.perform (fails .commit) Connection.commit)
      ⟨committed, some ⟨committed, some []⟩, some (files.paths.map (List.drop 1))⟩ := by
    refine Script.stopsBy_perform_of_some ?_ rfl rfl
    intro failure
    cases failure <;> exact ⟨rfl, rfl⟩
  refine hcommit.bind ?_
  rintro _ _ rfl
  rw [← (alone (fails .select)).or_none]
  refine Script.stopsBy_call_then ⟨rfl, rfl⟩ ?_
  rw [Script.StopsBy]
  simp only [Script.wp_bind, Script.wp_ask, Script.wp_attempt, Script.wp_perform, Script.wp_pure,
    Connection.dropTemporary]
  rcases fails .drop with _ | failure
  · simp
  · cases failure <;> simp [Connection.rollback]

/-- **What `calculateListOfFilesToDelete` returns and leaves**, from any connection and whatever
failed. -/
lemma calculateListOfFilesToDelete_wp (fails : Faults) (files : LocalFileList) (c : Db) :
    (calculateListOfFilesToDelete fails files).wp (fun r c' => c'.committed = c.committed ∧
      ∀ l, r = some l → c.Settled ∧ c'.working = none ∧
        insertLocalStop fails 0 [] files.paths = none ∧
        l = fetchRows fails 0
          (notLocal { c with temporary := some (files.paths.map (List.drop 1)) })) c := by
  refine Script.wp_perform_then (fun failure => ⟨c.committed_undo failure, nofun⟩) ?_
  intro c₁ h₁
  unfold Connection.createTemporary at h₁
  split at h₁
  · cases h₁
  next htemporary =>
  obtain rfl := Option.some.inj h₁
  by_cases hsettled : c.Settled
  · refine Script.wp_mono _
      (calculateListOfFilesToDelete_stopsBy fails files hsettled htemporary) ?_
    rcases hstop : calculateStop fails files.paths with _ | failure
    · rintro (_ | l) c' h
      · exact h.elim
      · obtain ⟨hcommitted, hclosed, -, hl⟩ := h
        refine ⟨hcommitted, ?_⟩
        rintro _ ⟨⟩
        simp only [calculateStop, Option.or_eq_none_iff] at hstop
        exact ⟨hsettled, hclosed, hstop.2.2.1, hl⟩
    · rintro (_ | l) c' h
      · exact ⟨h.1, nofun⟩
      · exact h.elim
  · -- `BEGIN` is refused inside a transaction
    refine Script.wp_perform_then
      (fun failure => ⟨Connection.committed_undo _ failure, nofun⟩) ?_
    exact fun c₂ h₂ => absurd (Connection.begin_eq_some.mp h₂).1 hsettled

/-- The list to delete holds rows of the table whose keys are no local path without its first
character; the files table is left alone. -/
lemma calculateListOfFilesToDelete_spec (fails : Faults) (files : LocalFileList) (c : Db) :
    (calculateListOfFilesToDelete fails files).wp (fun r c' => c'.committed = c.committed ∧
      ∀ l, r = some l → c'.working = none ∧
        ∀ k ∈ l, k ∈ c.committed ∧ k ∉ files.paths.map (List.drop 1)) c := by
  refine Script.wp_mono _ (calculateListOfFilesToDelete_wp fails files c) ?_
  rintro r c' ⟨hcommitted, hl⟩
  refine ⟨hcommitted, fun l hr => ?_⟩
  obtain ⟨hsettled, hclosed, -, rfl⟩ := hl l hr
  refine ⟨hclosed, fun k hk => ?_⟩
  have hk' := mem_notLocal.mp (fetchRows_subset fails _ 0 hk)
  rwa [show Connection.view { c with temporary := some (files.paths.map (List.drop 1)) } =
    c.committed from Connection.view_of_settled hsettled] at hk'

/-- As long as no fetch of the cursor fails, a list that can be calculated leaves out no row whose
key is no local path, whatever else failed. -/
lemma calculateListOfFilesToDelete_all {fails : Faults} (hfetch : ∀ i, fails (.fetch i) = none)
    (files : LocalFileList) (c : Db) :
    (calculateListOfFilesToDelete fails files).wp (fun r _ => ∀ l, r = some l →
      ∀ k ∈ c.committed, k ∉ files.paths.map (List.drop 1) → k ∈ l) c := by
  refine Script.wp_mono _ (calculateListOfFilesToDelete_wp fails files c) ?_
  rintro r c' ⟨-, hl⟩ l hr k hk hlocal
  obtain ⟨hsettled, -, -, rfl⟩ := hl l hr
  rw [fetchRows_eq hfetch, mem_notLocal]
  exact ⟨(Connection.view_of_settled hsettled).symm ▸ hk, hlocal⟩

/-- The temporary table takes each path once. -/
lemma insertLocalStop_nodup {fails : Faults} {paths : List Bytes} :
    ∀ {i : ℕ} {ks : List Bytes}, ks.Nodup → insertLocalStop fails i ks paths = none →
      (ks ++ paths.map (List.drop 1)).Nodup := by
  induction paths with
  | nil =>
      intro i ks hnodup _
      simpa using hnodup
  | cons path rest ih =>
      intro i ks hnodup h
      simp only [insertLocalStop, Option.or_eq_none_iff] at h
      obtain ⟨-, ⟨-, hconflict⟩, hrest⟩ := h
      have hnew : path.drop 1 ∉ ks := by
        intro hmem
        rw [if_pos hmem] at hconflict
        cases hconflict
      have hnodup' : (ks ++ [path.drop 1]).Nodup := by
        refine List.nodup_append.mpr ⟨hnodup, List.nodup_singleton _, ?_⟩
        rintro a ha b hb rfl
        exact hnew (List.mem_singleton.mp hb ▸ ha)
      simpa using ih hnodup' hrest

/-- There is a list to delete only when no two local paths are the same. -/
lemma calculateListOfFilesToDelete_nodup (fails : Faults) (files : LocalFileList) (c : Db) :
    (calculateListOfFilesToDelete fails files).wp
      (fun r _ => r ≠ none → (files.paths.map (List.drop 1)).Nodup) c := by
  refine Script.wp_mono _ (calculateListOfFilesToDelete_wp fails files c) ?_
  rintro (_ | l) c' ⟨-, hl⟩ hr
  · exact absurd rfl hr
  · obtain ⟨-, -, hstop, -⟩ := hl l rfl
    exact insertLocalStop_nodup List.nodup_nil hstop

lemma insertLocalStop_noFaults {paths : List Bytes} :
    ∀ {i : ℕ} {ks : List Bytes}, (ks ++ paths.map (List.drop 1)).Nodup →
      insertLocalStop noFaults i ks paths = none := by
  induction paths with
  | nil => exact fun _ => rfl
  | cons path rest ih =>
      intro i ks hnodup
      have hnew : path.drop 1 ∉ ks := fun hmem =>
        (List.nodup_append.mp hnodup).2.2 _ hmem _ (by simp) rfl
      simp only [insertLocalStop, noFaults, if_neg hnew]
      exact ih (by simpa using hnodup)

/-- **Without a failure** the list to delete is the whole difference, and the connection is as it
was. -/
lemma calculateListOfFilesToDelete_whole {files : LocalFileList} {c : Db} (hc : c.Settled)
    (htemp : c.temporary = none) (hnodup : (files.paths.map (List.drop 1)).Nodup) :
    (calculateListOfFilesToDelete noFaults files).runOn c =
      (some (notLocal { c with temporary := some (files.paths.map (List.drop 1)) }), c) := by
  have hstop : calculateStop noFaults files.paths = none := by
    rw [calculateStop, insertLocalStop_noFaults (by simpa using hnodup)]
    rfl
  have hcreate : c.createTemporary = some { c with temporary := some [] } := by
    rw [Connection.createTemporary, htemp]
  have hbody := calculateListOfFilesToDelete_stopsBy noFaults files hc htemp
  rw [hstop] at hbody
  have hwhole : Script.StopsBy none _ _ (calculateListOfFilesToDelete noFaults files) c :=
    Script.stopsBy_perform_then rfl hcreate hbody
  obtain ⟨_, c', hrun, -, -, hsame, rfl⟩ := hwhole.runOn
  obtain rfl := hsame rfl
  rwa [fetchRows_eq fun _ => rfl] at hrun

/-! ## Properties of the table that the operations keep -/

section
variable {P : Files → Prop} (fails : Faults)

lemma truncate_tables (hempty : P ∅) : (truncate fails).Keeps (Connection.Tables P) :=
  Script.keeps_bind (Connection.Tables.perform fun _ _ => Connection.Tables.begin) fun _ =>
    Script.keeps_bind (Connection.Tables.perform fun _ _ hc => hc.clear hempty) fun _ =>
      Connection.Tables.perform fun _ _ => Connection.Tables.commit

lemma store_tables {remotePath md5 : Bytes} {mtime : UInt64}
    (h : ∀ t, P t → P (t.insert remotePath ⟨md5.take 32, mtime⟩)) :
    (store fails remotePath md5 mtime).Keeps (Connection.Tables P) := by
  refine Script.keeps_bind (Script.keeps_call _) fun _ => ?_
  refine Script.keeps_bind (Script.keeps_call _) fun _ => ?_
  refine Script.keeps_bind (Script.keeps_call _) fun _ => ?_
  refine Script.keeps_bind (Script.keeps_call _) fun _ => ?_
  refine Script.keeps_performAlone ?_
  rintro c c' hc ⟨⟩
  exact hc.update h

lemma insertRows_tables :
    ∀ (i : ℕ) (rows : List RemoteFile),
      (∀ f ∈ rows, ∀ t, P t → P (t.insert f.path ⟨f.md5, f.mtime.toUInt64⟩)) →
      (insertRows fails i rows).Keeps (Connection.Tables P)
  | _, [], _ => Script.keeps_pure ()
  | i, f :: rest, h => by
      refine Script.keeps_bind (Script.keeps_call _) fun _ => ?_
      refine Script.keeps_bind (Script.keeps_call _) fun _ => ?_
      refine Script.keeps_bind (Script.keeps_call _) fun _ => ?_
      refine Script.keeps_bind (Connection.Tables.perform ?_) fun _ => ?_
      · exact fun _ _ hc => hc.insert (h f List.mem_cons_self)
      · exact insertRows_tables (i + 1) rest fun g hg => h g (List.mem_cons_of_mem f hg)

lemma storeRemoteListOfFilesChunk_tables {remote : List RemoteFile}
    (h : ∀ f ∈ remote, ∀ t, P t → P (t.insert f.path ⟨f.md5, f.mtime.toUInt64⟩)) (lo hi : ℕ) :
    (storeRemoteListOfFilesChunk fails remote lo hi).Keeps (Connection.Tables P) := by
  refine Script.keeps_bind (Connection.Tables.perform fun _ _ => Connection.Tables.begin)
    fun _ => ?_
  refine Script.keeps_bind (Script.keeps_call _) fun _ => ?_
  refine Script.keeps_bind (insertRows_tables fails lo _ ?_) fun _ => ?_
  · intro f hf
    exact h f (List.mem_of_mem_drop (List.mem_of_mem_take hf))
  · exact Connection.Tables.perform fun _ _ => Connection.Tables.commit

lemma storeChunks_tables (fails : ℕ → Faults) {remote : List RemoteFile}
    (h : ∀ f ∈ remote, ∀ t, P t → P (t.insert f.path ⟨f.md5, f.mtime.toUInt64⟩)) :
    ∀ bounds : List (ℕ × ℕ), (storeChunks fails remote bounds).Keeps (Connection.Tables P)
  | [] => Script.keeps_pure ()
  | (lo, hi) :: rest =>
      Script.keeps_bind (storeRemoteListOfFilesChunk_tables (fails lo) h lo hi) fun _ =>
        storeChunks_tables fails h rest

lemma insertLocal_tables : ∀ (i : ℕ) (paths : List Bytes),
    (insertLocal fails i paths).Keeps (Connection.Tables P)
  | _, [] => Script.keeps_pure ()
  | i, path :: rest => by
      refine Script.keeps_bind (Script.keeps_call _) fun _ => ?_
      refine Script.keeps_bind ?_ fun _ => insertLocal_tables (i + 1) rest
      exact Connection.Tables.perform fun _ _ hc => hc.insertTemporary

lemma calculateListOfFilesToDelete_tables (files : LocalFileList) :
    (calculateListOfFilesToDelete fails files).Keeps (Connection.Tables P) := by
  refine Script.keeps_bind (Connection.Tables.perform fun _ _ => Connection.Tables.createTemporary)
    fun _ => ?_
  refine Script.keeps_bind (Connection.Tables.perform fun _ _ => Connection.Tables.begin)
    fun _ => ?_
  refine Script.keeps_bind (Script.keeps_call _) fun _ => ?_
  refine Script.keeps_bind (insertLocal_tables fails 0 _) fun _ => ?_
  refine Script.keeps_bind (Connection.Tables.perform fun _ _ => Connection.Tables.commit)
    fun _ => ?_
  refine Script.keeps_bind (Script.keeps_call _) fun _ => ?_
  refine Script.keeps_bind (Script.keeps_ask _) fun _ => ?_
  refine Script.keeps_bind ?_ fun _ => Script.keeps_pure _
  exact Connection.Tables.attempt fun _ _ => Connection.Tables.dropTemporary

lemma eraseRows_tables (h : ∀ k t, P t → P (t.erase k)) : ∀ (i : ℕ) (batch : List Bytes),
    (eraseRows fails i batch).Keeps (Connection.Tables P)
  | _, [] => Script.keeps_pure ()
  | i, k :: rest => by
      refine Script.keeps_bind (Script.keeps_call _) fun _ => ?_
      refine Script.keeps_bind ?_ fun _ => eraseRows_tables h (i + 1) rest
      exact Connection.Tables.perform fun _ _ hc => hc.erase (h k)

lemma storeDeletedBatch_tables (h : ∀ k t, P t → P (t.erase k)) (batch : List Bytes) :
    (storeDeletedBatch fails batch).Keeps (Connection.Tables P) := by
  refine Script.keeps_bind (Connection.Tables.perform fun _ _ => Connection.Tables.begin)
    fun _ => ?_
  refine Script.keeps_bind (Script.keeps_call _) fun _ => ?_
  refine Script.keeps_bind (eraseRows_tables fails h 0 batch) fun _ => ?_
  exact Connection.Tables.perform fun _ _ => Connection.Tables.commit

end

/-! ## Keys that stay within a set -/

section
variable {K : Bytes → Prop} (fails : Faults)

lemma truncate_keeps : (truncate fails).Keeps (Connection.Within K) :=
  (truncate_tables fails fun k hk => absurd hk (AList.notMem_empty k)).within

lemma storeRemoteListOfFilesChunk_keeps {remote : List RemoteFile} (h : ∀ f ∈ remote, K f.path)
    (lo hi : ℕ) : (storeRemoteListOfFilesChunk fails remote lo hi).Keeps (Connection.Within K) :=
  (storeRemoteListOfFilesChunk_tables fails
    (fun f hf _ => Connection.keys_insert (h f hf) _) lo hi).within

lemma calculateListOfFilesToDelete_keeps (files : LocalFileList) :
    (calculateListOfFilesToDelete fails files).Keeps (Connection.Within K) :=
  (calculateListOfFilesToDelete_tables fails files).within

lemma storeDeletedBatch_keeps (batch : List Bytes) :
    (storeDeletedBatch fails batch).Keeps (Connection.Within K) :=
  (storeDeletedBatch_tables fails
    (fun _ _ ht k' hk' => ht k' (AList.mem_erase.mp hk').2) batch).within

end

end FileListStorage

end Clarc
