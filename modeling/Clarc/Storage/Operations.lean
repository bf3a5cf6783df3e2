import Clarc.Storage.FileListStorage

/-!
# Operations that fail, and what they leave behind

`truncate`, `storeRemoteListOfFilesChunk` and `storeDeletedBatch` begin a transaction and end it;
`calculateListOfFilesToDelete` creates a temporary table before and drops it afterwards.  Each
returns at the first statement that fails, and none has a `ROLLBACK` or drops the table on the way
out.  So nothing is left behind only when the very first statement fails, or when the failure makes
SQLite undo the whole transaction and there is nothing else to undo.

* `eraseRowsStop_eq_none`, `insertRowsStop_eq_none`, `insertLocalStop_eq_none` — when nothing stops
  a loop;
* `storeDeletedBatch_left` — what one deletion leaves;
* `Bracketed.script_stopsBy` — when an operation succeeds, and what it leaves otherwise;
* `Bracketed.leavesClean_iff` — **exactly when an operation that reports failure leaves the
  connection as it was**.
-/

namespace Clarc

open Bytes Sqlite

namespace FileListStorage

/-! ## One transaction -/

/-- What holds of the rows of a loop from `i` on holds of its first row and of the rest. -/
lemma forall_rows_succ {P : ℕ → Prop} {i n : ℕ} :
    (∀ j < n + 1, P (i + j)) ↔ P i ∧ ∀ j < n, P (i + 1 + j) := by
  constructor
  · intro h
    refine ⟨h 0 (Nat.succ_pos _), fun j hj => ?_⟩
    have hnext := h (j + 1) (Nat.succ_lt_succ hj)
    rwa [show i + (j + 1) = i + 1 + j by omega] at hnext
  · rintro ⟨hfirst, hrest⟩ j hj
    rcases j with _ | j
    · exact hfirst
    · rw [show i + (j + 1) = i + 1 + j by omega]
      exact hrest j (Nat.lt_of_succ_lt_succ hj)

/-- No SQLite call of `storeDeletedBatch` fails, for a batch of so many keys. -/
structure Undisturbed (fails : Faults) (batchCount : ℕ) : Prop where
  begin : fails .begin = none
  prepare : fails .prepare = none
  rows : ∀ i < batchCount, fails (.bind i 1) = none ∧ fails (.step i) = none
  commit : fails .commit = none

lemma mem_eraseAll {key : Bytes} {t : Files} {batch : List Bytes} :
    key ∈ eraseAll t batch ↔ key ∈ t ∧ key ∉ batch := by
  induction batch generalizing t with
  | nil => simp [eraseAll]
  | cons k rest ih =>
      rw [eraseAll, ih, AList.mem_erase, List.mem_cons]
      tauto

/-- Nothing stops the loop when none of its calls fails. -/
lemma eraseRowsStop_eq_none {fails : Faults} {batchCount : ℕ} : ∀ {i : ℕ},
    eraseRowsStop fails i batchCount = none ↔
      ∀ j < batchCount, fails (.bind (i + j) 1) = none ∧ fails (.step (i + j)) = none := by
  induction batchCount with
  | zero => simp [eraseRowsStop]
  | succ n ih =>
      intro i
      rw [forall_rows_succ (P := fun k => fails (.bind k 1) = none ∧ fails (.step k) = none),
        eraseRowsStop]
      simp only [Option.or_eq_none_iff, alone_eq_none, ih, and_assoc]

/-- What stops the deletion of a batch of so many keys behind its `BEGIN`. -/
def deletedBatchStop (fails : Faults) (batchCount : ℕ) : Option Undoing :=
  transactionStop fails (eraseRowsStop fails 0 batchCount)

lemma undisturbed_iff {fails : Faults} {batchCount : ℕ} : Undisturbed fails batchCount ↔
    fails .begin = none ∧ deletedBatchStop fails batchCount = none := by
  simp only [deletedBatchStop, transactionStop, Option.or_eq_none_iff, alone_eq_none,
    eraseRowsStop_eq_none, Nat.zero_add]
  exact ⟨fun h => ⟨h.begin, h.prepare, h.rows, h.commit⟩, fun h => ⟨h.1, h.2.1, h.2.2.1, h.2.2.2⟩⟩

instance (fails : Faults) (batchCount : ℕ) : Decidable (Undisturbed fails batchCount) :=
  decidable_of_iff' _ undisturbed_iff

/-- **What one deletion leaves.**  A `BEGIN` that fails deletes nothing, nor does one inside an open
transaction, which is refused; behind it the batch is gone when nothing stops the deletion, and
otherwise the transaction stays open unless SQLite undoes it. -/
lemma storeDeletedBatch_left (fails : Faults) (batch : List Bytes) (c : Db) :
    (storeDeletedBatch fails batch).wp (fun _ c' =>
      match fails .begin, c.working.isSome, deletedBatchStop fails batch.length with
      | some failure, _, _ => c' = c.undo failure
      | none, true, _ => c' = c
      | none, false, none => c' = { c with committed := eraseAll c.committed batch }
      | none, false, some .statement => c'.committed = c.committed ∧ c'.working.isSome = true
      | none, false, some .transaction => c' = c) c := by
  rcases hfails : fails .begin with _ | failure
  · rw [storeDeletedBatch, Script.wp_bind, Script.wp_perform, hfails]
    rcases hbegin : c.begin with _ | c₀
    · rw [Connection.begin_eq_none.mp hbegin]
    · rw [Connection.Settled.isSome (Connection.begin_eq_some.mp hbegin).1]
      refine Script.wp_mono _ (storeDeletedBatch_stopsBy fails batch hbegin) ?_
      rw [← deletedBatchStop]
      rcases deletedBatchStop fails batch.length with _ | _ | _
      · rintro (_ | _) c' h
        · exact h.elim
        · exact h
      · rintro (_ | _) c' h
        · exact ⟨h.committed.trans (Connection.committed_begin hbegin), h.isSome⟩
        · exact h.elim
      · rintro (_ | _) c' h
        · exact h.trans (Connection.rollback_begin hbegin)
        · exact h.elim
  · rw [storeDeletedBatch, Script.wp_bind, Script.wp_perform, hfails]

/-- Outside a transaction, and where nothing fails, the batch is gone. -/
lemma storeDeletedBatch_undisturbed {fails : Faults} {batch : List Bytes} {c : Db}
    (h : Undisturbed fails batch.length) (hsettled : c.Settled) :
    ((storeDeletedBatch fails batch).runOn c).2 =
      { c with committed := eraseAll c.committed batch } := by
  obtain ⟨hbegin, hstop⟩ := undisturbed_iff.mp h
  have hleft := storeDeletedBatch_left fails batch c
  rwa [hbegin, hstop, hsettled.isSome] at hleft

/-! ## The other loops -/

/-- No call fails for the rows from `i` on, no two of them have the same key, and the table has a
row for none. -/
structure Insertable (fails : Faults) (i : ℕ) (rows : List RemoteFile) (t : Files) : Prop where
  calls : ∀ j < rows.length, fails (.bind (i + j) 1) = none ∧ fails (.bind (i + j) 2) = none ∧
    fails (.bind (i + j) 3) = none ∧ fails (.step (i + j)) = none
  distinct : (rows.map RemoteFile.path).Nodup
  absent : ∀ f ∈ rows, f.path ∉ t

lemma insertable_cons {fails : Faults} {i : ℕ} {f : RemoteFile} {rest : List RemoteFile}
    {t : Files} (row : Row) : Insertable fails i (f :: rest) t ↔
      (fails (.bind i 1) = none ∧ fails (.bind i 2) = none ∧ fails (.bind i 3) = none ∧
        fails (.step i) = none ∧ f.path ∉ t) ∧
      Insertable fails (i + 1) rest (t.insert f.path row) := by
  have hcalls := forall_rows_succ (i := i) (n := rest.length) (P := fun k =>
    fails (.bind k 1) = none ∧ fails (.bind k 2) = none ∧ fails (.bind k 3) = none ∧
      fails (.step k) = none)
  constructor
  · rintro ⟨hall, hdistinct, habsent⟩
    obtain ⟨⟨h1, h2, h3, hstep⟩, hrest⟩ := hcalls.mp hall
    rw [List.map_cons, List.nodup_cons] at hdistinct
    refine ⟨⟨h1, h2, h3, hstep, habsent f List.mem_cons_self⟩, hrest, hdistinct.2, ?_⟩
    intro g hg hmem
    rcases (AList.mem_insert _).mp hmem with heq | hmem
    · exact hdistinct.1 (heq ▸ List.mem_map_of_mem hg)
    · exact habsent g (List.mem_cons_of_mem f hg) hmem
  · rintro ⟨⟨h1, h2, h3, hstep, hnew⟩, hrest, hdistinct, habsent⟩
    refine ⟨hcalls.mpr ⟨⟨h1, h2, h3, hstep⟩, hrest⟩, ?_, ?_⟩
    · rw [List.map_cons, List.nodup_cons]
      refine ⟨fun hmem => ?_, hdistinct⟩
      obtain ⟨g, hg, heq⟩ := List.mem_map.mp hmem
      exact habsent g hg ((AList.mem_insert _).mpr (Or.inl heq))
    · intro g hg
      rcases List.mem_cons.mp hg with rfl | hg
      · exact hnew
      · exact fun hmem => habsent g hg ((AList.mem_insert _).mpr (Or.inr hmem))

/-- A condition that stops a statement only when it holds. -/
lemma conflict_eq_none {p : Prop} [Decidable p] :
    (if p then some Undoing.statement else none) = none ↔ ¬ p := by
  split_ifs with hp <;> simp [hp]

/-- Nothing stops the loop of `storeRemoteListOfFilesChunk` when every row can be inserted. -/
lemma insertRowsStop_eq_none {fails : Faults} {rows : List RemoteFile} :
    ∀ {i : ℕ} {t : Files}, insertRowsStop fails i t rows = none ↔ Insertable fails i rows t := by
  induction rows with
  | nil =>
      refine fun {i t} => iff_of_true rfl ⟨?_, List.nodup_nil, ?_⟩
      · intro j hj
        exact absurd hj (Nat.not_lt_zero j)
      · intro f hf
        cases hf
  | cons f rest ih =>
      intro i t
      rw [insertable_cons ⟨f.md5, f.mtime.toUInt64⟩, ← ih, insertRowsStop]
      simp only [Option.or_eq_none_iff, alone_eq_none, conflict_eq_none, and_assoc]

/-- No call fails for the paths from `i` on, and without their first character no two of them are
the same, nor is one among the keys that are there. -/
structure Listable (fails : Faults) (i : ℕ) (paths ks : List Bytes) : Prop where
  calls : ∀ j < paths.length, fails (.bind (i + j) 1) = none ∧ fails (.step (i + j)) = none
  distinct : (ks ++ paths.map (List.drop 1)).Nodup

lemma listable_cons {fails : Faults} {i : ℕ} {path : Bytes} {rest ks : List Bytes} :
    Listable fails i (path :: rest) ks ↔
      (fails (.bind i 1) = none ∧ fails (.step i) = none) ∧
      Listable fails (i + 1) rest (ks ++ [path.drop 1]) := by
  have hcalls := forall_rows_succ (i := i) (n := rest.length) (P := fun k =>
    fails (.bind k 1) = none ∧ fails (.step k) = none)
  have hsplit : ks ++ (path :: rest).map (List.drop 1) =
      (ks ++ [path.drop 1]) ++ rest.map (List.drop 1) := by simp
  constructor
  · rintro ⟨hall, hdistinct⟩
    exact ⟨(hcalls.mp hall).1, (hcalls.mp hall).2, hsplit ▸ hdistinct⟩
  · rintro ⟨hfirst, hrest, hdistinct⟩
    exact ⟨hcalls.mpr ⟨hfirst, hrest⟩, hsplit ▸ hdistinct⟩

/-- Nothing stops the loop of `calculateListOfFilesToDelete` when every path can be listed. -/
lemma insertLocalStop_eq_none {fails : Faults} {paths : List Bytes} :
    ∀ {i : ℕ} {ks : List Bytes}, ks.Nodup →
      (insertLocalStop fails i ks paths = none ↔ Listable fails i paths ks) := by
  induction paths with
  | nil =>
      refine fun {i ks} hnodup => iff_of_true rfl ⟨?_, by simpa using hnodup⟩
      intro j hj
      exact absurd hj (Nat.not_lt_zero j)
  | cons path rest ih =>
      intro i ks hnodup
      rw [listable_cons, insertLocalStop]
      simp only [Option.or_eq_none_iff, alone_eq_none, conflict_eq_none, and_assoc]
      refine and_congr_right fun _ => and_congr_right fun _ => ?_
      constructor
      · rintro ⟨hnew, hrest⟩
        exact (ih (hnodup.append (List.nodup_singleton _) (by simpa using hnew))).mp hrest
      · intro hlistable
        have hnodup' := (List.nodup_append.mp hlistable.distinct).1
        refine ⟨fun hmem => ?_, (ih hnodup').mpr hlistable⟩
        exact (List.nodup_append.mp hnodup').2.2 _ hmem _ (List.mem_singleton_self _) rfl

/-! ## Operations -/

/-- The operations that begin with a statement which a later one has to undo. -/
inductive Bracketed
  | truncate
  | storeRemoteListOfFilesChunk (remote : List RemoteFile) (lo hi : ℕ)
  | storeDeletedBatch (batch : List Bytes)
  | calculateListOfFilesToDelete (localFiles : LocalFileList)

namespace Bracketed

/-- What the operation does; its result is the list to delete, or empty. -/
def script (fails : Faults) : Bracketed → Script Bytes Row (List Bytes)
  | truncate => do
      FileListStorage.truncate fails
      pure []
  | storeRemoteListOfFilesChunk remote lo hi => do
      FileListStorage.storeRemoteListOfFilesChunk fails remote lo hi
      pure []
  | storeDeletedBatch batch => do
      FileListStorage.storeDeletedBatch fails batch
      pure []
  | calculateListOfFilesToDelete localFiles =>
      FileListStorage.calculateListOfFilesToDelete fails localFiles

/-- Its first statement. -/
def first : Bracketed → Call
  | calculateListOfFilesToDelete _ => .create
  | _ => .begin

/-- No statement fails, by itself or because a key is there already. -/
def Unhindered (fails : Faults) (t : Files) : Bracketed → Prop
  | truncate => fails .begin = none ∧ fails .clear = none ∧ fails .commit = none
  | storeRemoteListOfFilesChunk remote lo hi =>
      fails .begin = none ∧ fails .prepare = none ∧
        Insertable fails lo (chunk remote lo hi) t ∧ fails .commit = none
  | storeDeletedBatch batch => Undisturbed fails batch.length
  | calculateListOfFilesToDelete localFiles =>
      fails .create = none ∧ fails .begin = none ∧ fails .prepare = none ∧
        Listable fails 0 localFiles.paths [] ∧ fails .commit = none ∧ fails .select = none

/-- What stops it behind its first statement: the first call that fails, or the first key that is
there already. -/
def stop (fails : Faults) (t : Files) : Bracketed → Option Undoing
  | truncate => truncateStop fails
  | storeRemoteListOfFilesChunk remote lo hi =>
      transactionStop fails (insertRowsStop fails lo t (chunk remote lo hi))
  | storeDeletedBatch batch => deletedBatchStop fails batch.length
  | calculateListOfFilesToDelete localFiles => calculateStop fails localFiles.paths

/-- The connection shows the table, has neither a transaction nor a temporary table, and whatever
is done on it next goes as on a connection where nothing has happened. -/
structure Unaffected (t : Files) (conn : Db) : Prop where
  view : conn.view = t
  settled : conn.Settled
  temporary : conn.temporary = none
  later : ∀ {α : Type} (script : Script Bytes Row α),
    script.runOn conn = script.runOn { committed := t }

/-- When the operation reports failure, the connection is as it was. -/
def LeavesClean (fails : Faults) (t : Files) (op : Bracketed) : Prop :=
  ∀ conn, (op.script fails).runOn { committed := t } = (none, conn) → Unaffected t conn

/-- Something is left: a transaction or the temporary table. -/
def Left (conn : Db) : Prop := conn.working.isSome = true ∨ conn.temporary.isSome = true

lemma unaffected_start (t : Files) : Unaffected t { committed := t } where
  view := rfl
  settled := rfl
  temporary := rfl
  later := fun _ => rfl

lemma Unaffected.not_left {t : Files} {conn : Db} (h : Unaffected t conn) : ¬ Left conn := by
  rintro (hworking | htemporary)
  · rw [h.settled.isSome] at hworking
    cases hworking
  · rw [h.temporary] at htemporary
    cases htemporary

variable (fails : Faults) (t : Files)

lemma unhindered_iff (op : Bracketed) :
    op.Unhindered fails t ↔ fails op.first = none ∧ op.stop fails t = none := by
  cases op with
  | truncate => simp only [Unhindered, stop, first, truncateStop, Option.or_eq_none_iff]
  | storeRemoteListOfFilesChunk remote lo hi =>
      simp only [Unhindered, stop, first, transactionStop, Option.or_eq_none_iff, alone_eq_none,
        insertRowsStop_eq_none]
  | storeDeletedBatch batch => exact undisturbed_iff
  | calculateListOfFilesToDelete localFiles =>
      simp only [Unhindered, stop, first, calculateStop, Option.or_eq_none_iff, alone_eq_none,
        insertLocalStop_eq_none List.nodup_nil]

/-- What a failure behind the first statement leaves: nothing when SQLite undoes the transaction and
there is nothing else to undo, a transaction or the temporary table otherwise. -/
def Leaves (op : Bracketed) (failure : Undoing) (conn : Db) : Prop :=
  if op.first = .begin ∧ failure = .transaction then conn = { committed := t } else Left conn

/-- An operation that has nothing but its transaction to undo. -/
lemma begun_stopsBy {op : Bracketed} (hop : op.first = .begin) (hfirst : fails .begin = none)
    {body : Script Bytes Row Unit} {stop : Option Undoing} {t' : Files}
    (hbody : ∀ c₀, Connection.begin { committed := t } = some c₀ →
      Script.StopsBy stop (fun _ c' => c' = { committed := t' }) c₀.Broken body c₀) :
    Script.StopsBy stop (fun _ _ => True) (op.Leaves t)
      (do Script.perform (fails .begin) Connection.begin
          body) { committed := t } := by
  refine Script.stopsBy_perform_then hfirst rfl ((hbody _ rfl).mono (fun _ _ _ => trivial) ?_)
  rintro (_ | _) c' h
  · rw [Leaves, if_neg (by simp)]
    exact Or.inl h.isSome
  · rw [Leaves, if_pos ⟨hop, rfl⟩]
    exact h

/-- **When an operation succeeds, and what it leaves otherwise**, its first statement done. -/
lemma script_stopsBy (op : Bracketed) (hfirst : fails op.first = none) :
    Script.StopsBy (op.stop fails t) (fun _ _ => True) (op.Leaves t) (op.script fails)
      { committed := t } := by
  cases op with
  | truncate =>
      exact (begun_stopsBy fails t rfl hfirst fun _ h => truncate_stopsBy fails h).last
        fun _ _ _ => trivial
  | storeRemoteListOfFilesChunk remote lo hi =>
      exact (begun_stopsBy fails t rfl hfirst fun _ h =>
        storeRemoteListOfFilesChunk_stopsBy fails remote lo hi h).last fun _ _ _ => trivial
  | storeDeletedBatch batch =>
      exact (begun_stopsBy fails t rfl hfirst fun _ h =>
        storeDeletedBatch_stopsBy fails batch h).last fun _ _ _ => trivial
  | calculateListOfFilesToDelete localFiles =>
      have hsettled : Connection.Settled ({ committed := t } : Db) := rfl
      refine Script.stopsBy_perform_then hfirst rfl ?_
      refine (calculateListOfFilesToDelete_stopsBy fails localFiles hsettled rfl).mono
        (fun _ _ _ => trivial) fun failure c' h => ?_
      rw [Leaves, if_neg fun hbegin => by cases hbegin.1]
      exact Or.inr h.2

/-- When the first statement fails, nothing has happened. -/
lemma script_failed (op : Bracketed) {failure : Undoing} (hfirst : fails op.first = some failure) :
    Script.StopsBy (some failure) (fun _ _ => True) (fun _ conn => conn = { committed := t })
      (op.script fails) { committed := t } := by
  have hsettled : Connection.Settled ({ committed := t } : Db) := rfl
  have hnothing := Connection.undo_of_settled hsettled failure
  cases op with
  | truncate => exact (Script.stopsBy_perform_failed hfirst hnothing).last fun _ _ => id
  | storeRemoteListOfFilesChunk remote lo hi =>
      exact (Script.stopsBy_perform_failed hfirst hnothing).last fun _ _ => id
  | storeDeletedBatch batch =>
      exact (Script.stopsBy_perform_failed hfirst hnothing).last fun _ _ => id
  | calculateListOfFilesToDelete localFiles => exact Script.stopsBy_perform_failed hfirst hnothing

/-- **When a failed operation leaves the connection clean**: when it is the first statement that
fails, or none does, or what fails makes SQLite undo the transaction and there is no temporary
table to drop. -/
theorem leavesClean_iff (op : Bracketed) :
    op.LeavesClean fails t ↔ fails op.first ≠ none ∨ op.Unhindered fails t ∨
      (op.first = .begin ∧ op.stop fails t = some .transaction) := by
  rcases hfirst : fails op.first with _ | failure
  · have hstops := script_stopsBy fails t op hfirst
    rw [Script.StopsBy, Script.wp] at hstops
    rw [unhindered_iff]
    rcases hstop : op.stop fails t with _ | failure
    · rw [hstop] at hstops
      refine iff_of_true ?_ (Or.inr (Or.inl ⟨hfirst, rfl⟩))
      intro conn hrun
      rw [hrun] at hstops
      exact hstops.elim
    · rw [hstop] at hstops
      rcases hrun : (op.script fails).runOn { committed := t } with ⟨_ | l, conn⟩
      · rw [hrun] at hstops
        by_cases hundone : op.first = .begin ∧ failure = .transaction
        · refine iff_of_true ?_ (Or.inr (Or.inr ⟨hundone.1, by rw [hundone.2]⟩))
          intro conn' hrun'
          obtain rfl : conn' = conn := congrArg Prod.snd (hrun'.symm.trans hrun)
          rw [show conn' = _ from (if_pos hundone).mp hstops]
          exact unaffected_start t
        · refine iff_of_false (fun hclean => ?_) ?_
          · exact (hclean conn hrun).not_left ((if_neg hundone).mp hstops)
          · rintro (hne | ⟨-, hnone⟩ | ⟨hbegin, hsome⟩)
            · exact hne rfl
            · cases hnone
            · exact hundone ⟨hbegin, Option.some.inj hsome⟩
      · rw [hrun] at hstops
        exact hstops.elim
  · refine iff_of_true ?_ (Or.inl (by simp))
    intro conn hrun
    have hfailed := Script.wp_run (script_failed fails t op hfirst) hrun
    rw [show conn = _ from hfailed]
    exact unaffected_start t

/-- A chunk of two files of one name. -/
def sampleConflict : Bracketed :=
  storeRemoteListOfFilesChunk [⟨ascii "a", ascii "900150983cd24fb0d6963f7d28e17f72", 1000⟩,
    ⟨ascii "a", ascii "900150983cd24fb0d6963f7d28e17f72", 2000⟩] 0 2

/-- The second file is refused, and the transaction stays open. -/
theorem conflict_not_leavesClean :
    ¬ ∀ (fails : Faults) (t : Files) (op : Bracketed), op.LeavesClean fails t := by
  intro hall
  obtain ⟨hfailed, hopen⟩ : ((sampleConflict.script noFaults).runOn { committed := ∅ }).1 = none ∧
      ((sampleConflict.script noFaults).runOn { committed := ∅ }).2.working.isSome = true := by
    decide +kernel
  have hclean := hall noFaults ∅ sampleConflict _ (Prod.ext hfailed rfl)
  exact hclean.not_left (Or.inl hopen)

end Bracketed

end FileListStorage

end Clarc
