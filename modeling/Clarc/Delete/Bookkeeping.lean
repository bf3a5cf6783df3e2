import Clarc.Delete.Deleter
import Clarc.Listing.RemoteListOfFiles
import Clarc.Storage.Operations

/-!
# The rows that follow the objects: `performDeletion`

A batch is over in three ways that have nothing to do with one another: the POST is accepted, the
server deletes a key or reports that it has not, the transaction that removes the rows goes through
or fails.  `performDeletion` looks at the first only.  In Quiet mode the body of the response names
the keys that are *not* deleted, and nobody reads it; `storeDeletedBatch` returns whether it has
removed the rows, and nobody asks.  A transaction that fails after its `BEGIN` and is not undone by
SQLite stays open, so that every later `BEGIN` on the connection is refused.

* `deleteBatches_committed` — **the rows that are gone are those of the batches whose transactions
  go through** (`stored`);
* `performDeletion_exact_iff` — **exactly when rows and objects go together**: no batch that is
  stored has a row whose object the server keeps, and no other batch has one whose object it
  deletes.
-/

namespace Clarc

open Bytes Sqlite

/-! ## Responses and batches -/

namespace Deleter

/-- The keys of the `Error` elements among the nodes. -/
def errorKeys : List Xml → List Bytes
  | [] => []
  | .text _ :: rest => errorKeys rest
  | .element name fields :: rest =>
      if name = ascii "Error" then
        fields.filterMap (fun field => match field with
          | .element name children =>
              if name = ascii "Key" then xmlNodeListGetString children else none
          | .text _ => none) ++ errorKeys rest
      else errorKeys rest

/-- The keys that the body of a response reports as failed. -/
def failedKeys : Document → List Bytes
  | .unparsable | .rootless | .rooted (.text _) => []
  | .rooted (.element _ children) => errorKeys children

/-- What becomes of a batch: the response to its POST (without one `prepare` has failed), the keys
that the server has not deleted, which the body of a response with status 200 reports (with another
status they are all of them), and the SQLite calls of `storeDeletedBatch` that fail. -/
structure Reply where
  response : Option Response
  kept : List Bytes
  fails : Faults

/-- `performDeletion` from one batch on: whether it returns 1, and the connection it leaves. -/
def deleteBatches : List (List Bytes × Reply) → Db → Option (Bool × Db)
  | [], conn => some (true, conn)
  | (batch, reply) :: rest, conn =>
      match batchXml batch with
      | none => none
      | some _ =>
          match deleteBatch reply.response with
          | none => none
          | some false => some (false, conn)
          | some true =>
              -- the result of `storeDeletedBatch` is dropped
              deleteBatches rest
                ((FileListStorage.storeDeletedBatch reply.fails batch).runOn conn).2

variable (d : Deleter)

/-- The batches, each with what becomes of it. -/
def exchanges (filesToDelete : List Bytes) (replies : ℕ → Reply) : List (List Bytes × Reply) :=
  (d.batches [] filesToDelete).mapIdx fun i batch => (batch, replies i)

variable {d} in
lemma map_fst_exchanges {filesToDelete : List Bytes} (replies : ℕ → Reply) :
    (d.exchanges filesToDelete replies).map Prod.fst = d.batches [] filesToDelete := by
  refine List.ext_getElem? fun i => ?_
  simp [exchanges, Option.map_map, Function.comp_def]

/-- `Deleter::performDeletion`; a dry run builds the documents and sends none. -/
def performDeletion (filesToDelete : List Bytes) (replies : ℕ → Reply) (conn : Db) :
    Option (Bool × Db) :=
  if d.dryRun then
    if (d.batches [] filesToDelete).all fun batch => (batchXml batch).isSome then
      some (true, conn)
    else none
  else deleteBatches (d.exchanges filesToDelete replies) conn

/-- The server deletes the key. -/
def Deletes (filesToDelete : List Bytes) (replies : ℕ → Reply) (key : Bytes) : Prop :=
  ∃ x ∈ d.exchanges filesToDelete replies, key ∈ x.1 ∧ key ∉ x.2.kept

instance (filesToDelete : List Bytes) (replies : ℕ → Reply) (key : Bytes) :
    Decidable (d.Deletes filesToDelete replies key) :=
  inferInstanceAs (Decidable (∃ x ∈ d.exchanges filesToDelete replies, key ∈ x.1 ∧ key ∉ x.2.kept))

/-- The transaction of a batch goes through: none is open before it, and none of its calls fails. -/
def GoesThrough (inTransaction : Bool) (x : List Bytes × Reply) : Prop :=
  inTransaction = false ∧ FileListStorage.Undisturbed x.2.fails x.1.length

instance (inTransaction : Bool) (x : List Bytes × Reply) :
    Decidable (GoesThrough inTransaction x) :=
  inferInstanceAs (Decidable (_ ∧ _))

/-- Whether a transaction is open behind a batch.  One that is open stays open, unless the next
`BEGIN` fails so that SQLite undoes it; the batch leaves its own open when a call behind its `BEGIN`
fails and undoes nothing but its statement. -/
def leavesOpen (inTransaction : Bool) (x : List Bytes × Reply) : Bool :=
  match x.2.fails .begin with
  | some .transaction => false
  | some .statement => inTransaction
  | none =>
      inTransaction || FileListStorage.deletedBatchStop x.2.fails x.1.length == some .statement

/-- The batches whose transactions go through. -/
def stored (inTransaction : Bool) : List (List Bytes × Reply) → List (List Bytes)
  | [] => []
  | x :: rest =>
      if GoesThrough inTransaction x then x.1 :: stored (leavesOpen inTransaction x) rest
      else stored (leavesOpen inTransaction x) rest

/-- What a batch does to the connection: its rows go when its transaction goes through. -/
lemma storeDeletedBatch_cases (x : List Bytes × Reply) (conn : Db) :
    (FileListStorage.storeDeletedBatch x.2.fails x.1).wp (fun _ conn' =>
      conn'.committed = (if GoesThrough conn.working.isSome x then
        FileListStorage.eraseAll conn.committed x.1 else conn.committed) ∧
      conn'.working.isSome = leavesOpen conn.working.isSome x) conn := by
  refine Script.wp_mono _ (FileListStorage.storeDeletedBatch_left x.2.fails x.1 conn) ?_
  intro r conn' h
  simp only [GoesThrough, leavesOpen, FileListStorage.undisturbed_iff]
  rcases hbegin : x.2.fails .begin with _ | failure
  · rcases hopen : conn.working.isSome with _ | _
    · rcases hstop : FileListStorage.deletedBatchStop x.2.fails x.1.length with _ | _ | _
      all_goals
        rw [hbegin, hopen, hstop] at h
        simp_all
    · rw [hbegin, hopen] at h
      simp_all
  · rw [hbegin] at h
    cases failure <;> simp_all

/-! ## Rows and objects -/

/-- **The rows that are gone are those of the stored batches.** -/
theorem deleteBatches_committed {xs : List (List Bytes × Reply)} {conn conn' : Db}
    (h : deleteBatches xs conn = some (true, conn')) (key : Bytes) :
    key ∈ conn'.committed ↔
      key ∈ conn.committed ∧ ∀ batch ∈ stored conn.working.isSome xs, key ∉ batch := by
  induction xs generalizing conn with
  | nil =>
      rw [deleteBatches] at h
      obtain rfl : conn = conn' := by simpa using h
      simp [stored]
  | cons x rest ih =>
      simp only [deleteBatches] at h
      split at h
      · cases h
      split at h
      · cases h
      · cases h
      obtain ⟨hcommitted, hopen⟩ := storeDeletedBatch_cases x conn
      rw [ih h, stored, hcommitted, hopen]
      split_ifs with hthrough
      · rw [FileListStorage.mem_eraseAll, List.forall_mem_cons, and_assoc]
      · rfl

/-- **When rows and objects go together**: each row that is removed is that of an object which the
server deletes, and each object which it deletes has no row left, if and only if

* a row's key in a batch that is stored is deleted by the server, in that batch or another one with
  the same key;
* a row's key that the server deletes in a batch is in one that is stored. -/
theorem performDeletion_exact_iff {filesToDelete : List Bytes} {replies : ℕ → Reply}
    {conn conn' : Db} (hdry : d.dryRun = false)
    (h : d.performDeletion filesToDelete replies conn = some (true, conn')) :
    ((∀ key ∈ conn.committed, key ∉ conn'.committed → d.Deletes filesToDelete replies key) ∧
      ∀ key, d.Deletes filesToDelete replies key → key ∉ conn'.committed) ↔
    (∀ batch ∈ stored conn.working.isSome (d.exchanges filesToDelete replies), ∀ key ∈ batch,
        key ∈ conn.committed →
          ∃ x ∈ d.exchanges filesToDelete replies, key ∈ x.1 ∧ key ∉ x.2.kept) ∧
      ∀ x ∈ d.exchanges filesToDelete replies, ∀ key ∈ x.1, key ∈ conn.committed →
        key ∉ x.2.kept →
          ∃ batch ∈ stored conn.working.isSome (d.exchanges filesToDelete replies),
            key ∈ batch := by
  rw [performDeletion, hdry, if_neg (by decide)] at h
  have hcommitted := deleteBatches_committed h
  refine and_congr ?_ ?_
  · constructor
    · intro hremoved batch hbatch key hmem hkey
      exact hremoved key hkey fun hstill => ((hcommitted key).mp hstill).2 batch hbatch hmem
    · intro hcond key hkey hgone
      by_contra hkept
      refine hgone ((hcommitted key).mpr ⟨hkey, fun batch hbatch hmem => ?_⟩)
      exact hkept (hcond batch hbatch key hmem hkey)
  · constructor
    · intro hdeleted x hx key hmem hkey hkept
      by_contra hnone
      refine hdeleted key ⟨x, hx, hmem, hkept⟩ ((hcommitted key).mpr ⟨hkey, ?_⟩)
      exact fun batch hbatch hin => hnone ⟨batch, hbatch, hin⟩
    · rintro hcond key ⟨x, hx, hmem, hkept⟩ hstill
      obtain ⟨hkey, hnone⟩ := (hcommitted key).mp hstill
      obtain ⟨batch, hbatch, hin⟩ := hcond x hx key hmem hkey hkept
      exact hnone batch hbatch hin

/-- A deleter for the bucket `b`. -/
def sampleDeleter : Deleter where
  amazonCredentials := ⟨ascii "b", ascii "s3.amazonaws.com"⟩
  databaseFilename := ascii ".clarc.sqlite3"
  base64Md5 := fun _ => ascii "gFy73g21HKqAvefFGfFvTg=="

/-- A response to a POST in Quiet mode, with the keys it reports. -/
def sampleDeleteResult (failed : List Bytes) : Response where
  code := .ok
  responseCode := 200
  headers := ascii "HTTP/1.1 200 OK\r\nContent-Type: application/xml\r\n\r\n"
  body := .rooted (.element (ascii "DeleteResult") (failed.map fun key =>
    .element (ascii "Error") [.element (ascii "Key") [.text key],
      .element (ascii "Code") [.text (ascii "AccessDenied")]]))

/-- What becomes of every batch: the same response and the same failing calls. -/
def sampleReply (failed : List Bytes) (fails : Faults) : ℕ → Reply := fun _ => {
  response := some (sampleDeleteResult failed)
  kept := failedKeys (sampleDeleteResult failed).body
  fails := fails }

/-- A table with rows for `a` and `b`. -/
def sampleRows : Files :=
  AList.insert (ascii "a") ⟨ascii "900150983cd24fb0d6963f7d28e17f72", 1000⟩
    (AList.insert (ascii "b") ⟨ascii "900150983cd24fb0d6963f7d28e17f72", 1000⟩ ∅)

theorem performDeletion_exact_iff_sample :
    ∃ conn' : Db, sampleDeleter.performDeletion [ascii "a", ascii "b"] (sampleReply [] noFaults)
        { committed := sampleRows } = some (true, conn') ∧
      ∀ key, sampleDeleter.Deletes [ascii "a", ascii "b"] (sampleReply [] noFaults) key →
        key ∉ conn'.committed := by
  have hexec : ((sampleDeleter.performDeletion [ascii "a", ascii "b"] (sampleReply [] noFaults)
      { committed := sampleRows }).any Prod.fst) = true := by decide +kernel
  obtain ⟨⟨_, conn'⟩, h, rfl⟩ := (Option.any_eq_true _ _).mp hexec
  have hboth := (sampleDeleter.performDeletion_exact_iff rfl h).mpr
    ⟨by decide +kernel, by decide +kernel⟩
  exact ⟨conn', h, hboth.2⟩

/-- The server keeps `b` and says so; its row goes all the same. -/
theorem kept_object_loses_row :
    ∃ conn' : Db, sampleDeleter.performDeletion [ascii "a", ascii "b"]
        (sampleReply [ascii "b"] noFaults) { committed := sampleRows } = some (true, conn') ∧
      ¬ ((∀ key ∈ sampleRows, key ∉ conn'.committed → sampleDeleter.Deletes
          [ascii "a", ascii "b"] (sampleReply [ascii "b"] noFaults) key) ∧
        ∀ key, sampleDeleter.Deletes [ascii "a", ascii "b"]
          (sampleReply [ascii "b"] noFaults) key → key ∉ conn'.committed) := by
  have hexec : ((sampleDeleter.performDeletion [ascii "a", ascii "b"]
      (sampleReply [ascii "b"] noFaults) { committed := sampleRows }).any fun r =>
        r.1 && decide (ascii "b" ∉ r.2.committed)) = true := by decide +kernel
  obtain ⟨⟨success, conn'⟩, h, hend⟩ := (Option.any_eq_true _ _).mp hexec
  obtain ⟨rfl, hgone⟩ : success = true ∧ ascii "b" ∉ conn'.committed := by simpa using hend
  refine ⟨conn', h, fun hboth => ?_⟩
  have hdeletes := hboth.1 (ascii "b") (by decide +kernel) hgone
  exact absurd hdeletes (by decide +kernel)

/-- The server deletes both objects, and the transaction that should remove their rows fails. -/
example : ((sampleDeleter.performDeletion [ascii "a", ascii "b"]
    (sampleReply [] fun call => if call = .commit then some .statement else none)
    { committed := sampleRows }).any fun r =>
      r.1 && decide (ascii "a" ∈ r.2.committed)) = true := by decide +kernel

end Deleter

end Clarc
