import Clarc.Http.MicroCurl

/-!
# Deleting objects: `deleter.cc`

`performDeletion` goes through the list to delete and sends the keys to S3 in batches, with one POST
for each.  It passes over the database and its journal, and after each accepted POST it removes the
rows of the batch — whether that succeeds is not asked.

* `flatten_batches` — the batches are the list without the two database names, cut into pieces;
* `length_le_of_mem_batches` — **no batch is empty or larger than `BATCH_SIZE`.**
-/

namespace Clarc

open Bytes

/-- The settings of a `Deleter`, and the base64 text of the md5 of a string. -/
structure Deleter where
  amazonCredentials : AmazonCredentials
  databaseFilename : Bytes
  dryRun : Bool := false
  useSsl : Bool := true
  base64Md5 : Bytes → Bytes

namespace Deleter

/-! ## One batch -/

/-- One character of `xmlEscape`. -/
def xmlEscapeByte (c : UInt8) : Bytes :=
  if c = 60 then ascii "&lt;"
  else if c = 62 then ascii "&gt;"
  else if c = 38 then ascii "&amp;"
  else [c]

/-- `Deleter::xmlEscape`; on the empty string its loop runs past the end. -/
def xmlEscape (src : Bytes) : Option Bytes :=
  if src = [] then none else some (src.flatMap xmlEscapeByte)

/-- The document `deleteBatch` builds. -/
def batchXml (batch : List Bytes) : Option Bytes :=
  (batch.mapM xmlEscape).map fun escaped =>
    ascii "<?xml version=\"1.0\" encoding=\"UTF-8\"?>\n" ++ ascii "<Delete>\n" ++
      ascii "<Quiet>true</Quiet>\n" ++
      escaped.flatMap (fun path =>
        ascii "\t<Object><Key>" ++ path ++ ascii "</Key></Object>\n") ++
      ascii "</Delete>\n"

/-- There is a document unless a path is empty. -/
lemma batchXml_isSome {batch : List Bytes} : (batchXml batch).isSome = true ↔ [] ∉ batch := by
  rw [batchXml, Option.isSome_map]
  induction batch with
  | nil => simp
  | cons path rest ih =>
      rw [List.mem_cons, not_or, ← ih, List.mapM_cons, xmlEscape]
      split_ifs with hpath
      · simp [hpath]
      · rcases List.mapM xmlEscape rest <;> simp [Ne.symm hpath]

variable (d : Deleter)

/-- The request of `performPostOnBucket`. -/
def postRequest (xml : Bytes) : Request where
  method := .post
  url := d.amazonCredentials.generateUrlForObjectDelete d.useSsl
  canonicalizedResource := d.amazonCredentials.resource (ascii "?delete")
  headers := [(ascii "Content-MD5", d.base64Md5 xml), (ascii "Expect", []),
    (ascii "Content-Type", [])]
  body := .data xml

/-- `Deleter::deleteBatch` from the response, and the check of the status after it: whether the
batch counts as deleted.  A transfer that failed after a status 200 has succeeded. -/
def deleteBatch : Option Response → Option Bool
  | none => some false
  | some response =>
      match response.go with
      | none => none
      | some t =>
          if t.res = .ok ∨ t.httpStatusCode = 200 then some (t.httpStatusCode = 200)
          else some false

/-- A batch counts as deleted when the code sees the status 200. -/
lemma deleteBatch_eq_true {response : Response} : deleteBatch (some response) = some true ↔
    ∃ t, response.go = some t ∧ t.httpStatusCode = 200 := by
  rw [deleteBatch]
  rcases response.go with _ | t
  · simp
  · by_cases h200 : t.httpStatusCode = 200 <;> simp [h200]

/-! ## The batches -/

def BATCH_SIZE : ℕ := 999

/-- `performDeletion` passes over the path. -/
def passesOver (path : Bytes) : Bool :=
  path == d.databaseFilename ++ ascii "-journal" || path == d.databaseFilename

/-- The batches that the loop of `performDeletion` collects, from the paths that are left and the
batch begun. -/
def batches (batch : List Bytes) : List Bytes → List (List Bytes)
  | [] => if batch = [] then [] else [batch]
  | path :: rest =>
      if d.passesOver path then batches batch rest
      else if BATCH_SIZE ≤ (batch ++ [path]).length then (batch ++ [path]) :: batches [] rest
      else batches (batch ++ [path]) rest

variable {d}

lemma flatten_batches (batch paths : List Bytes) :
    (d.batches batch paths).flatten = batch ++ paths.filter fun path => !d.passesOver path := by
  induction paths generalizing batch with
  | nil =>
      rw [batches]
      split_ifs with h <;> simp [h]
  | cons path rest ih =>
      rw [batches]
      split_ifs with hpass hfull
      · rw [ih, List.filter_cons_of_neg (by simp [hpass])]
      · rw [List.flatten_cons, ih, List.filter_cons_of_pos (by simp [hpass])]
        simp
      · rw [ih, List.filter_cons_of_pos (by simp [hpass])]
        simp

/-- **No batch is empty or too large.** -/
theorem length_le_of_mem_batches {batch paths : List Bytes} (h : batch.length < BATCH_SIZE)
    {b : List Bytes} (hb : b ∈ d.batches batch paths) : b ≠ [] ∧ b.length ≤ BATCH_SIZE := by
  induction paths generalizing batch with
  | nil =>
      rw [batches] at hb
      split_ifs at hb with hempty
      · cases hb
      · obtain rfl := List.mem_singleton.mp hb
        exact ⟨hempty, h.le⟩
  | cons path rest ih =>
      rw [batches] at hb
      split_ifs at hb with hpass hfull
      · exact ih h hb
      · rcases List.mem_cons.mp hb with rfl | hb
        · refine ⟨by simp, ?_⟩
          rw [List.length_append, List.length_singleton]
          exact h
        · exact ih (by decide) hb
      · exact ih (not_le.mp hfull) hb

/-- A key in a batch is one of the list, and no name of the database. -/
lemma mem_of_mem_batches {paths : List Bytes} {b : List Bytes} (hb : b ∈ d.batches [] paths)
    {key : Bytes} (hkey : key ∈ b) : key ∈ paths ∧ d.passesOver key = false := by
  have hmem : key ∈ (d.batches [] paths).flatten := List.mem_flatten_of_mem hb hkey
  rw [flatten_batches, List.nil_append, List.mem_filter] at hmem
  exact ⟨hmem.1, by simpa using hmem.2⟩

end Deleter

end Clarc
