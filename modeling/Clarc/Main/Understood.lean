import Clarc.Delete.XmlEscape
import Clarc.Hash.DigestText
import Clarc.Main.Authenticated
import Clarc.Main.Order

/-!
# What the server makes of a deletion

A server that gets a POST compares the document with the md5 in its header and reads the keys
between the tags.  Before that the document has to find room in the memory that `deleteBatch` sets
aside for it, and each key in that of `xmlEscape`.

* `Modest.kept` — a batch finds room there when few of its characters become longer;
* `Phase.Sized.step` — the batches that are left are none larger than `BATCH_SIZE`;
* `posts_understood` — as long as the batches are such, **the server reads from every POST of a run
  the keys of its batch**, and no others.
-/

namespace Clarc

open Bytes BlockHash Reactive Escaping Markup RemoteListOfFiles

/-- The keys that the server reads from a deletion, if the document is the one that was sent. -/
def Request.keysToDelete (r : Request) : Option (List Bytes) :=
  match r.body, r.headers.lookup (ascii "Content-MD5") with
  | .data xml, some value =>
      if base64Decode value 16 = (true, md5 xml) then
        some ((between (ascii "<Key>") (ascii "</Key>") xml).map Deleter.xmlEntities.decode)
      else none
  | _, _ => none

namespace Deleter

/-- The keys are none longer than S3 admits, and few of their characters become longer: together the
keys grow by no more than `deleteBatch` sets aside, and none of them is ampersands only. -/
structure Modest (batch : List Bytes) : Prop where
  short : ∀ key ∈ batch, key.length ≤ 1024
  growth : batchGrowth batch ≤ 34 * batch.length + 49
  other : ∀ key ∈ batch, ∃ c ∈ key, c ≠ 38

/-- `deleteBatch` and `xmlEscape` write the batch into the memory that is theirs. -/
structure Kept (batch : List Bytes) : Prop where
  fits : Fits batch
  stays : ∀ src : Source, src.text ∈ batch → StaysInBuffers src

variable {d : Deleter} {buf : Buffer UInt8 64} {batch : List Bytes} {xml : Bytes}

lemma Modest.kept (h : Modest batch) (hcount : batch.length ≤ BATCH_SIZE)
    (hxml : batchXml batch = some xml) : Kept batch := by
  constructor
  · have hpaths := pathsLength_le h.short
    have hgrowth := h.growth
    rw [fits_iff_length (ne_nil_of_batchXml hxml), bufferSize_toNat hcount]
    rw [BATCH_SIZE] at hcount
    omega
  · intro src hsrc
    have hshort := h.short _ hsrc
    exact staysInBuffers_of_short (by omega) (h.other _ hsrc)

/-- The document of a batch is understood. -/
lemma keysToDelete_postRequest (hmd5 : d.base64Md5 = contentMd5 buf)
    (hcount : batch.length ≤ BATCH_SIZE) (hkeys : ∀ key ∈ batch, key.length ≤ 1024)
    (hxml : batchXml batch = some xml) : (d.postRequest xml).keysToDelete = some batch := by
  have hlookup : (d.postRequest xml).headers.lookup (ascii "Content-MD5") =
      some (contentMd5 buf xml) := by
    rw [postRequest, List.lookup_cons_self, hmd5]
  have hbody : (d.postRequest xml).body = .data xml := rfl
  have hdecode := base64Decode_contentMd5 buf hcount hkeys hxml
  have hdocument := (batchXml_eq (ne_nil_of_batchXml hxml)).symm.trans hxml
  rw [Request.keysToDelete, hlookup, hbody]
  dsimp only
  rw [if_pos hdecode, ← Option.some.inj hdocument, between_document]

end Deleter

namespace Main

variable {o : Options} {tree : Node} {s s' : State} {a : Action} {es : List Event} {table : Files}

/-- The batches that are left are none too large. -/
def Phase.Sized : Phase → Prop
  | .deleting batch rest | .storingDeleted batch rest =>
      ∀ b ∈ batch :: rest, b.length ≤ Deleter.BATCH_SIZE
  | _ => True

lemma Phase.Idle.sized {phase : Phase} (h : phase.Idle) : phase.Sized := by
  rcases phase <;> trivial

lemma nextBatch_sized {batches : List (List Bytes)}
    (h : ∀ b ∈ batches, b.length ≤ Deleter.BATCH_SIZE) : (nextBatch o batches).Sized := by
  rcases batches with _ | ⟨batch, rest⟩
  · exact afterDelete_idle.sized
  · rw [nextBatch]
    split_ifs
    · exact afterDelete_idle.sized
    · trivial
    · exact h

lemma afterRebuild_sized : (afterRebuild o).Sized := afterRebuild_idle.sized

lemma afterOpen_sized (opened : Bool) : (afterOpen o opened).Sized := by
  unfold afterOpen
  split_ifs
  · trivial
  · exact afterRebuild_sized
  · trivial

lemma afterList_sized (l : ListStep) : (afterList l).Sized := by
  rcases l with l | ⟨_ | _, files⟩ | _ <;> trivial

lemma afterResolve_sized (r : Resolve) : (afterResolve o r).Sized := by
  unfold afterResolve
  split
  · split_ifs
    · exact afterRebuild_sized
    · trivial
  all_goals trivial

lemma nextChunk_sized (remote : List RemoteFile) :
    ∀ bounds : List (ℕ × ℕ), (nextChunk o remote bounds).Sized
  | [] => afterRebuild_sized
  | _ :: _ => trivial

lemma afterUpload_sized (files : LocalFileList) (t : Uploader.State) :
    (afterUpload o files t).Sized := by
  unfold afterUpload
  split
  · split_ifs
    · trivial
    · exact afterDelete_idle.sized
  all_goals trivial

/-- A step makes no batch larger. -/
lemma Phase.Sized.step (h : s.phase.Sized) (hs : step o tree s a = some (s', es)) :
    s'.phase.Sized := by
  cases step_transition hs with
  | auth response _ => exact (afterAuth_idle response).sized
  | create response url _ => exact (afterCreate_idle response).sized
  | opened opened _ => exact afterOpen_sized opened
  | listed response l _ => exact afterList_sized _
  | resolved r r' b fs _ _ => exact afterResolve_sized r'
  | truncated fails remote conn _ _ => exact nextChunk_sized remote _
  | stored fails remote lo hi rest conn _ _ => exact nextChunk_sized remote rest
  | uploaded files t t' b fs _ _ => exact afterUpload_sized files t'
  | calculated fails files filesToDelete conn _ _ =>
      exact nextBatch_sized fun b hb => (Deleter.length_le_of_mem_batches (by decide) hb).2
  | posted response batch rest xml hphase _ =>
      rw [hphase] at h
      dsimp only [afterPost]
      split
      · trivial
      · exact h
      · exact afterDelete_idle.sized
  | storedDeleted fails batch rest hphase =>
      rw [hphase] at h
      exact nextBatch_sized fun b hb => h b (List.mem_cons_of_mem _ hb)
  | stated answer _ => exact (afterStat_idle answer).sized
  | databaseSent _ fileInfo _ _ _ _ _ => exact (afterDatabase_idle fileInfo _).sized
  | truncateFailed _ _ _ _ _ | storeFailed _ _ _ _ _ _ _ _ | walkCrashed _ _ | walked _ _ _
  | calculateFailed _ _ _ _ _ | unposted _ _ _ _ _ | databaseLost _ _ _ _ _ _ => trivial

/-- A POST of a run carries the document of its batch. -/
lemma posts_built (h : Run (step o tree) anything (start o table) () es s ()) {batch : List Bytes}
    {request : Request} {response : Response} (hpost : .post batch request response ∈ es) :
    batch.length ≤ Deleter.BATCH_SIZE ∧
      ∃ xml, Deleter.batchXml batch = some xml ∧ request = o.deleter.postRequest xml := by
  have hall : s.phase.Sized ∧ ∀ batch request response, .post batch request response ∈ es →
      batch.length ≤ Deleter.BATCH_SIZE ∧
        ∃ xml, Deleter.batchXml batch = some xml ∧ request = o.deleter.postRequest xml := by
    refine h.invariant (I := fun es s _ => s.phase.Sized ∧
      ∀ batch request response, .post batch request response ∈ es →
        batch.length ≤ Deleter.BATCH_SIZE ∧
          ∃ xml, Deleter.batchXml batch = some xml ∧ request = o.deleter.postRequest xml)
      ⟨?_, by simp⟩ ?_
    · unfold start
      split_ifs <;> trivial
    · rintro es t _ a fs t' _ ⟨hsized, hes⟩ hs -
      refine ⟨hsized.step hs, fun batch request response he => ?_⟩
      rcases List.mem_append.mp he with he | he
      · exact hes batch request response he
      cases step_transition hs with
      | posted response' batch' rest xml hphase hxml =>
          obtain ⟨r, -, heq⟩ := mem_sent he
          cases heq
          rw [hphase] at hsized
          exact ⟨hsized batch List.mem_cons_self, xml, hxml, rfl⟩
      | auth _ _ | create _ _ _ | listed _ _ _ =>
          obtain ⟨r, -, heq⟩ := mem_sent he
          cases heq
      | resolved _ _ _ _ _ _ | uploaded _ _ _ _ _ _ _ | databaseSent _ _ _ _ _ _ _ =>
          obtain ⟨e, -, heq⟩ := List.mem_map.mp he
          cases heq
      | _ => cases he
  exact hall.2 batch request response hpost

/-- **The server reads from every POST of a run the keys of its batch.**  The batches and the
documents are those of the run, whatever was listed, uploaded or deleted before, as long as none of
its batches, this one or one before it, is written over the end of the memory for it. -/
theorem posts_understood {buf : Buffer UInt8 64} (hmd5 : o.base64Md5 = contentMd5 buf)
    (h : Run (step o tree) anything (start o table) () es s ())
    (hmodest : ∀ batch request response, .post batch request response ∈ es →
      Deleter.Modest batch) {batch : List Bytes} {request : Request} {response : Response}
    (hpost : .post batch request response ∈ es) :
    Deleter.Kept batch ∧ request.keysToDelete = some batch := by
  have hbatch := hmodest batch request response hpost
  obtain ⟨hcount, xml, hxml, rfl⟩ := posts_built h hpost
  exact ⟨hbatch.kept hcount hxml,
    Deleter.keysToDelete_postRequest hmd5 hcount hbatch.short hxml⟩

theorem posts_understood_sample :
    ∃ o es s request response, o.base64Md5 = contentMd5 ⟨List.replicate 64 0, rfl⟩ ∧
      Run (step o (.dir true .nil)) anything (start o (oneRow (ascii "a&b"))) () es s () ∧
      .post [ascii "a&b"] request response ∈ es ∧ Deleter.Kept [ascii "a&b"] ∧
      request.keysToDelete = some [ascii "a&b"] := by
  let o : Options := { sampleOptions [] [] false [] with
    base64Md5 := contentMd5 ⟨List.replicate 64 0, rfl⟩ }
  obtain ⟨es, s, hrun, ⟨e, he, hpost⟩, hall⟩ := run_of_exec (step o (.dir true .nil))
    (start o (oneRow (ascii "a&b"))) sampleDelete (fun _ _ => True)
    (fun es _ => (∃ e ∈ es, e.postsOne (ascii "a&b") = true) ∧
      ∀ e ∈ es, e.stage = 10 → e.postsOne (ascii "a&b") = true) (by decide)
  have hmodest : ∀ batch request response, .post batch request response ∈ es →
      Deleter.Modest batch := by
    intro batch request response he
    obtain ⟨_, _, heq⟩ := Event.postsOne_post (hall _ he rfl)
    cases heq
    exact ⟨by decide, by decide, by decide⟩
  obtain ⟨request, response, rfl⟩ := Event.postsOne_post hpost
  exact ⟨o, es, s, request, response, rfl, hrun, he,
    posts_understood rfl hrun hmodest he⟩

end Main

end Clarc
