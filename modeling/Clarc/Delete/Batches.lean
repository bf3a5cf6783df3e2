import Clarc.Delete.Bookkeeping

/-!
# The loop of `performDeletion`

`performDeletion` fills one array with the paths that are left, posts it when it is full and once
more when the loop is over, and stops at the first batch that does not count as deleted.  Here it is
taken as the source has it: one path after another, the batch begun, and a log of the batches that
were handed to `deleteBatch`.

A batch is *accepted* when the last response block of its POST has status 200; it *counts as
deleted* when the code sees that status, which a header text that begins with a `200 OK` makes it
see whatever follows.

* `performDeletionLoop_eq` — the loop hands over the batches of `Deleter.batches`;
* `performDeletion_eq` — **the loop is `performDeletion`**, whatever the server answers and whatever
  fails;
* `posted_isPrefix` — whatever the server answers, what is posted are the first batches;
* `performDeletionLoop_exact_iff` — no entry is lost or sent twice, and the rows that go are those
  of the accepted batches, **exactly when the code reads the status of each POST as it is.**
-/

namespace Clarc

open Bytes Sqlite

namespace Deleter

/-! ## The loop -/

/-- A batch that was handed to `deleteBatch`: the response to its POST if one was sent, and whether
it counts as deleted and its rows were handed to `storeDeletedBatch`. -/
structure Handed where
  batch : List Bytes
  response : Option Response := none
  removed : Bool := false

/-- What has happened so far: the batches that were handed over, and the connection. -/
structure Progress where
  log : List Handed := []
  conn : Db

/-- The POST of a batch was answered with success and status 200.  A transfer that broke off after
it was answered is a success too, as a comment in `performPostOnBucket` has it. -/
def Accepted (x : Handed) : Prop := x.response.map Response.responseCode = some 200

instance (x : Handed) : Decidable (Accepted x) := inferInstanceAs (Decidable (_ = _))

/-- The batches that were posted. -/
def Progress.posted (p : Progress) : List (List Bytes) :=
  (p.log.filter fun x => x.response.isSome).map Handed.batch

/-- The batches whose POST was accepted. -/
def Progress.accepted (p : Progress) : List (List Bytes) :=
  (p.log.filter fun x => decide (Accepted x)).map Handed.batch

section

variable (d : Deleter) (replies : ℕ → Reply)

/-- The call of `deleteBatch` for a batch and what follows it: whether the batch counts as deleted,
and nothing when the process is lost. -/
def flush (batch : List Bytes) (p : Progress) : Option Bool × Progress :=
  match batchXml batch with
  | none => (none, { p with log := p.log ++ [{ batch := batch }] })
  | some _ =>
      if d.dryRun then (some true, { p with log := p.log ++ [{ batch := batch }] })
      else
        let reply := replies p.log.length
        match deleteBatch reply.response with
        | none => (none, { p with log := p.log ++ [⟨batch, reply.response, false⟩] })
        | some false => (some false, { p with log := p.log ++ [⟨batch, reply.response, false⟩] })
        | some true => (some true, {
            log := p.log ++ [⟨batch, reply.response, true⟩]
            -- the result of `storeDeletedBatch` is dropped
            conn := ((FileListStorage.storeDeletedBatch reply.fails batch).runOn p.conn).2 })

/-- The loop of `Deleter::performDeletion` over the paths that are left, with the batch begun, and
the last batch behind it. -/
def performDeletionLoop : List Bytes → List Bytes → Progress → Option Bool × Progress
  | [], batch, p => if 0 < batch.length then d.flush replies batch p else (some true, p)
  | path :: rest, batch, p =>
      if d.passesOver path then performDeletionLoop rest batch p
      else if BATCH_SIZE ≤ (batch ++ [path]).length then
        match d.flush replies (batch ++ [path]) p with
        | (some true, p) => performDeletionLoop rest [] p
        | stopped => stopped
      else performDeletionLoop rest (batch ++ [path]) p

/-- Batches that are handed over one after another, up to the first that does not count as
deleted. -/
def flushAll : List (List Bytes) → Progress → Option Bool × Progress
  | [], p => (some true, p)
  | batch :: rest, p =>
      match d.flush replies batch p with
      | (some true, p) => flushAll rest p
      | stopped => stopped

end

variable {d : Deleter} {replies : ℕ → Reply} {p : Progress}

lemma flushAll_singleton (batch : List Bytes) (p : Progress) :
    d.flushAll replies [batch] p = d.flush replies batch p := by
  rw [flushAll]
  split
  next h => rw [flushAll, h]
  · rfl

/-- **The loop hands over its batches** one after another. -/
theorem performDeletionLoop_eq (paths batch : List Bytes) (p : Progress) :
    d.performDeletionLoop replies paths batch p =
      d.flushAll replies (d.batches batch paths) p := by
  induction paths generalizing batch p with
  | nil =>
      rw [performDeletionLoop, batches]
      rcases batch with _ | ⟨path, batch⟩
      · rfl
      · rw [if_pos (by simp), if_neg (by simp), flushAll_singleton]
  | cons path rest ih =>
      rw [performDeletionLoop, batches]
      split_ifs with hpass hfull
      · exact ih batch p
      · rw [flushAll]
        split
        · exact ih [] _
        · rfl
      · exact ih (batch ++ [path]) p

/-! ## The loop and `performDeletion` -/

/-- What `performDeletion` hands back, without the log. -/
def Progress.outcome (r : Option Bool × Progress) : Option (Bool × Db) :=
  r.1.map fun success => (success, r.2.conn)

/-- Without a dry run the batches are exchanged as `deleteBatches` has it. -/
lemma outcome_flushAll (hdry : d.dryRun = false) (bs : List (List Bytes)) (p : Progress) :
    Progress.outcome (d.flushAll replies bs p) =
      deleteBatches (bs.mapIdx fun i batch => (batch, replies (i + p.log.length))) p.conn := by
  induction bs generalizing p with
  | nil => rfl
  | cons batch rest ih =>
      rw [flushAll, List.mapIdx_cons, deleteBatches, flush, hdry, Nat.zero_add]
      rcases hxml : batchXml batch with _ | xml
      · rfl
      dsimp only
      rcases hreply : deleteBatch (replies p.log.length).response with _ | _ | _
      · rfl
      · rfl
      · rw [if_neg Bool.false_ne_true]
        dsimp only
        rw [ih]
        simp only [List.length_append, List.length_singleton, Nat.add_assoc, Nat.add_comm 1]

/-- A dry run only builds the documents. -/
lemma outcome_flushAll_dry (hdry : d.dryRun = true) (bs : List (List Bytes)) (p : Progress) :
    Progress.outcome (d.flushAll replies bs p) =
      if bs.all fun batch => (batchXml batch).isSome then some (true, p.conn) else none := by
  induction bs generalizing p with
  | nil => rfl
  | cons batch rest ih =>
      rw [flushAll, flush, hdry, List.all_cons]
      rcases hxml : batchXml batch with _ | xml
      · rfl
      · dsimp only
        rw [if_pos rfl]
        dsimp only
        rw [ih]
        rfl

/-- **The loop is `performDeletion`.** -/
theorem performDeletion_eq (filesToDelete : List Bytes) (replies : ℕ → Reply) (conn : Db) :
    d.performDeletion filesToDelete replies conn =
      Progress.outcome (d.performDeletionLoop replies filesToDelete [] { conn := conn }) := by
  rw [performDeletionLoop_eq, performDeletion]
  rcases hdry : d.dryRun with _ | _
  · rw [outcome_flushAll hdry]
    rfl
  · rw [outcome_flushAll_dry hdry]
    rfl

/-! ## What is sent and what goes -/

lemma undisturbed_of_le {fails : Faults} {m n : ℕ} (h : FileListStorage.Undisturbed fails n)
    (hm : m ≤ n) : FileListStorage.Undisturbed fails m where
  begin := h.begin
  prepare := h.prepare
  rows := fun i hi => h.rows i (hi.trans_le hm)
  commit := h.commit

/-- A row that is not deleted stays as it is. -/
lemma lookup_eraseAll (t : Files) (batch : List Bytes) (key : Bytes) :
    (FileListStorage.eraseAll t batch).lookup key =
      if key ∈ batch then none else t.lookup key := by
  induction batch generalizing t with
  | nil => rfl
  | cons k rest ih =>
      rw [FileListStorage.eraseAll, ih]
      by_cases hk : key = k
      · subst hk
        simp
      · rw [AList.lookup_erase_ne hk]
        simp [hk]

lemma eraseAll_append (t : Files) (batch batch' : List Bytes) :
    FileListStorage.eraseAll t (batch ++ batch') =
      FileListStorage.eraseAll (FileListStorage.eraseAll t batch) batch' := by
  induction batch generalizing t with
  | nil => rfl
  | cons k rest ih => exact ih _

/-- What the log has of a batch, by what becomes of it. -/
def handed (x : List Bytes × Reply) : Handed :=
  match batchXml x.1 with
  | none => { batch := x.1 }
  | some _ => ⟨x.1, x.2.response, deleteBatch x.2.response == some true⟩

@[simp] lemma batch_handed (x : List Bytes × Reply) : (handed x).batch = x.1 := by
  unfold handed
  split <;> rfl

/-- A batch that counts as deleted was posted. -/
lemma isSome_of_removed {x : List Bytes × Reply} (h : (handed x).removed = true) :
    (handed x).response.isSome = true := by
  unfold handed at h ⊢
  split at h
  · cases h
  · rcases hresponse : x.2.response with _ | response
    · rw [hresponse] at h
      cases h
    · rfl

/-- **What one batch does**: it is logged, and the loop goes on behind it when its rows have been
handed over. -/
lemma flush_spec (replies : ℕ → Reply) (hdry : d.dryRun = false) (batch : List Bytes)
    (p : Progress) :
    (d.flush replies batch p).2.log = p.log ++ [handed (batch, replies p.log.length)] ∧
      ((d.flush replies batch p).1 = some true ↔
        (handed (batch, replies p.log.length)).removed = true) ∧
      (d.flush replies batch p).2.conn =
        if (handed (batch, replies p.log.length)).removed = true then
          ((FileListStorage.storeDeletedBatch (replies p.log.length).fails batch).runOn p.conn).2
        else p.conn := by
  rw [flush, handed, hdry]
  rcases hxml : batchXml batch with _ | xml
  · simp
  · rcases hreply : deleteBatch (replies p.log.length).response with _ | _ | _ <;> simp [hreply]

lemma flushAll_of_true {batch : List Bytes} {rest : List (List Bytes)} {p : Progress}
    (h : (d.flush replies batch p).1 = some true) :
    d.flushAll replies (batch :: rest) p = d.flushAll replies rest (d.flush replies batch p).2 := by
  rw [flushAll]
  rcases hflush : d.flush replies batch p with ⟨_, p'⟩
  rw [hflush] at h
  obtain rfl := h
  rfl

lemma flushAll_of_ne_true {batch : List Bytes} {rest : List (List Bytes)} {p : Progress}
    (h : (d.flush replies batch p).1 ≠ some true) :
    d.flushAll replies (batch :: rest) p = d.flush replies batch p := by
  rw [flushAll]
  rcases hflush : d.flush replies batch p with ⟨_ | _ | _, p'⟩
  · rfl
  · rfl
  · rw [hflush] at h
    exact absurd rfl h

/-- The batches up to the first one that does not count as deleted, that one included. -/
def upTo : List Handed → List Handed
  | [] => []
  | x :: rest => if x.removed then x :: upTo rest else [x]

lemma upTo_isPrefix (xs : List Handed) : upTo xs <+: xs := by
  induction xs with
  | nil => exact List.prefix_refl _
  | cons x rest ih =>
      rw [upTo]
      split_ifs
      · exact (List.prefix_cons_inj x).mpr ih
      · exact ⟨rest, rfl⟩

/-- Where all of them count as deleted, they are all there. -/
lemma upTo_eq {xs : List Handed} (h : ∀ x ∈ upTo xs, x.removed = true) : upTo xs = xs := by
  induction xs with
  | nil => rfl
  | cons x rest ih =>
      rw [upTo] at h ⊢
      split_ifs at h ⊢ with hx
      · rw [ih fun y hy => h y (List.mem_cons_of_mem x hy)]
      · exact absurd (h x List.mem_cons_self) hx

/-- A batch in front of the first one that does not count as deleted has what those have that do. -/
lemma filter_upTo_isPrefix {P : Handed → Bool} {xs : List Handed}
    (h : ∀ x ∈ xs, x.removed = true → P x = true) : (upTo xs).filter P <+: xs := by
  induction xs with
  | nil => exact List.prefix_refl _
  | cons x rest ih =>
      have hrest := ih fun y hy => h y (List.mem_cons_of_mem x hy)
      rw [upTo]
      split_ifs with hx
      · rw [List.filter_cons_of_pos (h x List.mem_cons_self hx)]
        exact (List.prefix_cons_inj x).mpr hrest
      · rw [List.filter_singleton]
        rcases P x with _ | _
        · exact List.nil_prefix
        · exact ⟨rest, rfl⟩

/-- **What the batches leave**: the log goes up to the first one that does not count as deleted, and
the rows of the others are gone. -/
lemma flushAll_spec (hdry : d.dryRun = false)
    (hstorage : ∀ i, FileListStorage.Undisturbed (replies i).fails BATCH_SIZE)
    {bs : List (List Bytes)} (hsize : ∀ batch ∈ bs, batch.length ≤ BATCH_SIZE)
    (hconn : p.conn.Settled) {xs : List Handed}
    (hxs : xs = bs.mapIdx fun i batch => handed (batch, replies (i + p.log.length))) :
    (d.flushAll replies bs p).2.log = p.log ++ upTo xs ∧
      ((d.flushAll replies bs p).1 = some true ↔ ∀ x ∈ xs, x.removed = true) ∧
      (d.flushAll replies bs p).2.conn.committed = FileListStorage.eraseAll p.conn.committed
        (((upTo xs).filter Handed.removed).map Handed.batch).flatten := by
  induction bs generalizing p xs with
  | nil =>
      obtain rfl : xs = [] := hxs
      simp [flushAll, upTo, FileListStorage.eraseAll]
  | cons batch rest ih =>
      obtain ⟨hlog, hsuccess, hstored⟩ := flush_spec replies hdry batch p
      rw [List.mapIdx_cons, Nat.zero_add] at hxs
      rcases hremoved : (handed (batch, replies p.log.length)).removed with _ | _
      · rw [hremoved, if_neg Bool.false_ne_true] at hstored
        rw [hxs, flushAll_of_ne_true (by simp [hsuccess, hremoved]), upTo, hremoved, hlog, hstored,
          if_neg Bool.false_ne_true, hsuccess, hremoved]
        simp [hremoved, FileListStorage.eraseAll]
      · rw [hremoved, if_pos rfl] at hstored
        have hundisturbed := undisturbed_of_le (hstorage p.log.length)
          (hsize batch List.mem_cons_self)
        rw [FileListStorage.storeDeletedBatch_undisturbed hundisturbed hconn] at hstored
        have hsettled : (d.flush replies batch p).2.conn.Settled := by
          rw [hstored]
          exact hconn
        have htail : xs.tail = rest.mapIdx fun i b =>
            handed (b, replies (i + (d.flush replies batch p).2.log.length)) := by
          rw [hxs, List.tail_cons, hlog, List.length_append, List.length_singleton]
          congr 1
          funext i b
          rw [Nat.add_right_comm, Nat.add_assoc]
        obtain ⟨hlog', hsuccess', hcommitted'⟩ := ih (fun b hb =>
          hsize b (List.mem_cons_of_mem _ hb)) hsettled htail
        rw [flushAll_of_true (hsuccess.mpr hremoved), hlog', hcommitted', hsuccess', hlog,
          hstored, ← eraseAll_append, hxs, List.tail_cons, upTo, if_pos hremoved]
        refine ⟨by simp, by simp [hremoved], ?_⟩
        simp [hremoved]

/-! ## When it is as it should be -/

/-- **What batching is for**: the batches that are posted are not empty, hold no more than
`BATCH_SIZE` keys and are, one after another, the beginning of the list without the names of the
database; the batches whose rows go are those whose POST is accepted; and `performDeletion` returns
1 exactly when each batch it came to was accepted, and then the batches are the whole list. -/
structure Batched (d : Deleter) (paths : List Bytes) (conn : Db) (result : Option Bool)
    (p : Progress) : Prop where
  bounded : ∀ batch ∈ p.posted, batch ≠ [] ∧ batch.length ≤ BATCH_SIZE
  consecutive : p.posted.flatten <+: (paths.filter fun path => !d.passesOver path)
  removed : ∀ x ∈ p.log, x.removed = true ↔ Accepted x
  rows : ∀ key, p.conn.committed.lookup key =
    if key ∈ p.accepted.flatten then none else conn.committed.lookup key
  success : result = some true ↔ ∀ x ∈ p.log, Accepted x
  whole : result = some true → p.posted.flatten = paths.filter fun path => !d.passesOver path

/-- The batch is posted and answered with status 200. -/
def Answered (x : List Bytes × Reply) : Prop :=
  [] ∉ x.1 ∧ x.2.response.map Response.responseCode = some 200

/-- The status of each POST is read as it is: of each batch without an empty path behind batches
that were all answered with status 200. -/
def StatusesRead (xs : List (List Bytes × Reply)) : Prop :=
  ∀ before x after, xs = before ++ x :: after → (∀ y ∈ before, Answered y) → [] ∉ x.1 →
    ∀ response, x.2.response = some response → response.StatusRead

lemma mem_of_batchXml_eq_none {batch : List Bytes} (h : batchXml batch = none) : [] ∈ batch := by
  by_contra hne
  have hsome := batchXml_isSome.mpr hne
  rw [h] at hsome
  cases hsome

/-- The log has a batch as accepted when it was answered. -/
lemma accepted_handed {x : List Bytes × Reply} : Accepted (handed x) ↔ Answered x := by
  unfold handed Answered
  rcases hxml : batchXml x.1 with _ | xml
  · have hempty := mem_of_batchXml_eq_none hxml
    simp [Accepted, hempty]
  · have hne : [] ∉ x.1 := batchXml_isSome.mp (by rw [hxml]; rfl)
    simp [Accepted, hne]

/-- A batch counts as deleted exactly when it is answered, as far as its status is read as it is. -/
lemma removed_iff_accepted {x : List Bytes × Reply} :
    ((handed x).removed = true ↔ Accepted (handed x)) ↔
      ([] ∉ x.1 → ∀ response, x.2.response = some response → response.StatusRead) := by
  rw [accepted_handed]
  unfold handed Answered
  rcases hxml : batchXml x.1 with _ | xml
  · have hempty := mem_of_batchXml_eq_none hxml
    simp [hempty]
  · have hne : [] ∉ x.1 := batchXml_isSome.mp (by rw [hxml]; rfl)
    rcases hresponse : x.2.response with _ | response
    · simp [deleteBatch]
    · simp [hne, deleteBatch_eq_true, statusRead_iff]

lemma statusesRead_cons {x : List Bytes × Reply} {rest : List (List Bytes × Reply)} :
    StatusesRead (x :: rest) ↔
      ([] ∉ x.1 → ∀ response, x.2.response = some response → response.StatusRead) ∧
        (Answered x → StatusesRead rest) := by
  constructor
  · intro h
    refine ⟨h [] x rest rfl nofun, ?_⟩
    intro hx before y after heq hbefore
    refine h (x :: before) y after (by rw [heq]; rfl) ?_
    exact List.forall_mem_cons.mpr ⟨hx, hbefore⟩
  · rintro ⟨hx, hrest⟩ (_ | ⟨y, before⟩) z after heq hbefore
    · obtain ⟨rfl, rfl⟩ := List.cons.inj heq
      exact hx
    · obtain ⟨rfl, rfl⟩ := List.cons.inj heq
      obtain ⟨hy, hbefore⟩ := List.forall_mem_cons.mp hbefore
      exact hrest hy before z after rfl hbefore

/-- The log agrees with the answers when their statuses are read as they are. -/
lemma statusesRead_iff (xs : List (List Bytes × Reply)) :
    (∀ x ∈ upTo (xs.map handed), x.removed = true ↔ Accepted x) ↔ StatusesRead xs := by
  induction xs with
  | nil =>
      refine iff_of_true nofun ?_
      rintro (_ | ⟨_, _⟩) x after heq <;> cases heq
  | cons x rest ih =>
      rw [statusesRead_cons, ← removed_iff_accepted, ← ih, ← accepted_handed, List.map_cons, upTo]
      rcases hremoved : (handed x).removed with _ | _
      · rw [if_neg Bool.false_ne_true, List.forall_mem_singleton, hremoved]
        exact ⟨fun h => ⟨h, fun haccepted => absurd (h.mpr haccepted) Bool.false_ne_true⟩, And.left⟩
      · rw [if_pos rfl, List.forall_mem_cons, hremoved]
        exact and_congr_right fun h => ⟨fun hrest _ => hrest, fun hrest => hrest (h.mp rfl)⟩

/-- **What the loop logs, returns and leaves**, by its batches and what becomes of them. -/
lemma performDeletionLoop_spec (hdry : d.dryRun = false)
    (hstorage : ∀ i, FileListStorage.Undisturbed (replies i).fails BATCH_SIZE) {conn : Db}
    (hconn : conn.Settled) {paths : List Bytes} {result : Option Bool}
    (h : d.performDeletionLoop replies paths [] { conn := conn } = (result, p)) :
    p.log = upTo ((d.exchanges paths replies).map handed) ∧
      (result = some true ↔ ∀ x ∈ (d.exchanges paths replies).map handed, x.removed = true) ∧
      p.conn.committed = FileListStorage.eraseAll conn.committed
        ((p.log.filter Handed.removed).map Handed.batch).flatten := by
  have hlogged : (d.exchanges paths replies).map handed =
      (d.batches [] paths).mapIdx fun i batch =>
        handed (batch, replies (i + ({ conn := conn } : Progress).log.length)) := by
    refine List.ext_getElem? fun i => ?_
    simp [exchanges, Function.comp_def]
  rw [performDeletionLoop_eq] at h
  obtain ⟨hlog, hsuccess, hcommitted⟩ := flushAll_spec (p := { conn := conn }) hdry hstorage
    (fun batch hb => (length_le_of_mem_batches (by decide) hb).2) hconn hlogged
  rw [h] at hlog hsuccess hcommitted
  dsimp only at hlog hsuccess hcommitted
  rw [List.nil_append] at hlog
  rw [← hlog] at hcommitted
  exact ⟨hlog, hsuccess, hcommitted⟩

lemma map_batch_handed (paths : List Bytes) (replies : ℕ → Reply) :
    ((d.exchanges paths replies).map handed).map Handed.batch = d.batches [] paths := by
  rw [List.map_map, ← map_fst_exchanges replies]
  exact List.map_congr_left fun x _ => batch_handed x

lemma isSome_of_mem_handed {xs : List (List Bytes × Reply)} :
    ∀ x ∈ xs.map handed, x.removed = true → x.response.isSome = true := by
  intro x hx hremoved
  obtain ⟨y, -, rfl⟩ := List.mem_map.mp hx
  exact isSome_of_removed hremoved

/-- Whatever the server answers, what is posted are the first batches, one after another. -/
lemma posted_isPrefix {paths : List Bytes}
    (hlog : p.log = upTo ((d.exchanges paths replies).map handed)) :
    p.posted <+: d.batches [] paths := by
  rw [Progress.posted, hlog, ← map_batch_handed]
  exact (filter_upTo_isPrefix isSome_of_mem_handed).map Handed.batch

/-- When all of them count as deleted, it is all of them. -/
lemma posted_eq {paths : List Bytes}
    (hlog : p.log = upTo ((d.exchanges paths replies).map handed))
    (hall : ∀ x ∈ p.log, x.removed = true) : p.posted = d.batches [] paths := by
  rw [hlog] at hall
  rw [Progress.posted, hlog, upTo_eq hall, ← map_batch_handed]
  rw [upTo_eq hall] at hall
  rw [List.filter_eq_self.mpr fun x hx => isSome_of_mem_handed x hx (hall x hx)]

/-- **When no entry is lost or sent twice and the rows that go are those of the accepted batches**:
exactly when the status of each POST is read as it is. -/
theorem performDeletionLoop_exact_iff (hdry : d.dryRun = false)
    (hstorage : ∀ i, FileListStorage.Undisturbed (replies i).fails BATCH_SIZE) {conn : Db}
    (hconn : conn.Settled) (paths : List Bytes) {result : Option Bool}
    (h : d.performDeletionLoop replies paths [] { conn := conn } = (result, p)) :
    d.Batched paths conn result p ↔ StatusesRead (d.exchanges paths replies) := by
  obtain ⟨hlog, hsuccess, hcommitted⟩ := performDeletionLoop_spec hdry hstorage hconn h
  have hsent := posted_isPrefix hlog
  have hfiltered : (d.batches [] paths).flatten = paths.filter fun path => !d.passesOver path :=
    flatten_batches [] paths
  rw [← statusesRead_iff, ← hlog]
  refine ⟨Batched.removed, fun hremoved => ?_⟩
  have haccepted : p.accepted = (p.log.filter Handed.removed).map Handed.batch := by
    rw [Progress.accepted]
    refine congrArg _ (List.filter_congr fun x hx => ?_)
    rw [Bool.eq_iff_iff, decide_eq_true_eq, hremoved x hx]
  have hall : result = some true ↔ ∀ x ∈ p.log, x.removed = true := by
    rw [hsuccess]
    constructor
    · intro hxs x hx
      exact hxs x ((upTo_isPrefix _).subset (hlog ▸ hx))
    · intro hxs
      rw [hlog] at hxs
      rwa [upTo_eq hxs] at hxs
  exact {
    bounded := fun batch hb => length_le_of_mem_batches (by decide) (hsent.subset hb)
    consecutive := hfiltered ▸ hsent.flatten
    removed := hremoved
    rows := fun key => by rw [hcommitted, lookup_eraseAll, haccepted]
    success := hall.trans (forall₂_congr hremoved)
    whole := fun hresult => by rw [posted_eq hlog (hall.mp hresult), hfiltered] }

/-- The database is passed over, and the two files go in one batch. -/
theorem performDeletionLoop_exact_iff_sample :
    ∃ p, sampleDeleter.performDeletionLoop (sampleReply [] noFaults)
        [ascii "a", ascii ".clarc.sqlite3", ascii "b"] [] { conn := { committed := sampleRows } } =
          (some true, p) ∧
      p.posted.flatten = [ascii "a", ascii "b"] := by
  have hundisturbed : ∀ i, FileListStorage.Undisturbed (sampleReply [] noFaults i).fails
      BATCH_SIZE := fun _ => ⟨rfl, rfl, fun _ _ => ⟨rfl, rfl⟩, rfl⟩
  have hsuccess : (sampleDeleter.performDeletionLoop (sampleReply [] noFaults)
      [ascii "a", ascii ".clarc.sqlite3", ascii "b"] []
      { conn := { committed := sampleRows } }).1 = some true := by decide +kernel
  rcases hrun : sampleDeleter.performDeletionLoop (sampleReply [] noFaults)
    [ascii "a", ascii ".clarc.sqlite3", ascii "b"] [] { conn := { committed := sampleRows } } with
    ⟨result, p⟩
  rw [hrun] at hsuccess
  obtain rfl := hsuccess
  have hsettled : Connection.Settled ({ committed := sampleRows } : Db) := rfl
  have hread : StatusesRead (sampleDeleter.exchanges
      [ascii "a", ascii ".clarc.sqlite3", ascii "b"] (sampleReply [] noFaults)) := by
    rw [← statusesRead_iff]
    decide
  have hbatched := (performDeletionLoop_exact_iff rfl hundisturbed hsettled _ hrun).mpr hread
  exact ⟨p, rfl, (hbatched.whole rfl).trans (by decide)⟩

/-- What becomes of a batch whose POST is answered with a `200 OK` and then with 403. -/
def forbiddenReply : ℕ → Reply := fun _ => {
  response := some {
    code := .ok
    responseCode := 403
    headers := ascii "HTTP/1.1 200 OK\r\n\r\nHTTP/1.1 403 Forbidden\r\n\r\n" }
  kept := [ascii "a"]
  fails := noFaults }

/-- The POST ends with status 403, the batch counts as deleted and its row goes. -/
theorem forbidden_batch_removed :
    ∃ p, sampleDeleter.performDeletionLoop forbiddenReply [ascii "a"] []
        { conn := { committed := sampleRows } } = (some true, p) ∧
      p.conn.committed.lookup (ascii "a") = none ∧
      ¬ sampleDeleter.Batched [ascii "a"] { committed := sampleRows } (some true) p := by
  have hrun : (sampleDeleter.performDeletionLoop forbiddenReply [ascii "a"] []
        { conn := { committed := sampleRows } }).1 = some true ∧
      (sampleDeleter.performDeletionLoop forbiddenReply [ascii "a"] []
        { conn := { committed := sampleRows } }).2.conn.committed.lookup (ascii "a") = none ∧
      ¬ ∀ x ∈ (sampleDeleter.performDeletionLoop forbiddenReply [ascii "a"] []
        { conn := { committed := sampleRows } }).2.log, Accepted x := by decide
  obtain ⟨hresult, hgone, hrefused⟩ := hrun
  refine ⟨_, Prod.ext hresult rfl, hgone, fun hbatched => ?_⟩
  exact hrefused (hbatched.success.mp rfl)

end Deleter

end Clarc
