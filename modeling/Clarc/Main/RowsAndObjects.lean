import Clarc.Main.Accounted

/-!
# Rows and objects

The files table and the bucket cannot change together, so the process may stop between a request and
the row that goes with it.  A PUT comes before its row, and so does the listing of an object; but a
deletion is posted before the rows of its batch are removed.

`Serves` says what a bucket that nobody else writes to does with the requests of a run.
`rows_backed_run`: **in every state of a run each row in the committed table has its object, or
belongs to a batch that was posted.**
-/

namespace Clarc

open Bytes Reactive Sqlite RemoteListOfFiles

namespace Main

/-- What becomes of the keys of the bucket.  A request that is not answered with success may have
had its effect or not. -/
def Event.Serves (o : Options) (keys : Set Bytes) : Event → Set Bytes → Prop
  | .list _ response, keys' => keys' = keys ∧ response.Lists (· ∈ keys)
  | .upload (.put c _ response), keys' => keys ⊆ keys' ∧ keys' ⊆ insert c.path keys ∧
      (response.Completed200 → c.path ∈ keys')
  | .database _ response, keys' => keys ⊆ keys' ∧ keys' ⊆ insert o.remoteDatabasePath keys ∧
      (response.Completed200 → o.remoteDatabasePath ∈ keys')
  | .post batch _ _, keys' => keys' ⊆ keys ∧ ∀ k ∈ keys, k ∉ batch → k ∈ keys'
  | .upload _, keys' | .auth _ _, keys' | .create _ _, keys' | .resolve _, keys' => keys' = keys

/-- The requests of a step, one after another. -/
def Served (o : Options) (keys : Set Bytes) : List Event → Set Bytes → Prop
  | [], keys' => keys' = keys
  | e :: es, keys' => ∃ mid, e.Serves o keys mid ∧ Served o mid es keys'

/-- The bucket as the environment of a run. -/
def bucket (o : Options) : Environment (Set Bytes) Action Event := fun keys _ es keys' =>
  Served o keys es keys'

/-- A PUT whose header text begins with `200 OK` has status 200. -/
def Event.StatusAgrees : Event → Prop
  | .upload (.put _ _ response) => response.StatusAgrees
  | .upload _ | .auth _ _ | .create _ _ | .list _ _ | .resolve _ | .post _ _ _
  | .database _ _ => True

/-- The bucket, with PUTs whose status is what their header text begins with. -/
def agreeingBucket (o : Options) : Environment (Set Bytes) Action Event := fun keys _ es keys' =>
  Served o keys es keys' ∧ ∀ e ∈ es, e.StatusAgrees

/-- The key was posted. -/
def Posted (es : List Event) (k : Bytes) : Prop :=
  ∃ batch request response, .post batch request response ∈ es ∧ k ∈ batch

variable {o : Options} {tree : Node} {table : Files} {es fs : List Event} {s : State}
  {keys mid keys' : Set Bytes} {k : Bytes} {e : Event}

lemma Posted.mono (h : Posted es k) (hes : es ⊆ fs) : Posted fs k := by
  obtain ⟨batch, request, response, he, hk⟩ := h
  exact ⟨batch, request, response, hes he, hk⟩

/-! ## What the bucket keeps -/

/-- A request leaves an object, or posts its key. -/
lemma Event.Serves.kept (h : e.Serves o keys keys') (hk : k ∈ keys) :
    k ∈ keys' ∨ Posted [e] k := by
  rcases e with _ | _ | _ | _ | ⟨_ | _ | _ | _ | _⟩ | ⟨batch, request, response⟩ | _
  case post =>
    by_cases hbatch : k ∈ batch
    · exact Or.inr ⟨batch, request, response, List.mem_singleton_self _, hbatch⟩
    · exact Or.inl (h.2 k hk hbatch)
  case list => exact Or.inl (h.1 ▸ hk)
  case upload.put => exact Or.inl (h.1 hk)
  case database => exact Or.inl (h.1 hk)
  all_goals exact Or.inl (show k ∈ keys' from h ▸ hk)

lemma Served.kept (h : Served o keys es keys') (hk : k ∈ keys) : k ∈ keys' ∨ Posted es k := by
  induction es generalizing keys with
  | nil => exact Or.inl (h ▸ hk)
  | cons e es ih =>
      obtain ⟨mid, he, hrest⟩ := h
      rcases he.kept hk with hmid | hposted
      · exact (ih hrest hmid).imp_right fun hposted => hposted.mono (List.subset_cons_self e es)
      · exact Or.inr (hposted.mono (by simp))

/-- What is listed is in the bucket, or is posted afterwards. -/
lemma Served.lists (h : Served o keys es keys') :
    ∀ e ∈ es, e.Lists fun k => k ∈ keys' ∨ Posted es k := by
  induction es generalizing keys with
  | nil => simp
  | cons e es ih =>
      obtain ⟨mid, he, hrest⟩ := h
      intro e' he'
      rcases List.mem_cons.mp he' with rfl | he'
      · rcases e' with _ | _ | ⟨_, response⟩ | _ | _ | _ | _ <;> try trivial
        obtain ⟨rfl, hlists⟩ := he
        intro t p hgo hok h200 hp f hf
        exact (hrest.kept (hlists t p hgo hok h200 hp f hf)).imp_right fun hposted =>
          hposted.mono (List.subset_cons_self _ es)
      · exact (ih hrest e' he').mono fun k hk => hk.imp_right fun hposted =>
          hposted.mono (List.subset_cons_self e es)

/-- What a PUT has stored is in the bucket, or is posted afterwards. -/
lemma Served.puts (h : Served o keys es keys') (hagree : ∀ e ∈ es, e.StatusAgrees) :
    ∀ e ∈ es, e.Puts o tree fun k => k ∈ keys' ∨ Posted es k := by
  induction es generalizing keys with
  | nil => simp
  | cons e es ih =>
      obtain ⟨mid, he, hrest⟩ := h
      intro e' he'
      rcases List.mem_cons.mp he' with rfl | he'
      · rcases e' with _ | _ | _ | _ | ⟨_ | _ | _ | ⟨c, request, response⟩ | _⟩ | _ | _ <;>
          try trivial
        intro _ hmd5
        obtain ⟨md5, hmd5⟩ := Option.isSome_iff_exists.mp hmd5
        obtain ⟨t, hgo, ht⟩ := Option.bind_eq_some_iff.mp hmd5
        split_ifs at ht with hok
        obtain ⟨h200, -, -⟩ := Uploader.md5ToStore_eq_some.mp ht
        have hcompleted : response.Completed200 :=
          completed200_of_go hgo (hagree _ List.mem_cons_self) hok h200
        exact (hrest.kept (he.2.2 hcompleted)).imp_right fun hposted =>
          hposted.mono (List.subset_cons_self _ es)
      · have hrest' := ih hrest (fun e he => hagree e (List.mem_cons_of_mem _ he)) e' he'
        rcases e' with _ | _ | _ | _ | ⟨_ | _ | _ | ⟨c, request, response⟩ | _⟩ | _ | _ <;>
          try trivial
        intro hkeys hmd5
        exact (hrest' hkeys hmd5).imp_right fun hposted =>
          hposted.mono (List.subset_cons_self e es)

/-! ## Runs -/

/-- **Every row has its object, or was posted.** -/
theorem rows_backed_run (htable : ∀ k ∈ table, k ∈ keys)
    (h : Run (step o tree) (agreeingBucket o) (start o table) keys es s keys') :
    ∀ k ∈ s.conn.committed, k ∈ keys' ∨ Posted es k := by
  have hall : Confined o tree True (fun k => k ∈ keys' ∨ Posted es k) s := by
    refine h.invariant (I := fun es s keys' =>
      Confined o tree True (fun k => k ∈ keys' ∨ Posted es k) s)
      (confined_start fun _ k hk => Or.inl (htable k hk)) ?_
    intro es t keys₁ a fs t' keys₂ hI hs henv
    obtain ⟨hserved, hagree⟩ := henv
    have hnew : ∀ k, k ∈ keys₂ ∨ Posted fs k → k ∈ keys₂ ∨ Posted (es ++ fs) k := fun k hk =>
      hk.imp_right fun hposted => hposted.mono (List.subset_append_right es fs)
    refine (hI.step hs ?_ (fun _ => trivial) ?_ ?_).1
    · rintro k (hk | hposted)
      · exact hnew k (hserved.kept hk)
      · exact Or.inr (hposted.mono (List.subset_append_left es fs))
    · exact fun e he => (hserved.lists e he).mono hnew
    · intro e he
      have hputs : e.Puts o tree fun k => k ∈ keys₂ ∨ Posted fs k := hserved.puts hagree e he
      rcases e with _ | _ | _ | _ | ⟨_ | _ | _ | _ | _⟩ | _ | _ <;> try trivial
      exact fun hkeys hmd5 => hnew _ (hputs hkeys hmd5)
  exact (hall.table (Or.inl trivial)).committed

/-! ## One row, posted -/

lemma served_append {keys keys' : Set Bytes} :
    Served o keys (es ++ fs) keys' ↔ ∃ mid, Served o keys es mid ∧ Served o mid fs keys' := by
  induction es generalizing keys with
  | nil =>
      constructor
      · exact fun h => ⟨keys, rfl, h⟩
      · rintro ⟨mid, rfl, h⟩
        exact h
  | cons e es ih =>
      constructor
      · rintro ⟨mid, he, hrest⟩
        obtain ⟨mid', hes, hfs⟩ := ih.mp hrest
        exact ⟨mid', ⟨mid, he, hes⟩, hfs⟩
      · rintro ⟨mid', ⟨mid, he, hes⟩, hfs⟩
        exact ⟨mid, he, ih.mpr ⟨mid', hes, hfs⟩⟩

/-- A run whose events the bucket serves is a run with the bucket. -/
lemma served_run {ok : Action → List Event → Prop} {s₀ : State}
    (hok : ∀ a fs, ok a fs → ∀ e ∈ fs, e.StatusAgrees)
    (h : Run (step o tree) (always ok) s₀ () es s ()) (hserved : Served o keys es keys') :
    Run (step o tree) (agreeingBucket o) s₀ keys es s keys' := by
  refine h.invariant (I := fun es s _ => ∀ keys', Served o keys es keys' →
    Run (step o tree) (agreeingBucket o) s₀ keys es s keys') ?_ ?_ keys' hserved
  · rintro keys' rfl
    exact .start
  · intro es t x a fs t' y hI hs he keys' hserved
    obtain ⟨mid, hes, hfs⟩ := served_append.mp hserved
    exact (hI mid hes).move hs ⟨hfs, hok a fs he⟩

/-- The credentials are checked, and one key is posted. -/
def authThenPost (key : Bytes) : List Event → Bool
  | [.auth _ _, .post batch _ _] => batch == [key]
  | _ => false

lemma authThenPost_cases {key : Bytes} (h : authThenPost key es = true) :
    ∃ request response request' response',
      es = [.auth request response, .post [key] request' response'] := by
  unfold authThenPost at h
  split at h
  next request response batch request' response' =>
    obtain rfl := eq_of_beq h
    exact ⟨request, response, request', response', rfl⟩
  · cases h

instance (e : Event) : Decidable e.StatusAgrees := by
  rcases e with _ | _ | _ | _ | ⟨_ | _ | _ | _ | _⟩ | _ | _ <;> unfold Event.StatusAgrees <;>
    infer_instance

/-- The options of a run that deletes. -/
def deleteOptions : Options := sampleOptions [] [] false (ascii "gFy73g21HKqAvefFGfFvTg==")

/-- The run stops after the POST: the object is gone, and its row is there. -/
lemma run_to_post : ∃ es s, Run (step deleteOptions (.dir true .nil)) (agreeingBucket deleteOptions)
    (start deleteOptions (oneRow (ascii "a"))) {ascii "a"} es s ∅ ∧
      ascii "a" ∈ s.conn.committed := by
  obtain ⟨es, s, hrun, hevents, hrow⟩ := run_of_exec (step deleteOptions (.dir true .nil))
    (start deleteOptions (oneRow (ascii "a"))) sampleDelete (fun _ es => ∀ e ∈ es, e.StatusAgrees)
    (fun es s => authThenPost (ascii "a") es = true ∧ ascii "a" ∈ s.conn.committed)
    (by decide)
  obtain ⟨request, response, request', response', rfl⟩ := authThenPost_cases hevents
  have hserved : Served deleteOptions {ascii "a"}
      [.auth request response, .post [ascii "a"] request' response'] ∅ := by
    refine ⟨{ascii "a"}, rfl, ∅, ⟨Set.empty_subset _, ?_⟩, rfl⟩
    intro k hk hbatch
    exact absurd (List.mem_singleton.mpr hk) hbatch
  exact ⟨_, s, served_run (fun _ _ => id) hrun hserved, hrow⟩

/-- The credentials are checked, a file is put and its row written, and one key is posted. -/
def putThenPost (key posted : Bytes) : List Event → Bool
  | [.auth _ _, .upload (.stat _ _ _), .upload (.put c _ _), .upload (.row _ _),
      .post batch _ _] => c.path == key && batch == [posted]
  | _ => false

lemma served_of_putThenPost {key posted : Bytes} (h : putThenPost key posted es = true)
    (hne : key ≠ posted) : Served o {posted} es {key} := by
  unfold putThenPost at h
  split at h
  · obtain ⟨hpath, hbatch⟩ := Bool.and_eq_true_iff.mp h
    obtain rfl := eq_of_beq hpath
    obtain rfl := eq_of_beq hbatch
    refine ⟨_, rfl, _, rfl, _, ⟨Set.subset_insert _ _, subset_rfl, fun _ => Set.mem_insert _ _⟩,
      _, rfl, _, ⟨?_, ?_⟩, rfl⟩
    · exact Set.singleton_subset_iff.mpr (Set.mem_insert _ _)
    · rintro k (rfl | rfl) hbatch
      · rfl
      · exact absurd (List.mem_singleton_self _) hbatch
  · cases h

/-- A new file is put and has its row, and the object of another row is posted. -/
theorem rows_backed_run_sample :
    ∃ es s, Run (step deleteOptions (.dir true (.cons (ascii "b") .reg (some 3) (.leaf .regular)
          .nil))) (agreeingBucket deleteOptions) (start deleteOptions (oneRow (ascii "a")))
        {ascii "a"} es s {ascii "b"} ∧
      putThenPost (ascii "b") (ascii "a") es = true ∧ ascii "a" ∈ s.conn.committed ∧
      ascii "b" ∈ s.conn.committed ∧
      ∀ k ∈ s.conn.committed, k ∈ ({ascii "b"} : Set Bytes) ∨ Posted es k := by
  obtain ⟨es, s, hrun, hevents, hrow, hnew⟩ := run_of_exec (step deleteOptions (.dir true (.cons
      (ascii "b") .reg (some 3) (.leaf .regular) .nil)))
    (start deleteOptions (oneRow (ascii "a"))) (sampleWhole.take 14)
    (fun _ es => ∀ e ∈ es, e.StatusAgrees)
    (fun es s => putThenPost (ascii "b") (ascii "a") es = true ∧ ascii "a" ∈ s.conn.committed ∧
      ascii "b" ∈ s.conn.committed) (by decide)
  have hserved := served_run (fun _ _ => id) hrun (served_of_putThenPost hevents (by decide))
  exact ⟨es, s, hserved, hevents, hrow, hnew, rows_backed_run (fun k hk => mem_oneRow hk) hserved⟩

/-- Between the POST and the removal of its rows there is a row without an object. -/
theorem row_without_object :
    ∃ es s, Run (step deleteOptions (.dir true .nil)) (bucket deleteOptions)
        (start deleteOptions (oneRow (ascii "a"))) {ascii "a"} es s ∅ ∧
      (∀ k ∈ oneRow (ascii "a"), k ∈ ({ascii "a"} : Set Bytes)) ∧
      ¬ ∀ k ∈ s.conn.committed, k ∈ (∅ : Set Bytes) := by
  obtain ⟨es, s, hrun, hrow⟩ := run_to_post
  refine ⟨es, s, ?_, fun k hk => mem_oneRow hk, fun hall => hall _ hrow⟩
  exact hrun.mapEnv id fun henv => henv.1

end Main

end Clarc
