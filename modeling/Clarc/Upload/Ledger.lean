import Clarc.Upload.Uploader

/-!
# What an upload run has done with each file

Two invariants of every run of `uploadFiles`, whatever the threads, the responses and the failures:

* `Placed` — each thread works on a file of the list that the loop has passed and stated, no two
  threads on the same one, and a loop that has returned has left no thread behind;
* `Ledger` — for a list with distinct paths and a run that is not dry, each file that the loop has
  passed is accounted for: skipped, up to date, stored, in the hands of a thread, or the run has
  failed.  A row is changed by nothing but the store of its own file.

`returned_account` draws the conclusion for a run that returns success: **each file was skipped, or
was up to date, or its row now carries the mtime that the run saw, cut to 32 bits.**
-/

namespace Clarc

open Bytes Reactive

namespace Uploader

/-! ## Threads in their slots -/

/-- How many files the loop has passed. -/
def Dispatcher.position (count : ℕ) : Dispatcher → ℕ
  | .top i | .stating i | .looking i _ => i
  | .sleeping c => c.index
  | .joining | .returned _ | .exited | .crashed => count

variable (u : Uploader) (files : LocalFileList) (pfx : Bytes)

/-- The job is one that the loop makes of a file of the list, after its `lstat`. -/
structure Job (es : List Event) (c : ThreadCommand) : Prop where
  file : ∃ file, files[c.index]? = some file ∧
    c.realLocalPath = pathOf pfx file ∧
    c.path = u.keyOf file
  size : c.fileInfo.size < MAX_S3_FILE_SIZE
  stat : .stat c.index c.realLocalPath (some c.fileInfo) ∈ es

/-- The threads and the loop are where they should be. -/
structure Placed (es : List Event) (s : State) : Prop where
  position_le : s.pc.position files.length ≤ files.length
  stating : ∀ i, s.pc = .stating i → i < files.length
  looking : ∀ i fileInfo, s.pc = .looking i fileInfo → i < files.length ∧
    fileInfo.size < MAX_S3_FILE_SIZE ∧ ∀ file, files[i]? = some file →
      .stat i (pathOf pfx file) (some fileInfo) ∈ es
  sleeping : ∀ c, s.pc = .sleeping c → c.index < files.length ∧ Job u files pfx es c
  job : ∀ n c w, s.slots n = some (c, w) →
    n < u.uploadThreads ∧ c.index < s.pc.position files.length ∧ Job u files pfx es c
  distinct : ∀ m n c d v w, s.slots m = some (c, v) → s.slots n = some (d, w) →
    c.index = d.index → m = n
  returned : ∀ success, s.pc = .returned success → success = !s.failed ∧ ∀ n, s.slots n = none

variable {u files pfx} {es fs : List Event} {s s' : State} {a : Action}

namespace State

@[simp] lemma goto_pc (pc : Dispatcher) : (s.goto pc).pc = pc := rfl
@[simp] lemma goto_slots (pc : Dispatcher) : (s.goto pc).slots = s.slots := rfl
@[simp] lemma setSlot_pc (n : ℕ) (c : ThreadCommand) (w : Worker) :
    (s.setSlot n c w).pc = s.pc := rfl
@[simp] lemma setSlot_conn (n : ℕ) (c : ThreadCommand) (w : Worker) :
    (s.setSlot n c w).conn = s.conn := rfl
@[simp] lemma setSlot_failed (n : ℕ) (c : ThreadCommand) (w : Worker) :
    (s.setSlot n c w).failed = s.failed := rfl
@[simp] lemma markFree_pc (n : ℕ) : (s.markFree n).pc = s.pc := rfl

@[simp] lemma setSlot_slots_self (n : ℕ) (c : ThreadCommand) (w : Worker) :
    (s.setSlot n c w).slots n = some (c, w) := by
  simp [setSlot]

lemma setSlot_slots_of_ne {m n : ℕ} (h : m ≠ n) (c : ThreadCommand) (w : Worker) :
    (s.setSlot n c w).slots m = s.slots m := by
  simp [setSlot, Function.update_of_ne h]

lemma markFree_slots_of_ne {m n : ℕ} (h : m ≠ n) : (s.markFree n).slots m = s.slots m := by
  simp [markFree, Function.update_of_ne h]

/-- A thread after a move was there before it, or is the one that moved. -/
lemma setSlot_slots_cases {m n : ℕ} {c d : ThreadCommand} {v w : Worker}
    (h : (s.setSlot n c w).slots m = some (d, v)) :
    (m = n ∧ d = c ∧ v = w) ∨ (m ≠ n ∧ s.slots m = some (d, v)) := by
  by_cases hm : m = n
  · subst hm
    rw [setSlot_slots_self] at h
    cases h
    exact Or.inl ⟨rfl, rfl, rfl⟩
  · rw [setSlot_slots_of_ne hm] at h
    exact Or.inr ⟨hm, h⟩

/-- The threads stay on files of their own when a slot takes one that no other slot has. -/
lemma setSlot_distinct {n : ℕ} {c : ThreadCommand} {w : Worker}
    (h : ∀ m n c d v w, s.slots m = some (c, v) → s.slots n = some (d, w) →
      c.index = d.index → m = n)
    (hother : ∀ m d v, m ≠ n → s.slots m = some (d, v) → d.index ≠ c.index)
    (m m' : ℕ) (d d' : ThreadCommand) (v v' : Worker)
    (hm : (s.setSlot n c w).slots m = some (d, v))
    (hm' : (s.setSlot n c w).slots m' = some (d', v')) (hindex : d.index = d'.index) :
    m = m' := by
  rcases setSlot_slots_cases hm with ⟨rfl, rfl, rfl⟩ | ⟨hne, hold⟩ <;>
    rcases setSlot_slots_cases hm' with ⟨rfl, rfl, rfl⟩ | ⟨hne', hold'⟩
  · rfl
  · exact absurd hindex.symm (hother _ _ _ hne' hold')
  · exact absurd hindex (hother _ _ _ hne hold)
  · exact h _ _ _ _ _ _ hold hold' hindex

/-- A thread after a slot was freed was there before, in another slot. -/
lemma markFree_slots {m n : ℕ} {d : ThreadCommand} {v : Worker}
    (h : (s.markFree n).slots m = some (d, v)) : m ≠ n ∧ s.slots m = some (d, v) := by
  by_cases hm : m = n
  · subst hm
    simp [markFree] at h
  · rw [markFree_slots_of_ne hm] at h
    exact ⟨hm, h⟩

end State

lemma Job.mono {c : ThreadCommand} (h : Job u files pfx es c) :
    Job u files pfx (es ++ fs) c :=
  ⟨h.file, h.size, List.mem_append_left _ h.stat⟩

lemma Job.index_lt {c : ThreadCommand} (h : Job u files pfx es c) : c.index < files.length := by
  obtain ⟨file, hfile, _⟩ := h.file
  exact (List.getElem?_eq_some_iff.mp hfile).1

/-- The loop goes on without touching a slot. -/
lemma Placed.goto (h : Placed u files pfx es s) {failed : Bool} {pc : Dispatcher}
    (hpos : s.pc.position files.length ≤ pc.position files.length)
    (hle : pc.position files.length ≤ files.length)
    (hstating : ∀ i, pc = .stating i → i < files.length)
    (hlooking : ∀ i fileInfo, pc = .looking i fileInfo → i < files.length ∧
      fileInfo.size < MAX_S3_FILE_SIZE ∧ ∀ file, files[i]? = some file →
        .stat i (pathOf pfx file) (some fileInfo) ∈ es ++ fs)
    (hsleeping : ∀ c, pc = .sleeping c → c.index < files.length ∧ Job u files pfx (es ++ fs) c)
    (hreturned : ∀ success, pc = .returned success →
      success = !failed ∧ ∀ n, s.slots n = none) :
    Placed u files pfx (es ++ fs) { s with failed := failed, pc := pc } where
  position_le := hle
  stating := hstating
  looking := hlooking
  sleeping := hsleeping
  job := by
    intro n c w hslot
    obtain ⟨hn, hlt, hjob⟩ := h.job n c w hslot
    exact ⟨hn, lt_of_lt_of_le hlt hpos, hjob.mono⟩
  distinct := h.distinct
  returned := hreturned

/-- A thread moves on. -/
lemma Placed.move (h : Placed u files pfx es s) {n : ℕ} {c : ThreadCommand} {w w' : Worker}
    {conn : Db} {failed : Bool} (hrun : s.pc.running = true) (hslot : s.slots n = some (c, w)) :
    Placed u files pfx (es ++ fs)
      ({ s with conn := conn, failed := failed }.setSlot n c w') where
  position_le := h.position_le
  stating := h.stating
  looking := by
    intro i fileInfo hpc
    obtain ⟨hi, hsize, hstat⟩ := h.looking i fileInfo hpc
    exact ⟨hi, hsize, fun file hfile => List.mem_append_left _ (hstat file hfile)⟩
  sleeping := by
    intro d hpc
    obtain ⟨hi, hjob⟩ := h.sleeping d hpc
    exact ⟨hi, hjob.mono⟩
  job := by
    intro m d v hm
    rcases State.setSlot_slots_cases hm with ⟨rfl, rfl, rfl⟩ | ⟨_, hm⟩
    · obtain ⟨hn, hlt, hjob⟩ := h.job _ _ _ hslot
      exact ⟨hn, hlt, hjob.mono⟩
    · obtain ⟨hn, hlt, hjob⟩ := h.job _ _ _ hm
      exact ⟨hn, hlt, hjob.mono⟩
  distinct := by
    refine State.setSlot_distinct h.distinct fun m d v hm hold hindex => hm ?_
    exact h.distinct _ _ _ _ _ _ hold hslot hindex
  returned := by
    intro success hpc
    rw [State.setSlot_pc] at hpc
    change s.pc = .returned success at hpc
    rw [hpc] at hrun
    cases hrun

/-- **A step keeps the threads placed.** -/
theorem Placed.transition (h : Placed u files pfx es s)
    (ht : u.Transition files pfx s a fs s') : Placed u files pfx (es ++ fs) s' := by
  have hle := h.position_le
  cases ht with
  | more i hpc hfailed hi =>
      refine h.goto (by simp [hpc, Dispatcher.position]) hi.le ?_ ?_ ?_ ?_ <;> simp [hi]
  | done i hpc hend =>
      refine h.goto hle le_rfl ?_ ?_ ?_ ?_ <;> simp
  | skipped i file answer hpc hfile hskip =>
      have hi := (List.getElem?_eq_some_iff.mp hfile).1
      refine h.goto (by simp [hpc, Dispatcher.position]) hi ?_ ?_ ?_ ?_ <;> simp
  | stated i file fileInfo hpc hfile hsize =>
      have hi := (List.getElem?_eq_some_iff.mp hfile).1
      refine h.goto (by simp [hpc, Dispatcher.position]) hi.le (by simp) ?_ (by simp) (by simp)
      rintro j st ⟨⟩
      refine ⟨hi, hsize, fun file' hfile' => ?_⟩
      obtain rfl := Option.some.inj (hfile.symm.trans hfile')
      exact List.mem_append_right _ List.mem_cons_self
  | lookupFailed i fileInfo file fails hpc hfile hfails =>
      have hi := (List.getElem?_eq_some_iff.mp hfile).1
      refine h.goto (by simp [hpc, Dispatcher.position]) hi ?_ ?_ ?_ ?_ <;> simp
  | upToDate i fileInfo file fails hpc hfile hsame =>
      have hi := (List.getElem?_eq_some_iff.mp hfile).1
      refine h.goto (by simp [hpc, Dispatcher.position]) hi ?_ ?_ ?_ ?_ <;> simp
  | outdated i fileInfo file fails hpc hfile hrow =>
      obtain ⟨hi, hsize, hstat⟩ := h.looking i fileInfo hpc
      refine h.goto (by simp [hpc, Dispatcher.position, command]) hi.le (by simp) (by simp) ?_
        (by simp)
      rintro c ⟨⟩
      exact ⟨hi, ⟨file, hfile, rfl, rfl⟩, hsize, List.mem_append_left _ (hstat file hfile)⟩
  | dispatched n c hpc hn hfree =>
      obtain ⟨hi, hjob⟩ := h.sleeping c hpc
      have hother : ∀ m d v, s.slots m = some (d, v) → d.index < c.index := by
        intro m d v hm
        simpa [hpc, Dispatcher.position] using (h.job m d v hm).2.1
      exact {
        position_le := hi
        stating := by simp
        looking := by simp
        sleeping := by simp
        job := by
          intro m d v hm
          rcases State.setSlot_slots_cases hm with ⟨rfl, rfl, rfl⟩ | ⟨_, hm⟩
          · exact ⟨hn, Nat.lt_succ_self _, hjob.mono⟩
          · obtain ⟨hm', hlt, hjob'⟩ := h.job _ _ _ hm
            exact ⟨hm', Nat.lt_succ_of_lt (hother _ _ _ hm), hjob'.mono⟩
        distinct :=
          State.setSlot_distinct h.distinct fun m d v _ hold => (hother _ _ _ hold).ne
        returned := by simp }
  | notCreated n c hpc =>
      refine h.goto hle le_rfl ?_ ?_ ?_ ?_ <;> simp
  | joined hpc hfree =>
      refine h.goto hle le_rfl (by simp) (by simp) (by simp) ?_
      rintro success ⟨⟩
      refine ⟨rfl, fun n => ?_⟩
      rcases hslot : s.slots n with _ | ⟨c, w⟩
      · rfl
      · rw [hfree n (h.job n c w hslot).1] at hslot
        cases hslot
  | move n c w w' a fs conn flag hrun hslot hmove =>
      exact h.move hrun hslot
  | freed n c hrun hslot =>
      exact {
        position_le := hle
        stating := by simpa using h.stating
        looking := by simpa using h.looking
        sleeping := by simpa using h.sleeping
        job := by
          intro m d v hm
          simpa using h.job m d v (State.markFree_slots hm).2
        distinct := by
          intro m m' d d' v v' hm hm' hindex
          exact h.distinct _ _ _ _ _ _ (State.markFree_slots hm).2
            (State.markFree_slots hm').2 hindex
        returned := by
          intro success hpc
          rw [State.markFree_pc] at hpc
          rw [hpc] at hrun
          cases hrun }
  | lost n c w a fs hrun hslot hlost =>
      refine h.goto hle le_rfl ?_ ?_ ?_ ?_ <;> simp

lemma placed_start {conn : Db} : Placed u files pfx [] { conn := conn } where
  position_le := Nat.zero_le _
  stating := by simp
  looking := by simp
  sleeping := by simp
  job := by simp
  distinct := by simp
  returned := by simp

/-! ## The rows -/

/-- A row that is stored leaves no transaction open. -/
lemma Transition.settled (h : u.Transition files pfx s a es s') (hs : s.conn.Settled) :
    s'.conn.Settled := by
  cases h with
  | move n c w w' a es conn flag hrun hslot hmove =>
      cases hmove <;> simpa using hs
  | _ => exact hs

variable (u files pfx) (conn₀ : Db)

/-- What has become of the file in place `i` in a run from `conn₀`. -/
inductive Account (es : List Event) (s : State) (i : ℕ) (file : LocalFile) : Prop
  | skipped (answer : Option Stat) (hstat : .stat i (pathOf pfx file) answer ∈ es)
      (h : ∀ fileInfo, answer = some fileInfo → MAX_S3_FILE_SIZE ≤ fileInfo.size)
      (hrow : s.conn.view.lookup (u.keyOf file) = conn₀.view.lookup (u.keyOf file))
  | upToDate (fileInfo : Stat) (hstat : .stat i (pathOf pfx file) (some fileInfo) ∈ es)
      (hsize : fileInfo.size < MAX_S3_FILE_SIZE)
      (hrow : s.conn.view.lookup (u.keyOf file) = conn₀.view.lookup (u.keyOf file))
      (h : UpToDate conn₀ (u.keyOf file) fileInfo)
  | stored (fileInfo : Stat) (hstat : .stat i (pathOf pfx file) (some fileInfo) ∈ es)
      (hsize : fileInfo.size < MAX_S3_FILE_SIZE) (md5 : Bytes)
      (hrow : s.conn.view.lookup (u.keyOf file) = some ⟨md5, fileInfo.mtime32.toUInt64⟩)
      (h : ¬ UpToDate conn₀ (u.keyOf file) fileInfo)
  | inFlight (n : ℕ) (c : ThreadCommand) (w : Worker) (hslot : s.slots n = some (c, w))
      (hindex : c.index = i) (hw : w ≠ .finishing)
  | failed (h : s.failed = true)
  | ended (h : s.pc = .exited ∨ s.pc = .crashed)

/-- The job is made from what the table said at the start. -/
structure Looked (c : ThreadCommand) : Prop where
  storedMd5 : c.storedMd5 = (rowOf conn₀ c.path).1
  shouldCheckMd5 : c.shouldCheckMd5 = decide (0 < (rowOf conn₀ c.path).2)
  outdated : ¬ UpToDate conn₀ c.path c.fileInfo

/-- The table and the files agree on what the run has done so far. -/
structure Ledger (es : List Event) (s : State) : Prop where
  settled : s.conn.Settled
  temporary : s.conn.temporary = conn₀.temporary
  others : ∀ key, (∀ file ∈ files, u.keyOf file ≠ key) →
    s.conn.view.lookup key = conn₀.view.lookup key
  ahead : ∀ i file, files[i]? = some file → s.pc.position files.length ≤ i →
    s.conn.view.lookup (u.keyOf file) =
      conn₀.view.lookup (u.keyOf file)
  working : ∀ n c w, s.slots n = some (c, w) → w ≠ .finishing →
    s.conn.view.lookup c.path = conn₀.view.lookup c.path
  looked : ∀ c, (s.pc = .sleeping c ∨ ∃ n w, s.slots n = some (c, w)) →
    Looked conn₀ c
  account : ∀ i file, files[i]? = some file → i < s.pc.position files.length →
    Account u pfx conn₀ es s i file

variable {u files pfx conn₀}

/-- No two files of the list have the same key. -/
def KeysDistinct (u : Uploader) (files : LocalFileList) : Prop :=
  ∀ (i j : ℕ) (f g : LocalFile), files[i]? = some f → files[j]? = some g →
    u.keyOf f = u.keyOf g → i = j

lemma remotePath_injective : Function.Injective u.remotePath := by
  intro a b h
  unfold remotePath at h
  split at h
  · split_ifs at h
    · exact List.append_cancel_left h
    · exact h
  · exact h

/-- Distinct paths have distinct keys. -/
lemma keysDistinct (hnodup : files.paths.Nodup) (hrooted : files.Rooted) :
    KeysDistinct u files := by
  intro i j f g hf hg h
  have hmem : ∀ {i : ℕ} {f : LocalFile}, files[i]? = some f → f.path ∈ files.paths :=
    fun hf => List.mem_map_of_mem (List.mem_of_getElem? hf)
  have hpath : f.path = g.path :=
    hrooted.drop_injOn (hmem hf) (hmem hg) (remotePath_injective h)
  have hfi : files.paths[i]? = some f.path := by simp [LocalFileList.paths, hf]
  have hgj : files.paths[j]? = some f.path := by simp [LocalFileList.paths, hg, hpath]
  obtain ⟨hi, hfi⟩ := List.getElem?_eq_some_iff.mp hfi
  obtain ⟨hj, hgj⟩ := List.getElem?_eq_some_iff.mp hgj
  exact (hnodup.getElem_inj_iff).mp (hfi.trans hgj.symm)

/-- What is known of a file stays known when its row and its thread stay. -/
lemma Account.mono {i : ℕ} {file : LocalFile} (h : Account u pfx conn₀ es s i file)
    (hrow : s'.conn.view.lookup (u.keyOf file) = s.conn.view.lookup (u.keyOf file))
    (hslots : ∀ n c w, s.slots n = some (c, w) → c.index = i → w ≠ .finishing →
      s'.slots n = some (c, w))
    (hfailed : s.failed = true → s'.failed = true)
    (hended : s.pc = .exited ∨ s.pc = .crashed → s'.pc = .exited ∨ s'.pc = .crashed) :
    Account u pfx conn₀ (es ++ fs) s' i file := by
  cases h with
  | skipped answer hstat h hold =>
      exact .skipped answer (List.mem_append_left _ hstat) h (hrow.trans hold)
  | upToDate fileInfo hstat hsize hold h =>
      exact .upToDate fileInfo (List.mem_append_left _ hstat) hsize (hrow.trans hold) h
  | stored fileInfo hstat hsize md5 hold h =>
      exact .stored fileInfo (List.mem_append_left _ hstat) hsize md5 (hrow.trans hold) h
  | inFlight n c w hslot hindex hw =>
      exact .inFlight n c w (hslots n c w hslot hindex hw) hindex hw
  | failed h => exact .failed (hfailed h)
  | ended h => exact .ended (hended h)

/-- The loop goes on, having accounted for the files it has passed. -/
lemma Ledger.goto (h : Ledger u files pfx conn₀ es s) {failed : Bool} {pc : Dispatcher}
    (hrun : s.pc.running = true) (hfailed : s.failed = true → failed = true)
    (hpos : s.pc.position files.length ≤ pc.position files.length)
    (hsleeping : ∀ c, pc = .sleeping c → Looked conn₀ c)
    (hnew : ∀ i file, files[i]? = some file → s.pc.position files.length ≤ i →
      i < pc.position files.length →
        Account u pfx conn₀ (es ++ fs) { s with failed := failed, pc := pc } i file) :
    Ledger u files pfx conn₀ (es ++ fs) { s with failed := failed, pc := pc } where
  settled := h.settled
  temporary := h.temporary
  others := h.others
  ahead := fun i file hfile hi => h.ahead i file hfile (hpos.trans hi)
  working := h.working
  looked := by
    rintro c (hc | hc)
    · exact hsleeping c hc
    · exact h.looked c (Or.inr hc)
  account := by
    intro i file hfile hi
    by_cases hold : i < s.pc.position files.length
    · refine (h.account i file hfile hold).mono rfl (fun _ _ _ hslot _ _ => hslot) hfailed ?_
      rintro (hpc | hpc) <;> rw [hpc] at hrun <;> cases hrun
    · exact hnew i file hfile (by omega) hi

/-- A thread that moves, or leaves its slot, changes at most the row of its own file. -/
lemma Ledger.thread (h : Ledger u files pfx conn₀ es s) (hplaced : Placed u files pfx es s)
    (hkeys : KeysDistinct u files) {n : ℕ} {c : ThreadCommand} {w : Worker}
    (hslot : s.slots n = some (c, w)) (hpc : s'.pc = s.pc)
    (hfailed : s.failed = true → s'.failed = true) (hsettled : s'.conn.Settled)
    (htemporary : s'.conn.temporary = s.conn.temporary)
    (hrows : ∀ key, key ≠ c.path → s'.conn.view.lookup key = s.conn.view.lookup key)
    (hslots : ∀ m, m ≠ n → s'.slots m = s.slots m)
    (hself : ∀ d v, s'.slots n = some (d, v) → d = c ∧
      (v ≠ .finishing → s'.conn.view.lookup c.path = conn₀.view.lookup c.path))
    (haccount : ∀ file, files[c.index]? = some file → c.path = u.keyOf file →
      c.realLocalPath = pathOf pfx file → Account u pfx conn₀ (es ++ fs) s' c.index file) :
    Ledger u files pfx conn₀ (es ++ fs) s' := by
  obtain ⟨hn, hlt, hjob⟩ := hplaced.job n c w hslot
  obtain ⟨file, hfile, hreal, hpath⟩ := hjob.file
  -- the key of another file is another key
  have hne : ∀ i f, files[i]? = some f → i ≠ c.index →
      u.keyOf f ≠ c.path := by
    intro i f hf hi heq
    exact hi (hkeys i c.index f file hf hfile (heq.trans hpath))
  refine {
    settled := hsettled
    temporary := htemporary.trans h.temporary
    others := ?_
    ahead := ?_
    working := ?_
    looked := ?_
    account := ?_ }
  · intro key hkey
    have hother : key ≠ c.path := by
      rintro rfl
      exact hkey file (List.mem_of_getElem? hfile) hpath.symm
    exact (hrows key hother).trans (h.others key hkey)
  · intro i f hf hi
    rw [hpc] at hi
    have hic : i ≠ c.index := by omega
    exact (hrows _ (hne i f hf hic)).trans (h.ahead i f hf hi)
  · intro m d v hm hv
    by_cases hmn : m = n
    · subst hmn
      obtain ⟨rfl, hrow⟩ := hself d v hm
      exact hrow hv
    · rw [hslots m hmn] at hm
      obtain ⟨_, hdlt, hdjob⟩ := hplaced.job m d v hm
      obtain ⟨f, hf, -, hdpath⟩ := hdjob.file
      have hindex : d.index ≠ c.index := fun heq =>
        hmn (hplaced.distinct m n d c v w hm hslot heq)
      rw [hdpath]
      exact (hrows _ (hne _ f hf hindex)).trans (hdpath ▸ h.working m d v hm hv)
  · rintro d (hd | ⟨m, v, hm⟩)
    · exact h.looked d (Or.inl (hpc ▸ hd))
    · by_cases hmn : m = n
      · subst hmn
        obtain ⟨rfl, -⟩ := hself d v hm
        exact h.looked d (Or.inr ⟨m, w, hslot⟩)
      · exact h.looked d (Or.inr ⟨m, v, hslots m hmn ▸ hm⟩)
  · intro i f hf hi
    by_cases hic : i = c.index
    · subst hic
      obtain rfl := Option.some.inj (hf.symm.trans hfile)
      exact haccount _ hf hpath hreal
    · rw [hpc] at hi
      refine (h.account i f hf hi).mono (hrows _ (hne i f hf hic)) ?_ hfailed ?_
      · intro m d v hm hdi _
        have hmn : m ≠ n := by
          rintro rfl
          rw [hslot] at hm
          cases hm
          exact hic hdi.symm
        rw [hslots m hmn]
        exact hm
      · rw [hpc]
        exact id

/-- **A step keeps the ledger.** -/
theorem Ledger.transition (h : Ledger u files pfx conn₀ es s) (hplaced : Placed u files pfx es s)
    (hkeys : KeysDistinct u files) (hdry : u.dryRun = false)
    (ht : u.Transition files pfx s a fs s') : Ledger u files pfx conn₀ (es ++ fs) s' := by
  have hrowOf : ∀ i file, files[i]? = some file → s.pc.position files.length ≤ i →
      rowOf s.conn (u.keyOf file) =
        rowOf conn₀ (u.keyOf file) := by
    intro i file hfile hi
    rw [rowOf, h.ahead i file hfile hi, rowOf]
  cases ht with
  | more i hpc hfailed hi =>
      refine h.goto (by rw [hpc]; rfl) id (by simp [hpc, Dispatcher.position]) (by simp) ?_
      intro j f hf hj hj'
      simp only [hpc, Dispatcher.position] at hj hj'
      omega
  | done i hpc hend =>
      refine h.goto (by rw [hpc]; rfl) id hplaced.position_le (by simp) ?_
      intro j f hf hj hj'
      rcases hend with hfailed | hlen
      · exact .failed hfailed
      · simp only [hpc, Dispatcher.position] at hj hj'
        omega
  | skipped i file answer hpc hfile hskip =>
      refine h.goto (by rw [hpc]; rfl) id (by simp [hpc, Dispatcher.position]) (by simp) ?_
      intro j f hf hj hj'
      simp only [hpc, Dispatcher.position] at hj hj'
      obtain rfl : j = i := by omega
      obtain rfl := Option.some.inj (hfile.symm.trans hf)
      exact .skipped answer (List.mem_append_right _ List.mem_cons_self) hskip
        (h.ahead j _ hf (by simp [hpc, Dispatcher.position]))
  | stated i file fileInfo hpc hfile hsize =>
      refine h.goto (by rw [hpc]; rfl) id (by simp [hpc, Dispatcher.position]) (by simp) ?_
      intro j f hf hj hj'
      simp only [hpc, Dispatcher.position] at hj hj'
      omega
  | lookupFailed i fileInfo file fails hpc hfile hfails =>
      refine h.goto (by rw [hpc]; rfl) (fun _ => rfl) (by simp [hpc, Dispatcher.position])
        (by simp) ?_
      intro j f hf hj hj'
      exact .failed rfl
  | upToDate i fileInfo file fails hpc hfile hsame =>
      refine h.goto (by rw [hpc]; rfl) id (by simp [hpc, Dispatcher.position]) (by simp) ?_
      intro j f hf hj hj'
      simp only [hpc, Dispatcher.position] at hj hj'
      obtain rfl : j = i := by omega
      obtain rfl := Option.some.inj (hfile.symm.trans hf)
      have hat : s.pc.position files.length ≤ j := by simp [hpc, Dispatcher.position]
      obtain ⟨-, hsize, hstat⟩ := hplaced.looking j fileInfo hpc
      rw [UpToDate, hrowOf j _ hf hat] at hsame
      exact .upToDate fileInfo (List.mem_append_left _ (hstat _ hf)) hsize (h.ahead j _ hf hat)
        hsame
  | outdated i fileInfo file fails hpc hfile hrow =>
      have hat : s.pc.position files.length ≤ i := by simp [hpc, Dispatcher.position]
      rw [UpToDate, hrowOf i file hfile hat] at hrow
      refine h.goto (by rw [hpc]; rfl) id (by simp [hpc, Dispatcher.position, command]) ?_ ?_
      · rintro c ⟨⟩
        rw [hrowOf i file hfile hat]
        exact ⟨rfl, rfl, hrow⟩
      · intro j f hf hj hj'
        simp only [hpc, Dispatcher.position, command] at hj hj'
        omega
  | dispatched n c hpc hn hfree =>
      obtain ⟨hi, hjob⟩ := hplaced.sleeping c hpc
      obtain ⟨file, hfile, -, hpath⟩ := hjob.file
      have hat : s.pc.position files.length ≤ c.index := by simp [hpc, Dispatcher.position]
      have henter : u.enter c ≠ .finishing := by
        rcases u.enter_cases c with ⟨h, -⟩ | ⟨-, h⟩ | ⟨h, -⟩
        · simp [h]
        · cases hdry.symm.trans h
        · simp [h]
      refine {
        settled := h.settled
        temporary := h.temporary
        others := h.others
        ahead := ?_
        working := ?_
        looked := ?_
        account := ?_ }
      · intro j f hf hj
        refine h.ahead j f hf ?_
        simp only [State.goto_pc, hpc, Dispatcher.position] at hj ⊢
        omega
      · intro m d v hm hv
        rcases State.setSlot_slots_cases hm with ⟨rfl, rfl, rfl⟩ | ⟨_, hold⟩
        · rw [hpath]
          exact h.ahead d.index file hfile hat
        · exact h.working m d v hold hv
      · rintro d (hd | ⟨m, v, hm⟩)
        · cases hd
        · rcases State.setSlot_slots_cases hm with ⟨rfl, rfl, rfl⟩ | ⟨_, hold⟩
          · exact h.looked d (Or.inl hpc)
          · exact h.looked d (Or.inr ⟨m, v, hold⟩)
      · intro j f hf hj
        by_cases hjc : j = c.index
        · exact .inFlight n c (u.enter c) (State.setSlot_slots_self n c _) hjc.symm henter
        · have hold : j < s.pc.position files.length := by
            simp only [State.goto_pc, hpc, Dispatcher.position] at hj ⊢
            omega
          refine (h.account j f hf hold).mono rfl ?_ id (by simp [hpc])
          intro m d v hm _ _
          have hmn : m ≠ n := by
            rintro rfl
            rw [hfree] at hm
            cases hm
          exact (State.setSlot_slots_of_ne hmn c _).trans hm
  | notCreated n c hpc =>
      refine h.goto (by rw [hpc]; rfl) id hplaced.position_le (by simp) ?_
      intro j f hf hj hj'
      exact .ended (Or.inl rfl)
  | joined hpc hfree =>
      refine h.goto (by rw [hpc]; rfl) id hplaced.position_le (by simp) ?_
      intro j f hf hj hj'
      simp only [hpc, Dispatcher.position] at hj hj'
      omega
  | lost n c w a fs hrun hslot hlost =>
      refine h.goto hrun id hplaced.position_le (by simp) ?_
      intro j f hf hj hj'
      exact .ended (Or.inr rfl)
  | freed n c hrun hslot =>
      obtain ⟨hn, hlt, hjob⟩ := hplaced.job n c _ hslot
      obtain ⟨file, hfile, -, hpath⟩ := hjob.file
      refine h.thread hplaced hkeys hslot rfl id h.settled rfl (fun _ _ => rfl)
        (fun m hm => State.markFree_slots_of_ne hm) ?_ ?_
      · intro d v hm
        exact absurd rfl (State.markFree_slots hm).1
      · intro f hf _ _
        refine (h.account c.index f hf hlt).mono rfl ?_ id id
        intro m d v hm hindex hv
        have hmn : m ≠ n := by
          rintro rfl
          rw [hslot] at hm
          cases hm
          exact hv rfl
        exact (State.markFree_slots_of_ne hmn).trans hm
  | move n c w w' wa fs conn flag hrun hslot hmove =>
      obtain ⟨hn, hlt, hjob⟩ := hplaced.job n c w hslot
      have hw : w ≠ .finishing := by
        rintro rfl
        cases hmove
      have hrow := h.working n c w hslot hw
      have hsettled := h.settled
      refine h.thread hplaced hkeys hslot rfl (by simp +contextual) ?_ ?_ ?_
        (fun m hm => State.setSlot_slots_of_ne hm c w') ?_ ?_
      · cases hmove <;> simp [hsettled]
      · cases hmove <;> simp
      · intro key hkey
        cases hmove with
        | stored md5 fails => simp [AList.lookup_insert_ne hkey]
        | _ => rfl
      · intro d v hm
        rw [State.setSlot_slots_self] at hm
        cases hm
        refine ⟨rfl, fun hv => ?_⟩
        cases hmove with
        | stored md5 fails => exact absurd rfl hv
        | _ => exact hrow
      · intro f hf hpath hreal
        cases hmove with
        | stored md5 fails =>
            exact .stored c.fileInfo (List.mem_append_left _ (hreal ▸ hjob.stat)) hjob.size
              (md5.take 32) (by simp [hpath]) (hpath ▸ (h.looked c (Or.inr ⟨n, _, hslot⟩)).outdated)
        | flagged => exact .failed (by simp)
        | sameDry hd => rw [hdry] at hd; cases hd
        | differs md5 hmd5 =>
            exact .inFlight n c _ (State.setSlot_slots_self n c _) rfl (by simp [startUpload, hdry])
        | put r system request response result hreq hnext =>
            exact .inFlight n c _ (State.setSlot_slots_self n c _) rfl
              (afterUpload_ne_finishing result)
        | notPut r attempt result hsend hopen hnext =>
            exact .inFlight n c _ (State.setSlot_slots_self n c _) rfl
              (afterUpload_ne_finishing result)
        | _ => exact .inFlight n c _ (State.setSlot_slots_self n c _) rfl (by simp)

lemma ledger_start (hconn : conn₀.Settled) :
    Ledger u files pfx conn₀ [] { conn := conn₀ } where
  settled := hconn
  temporary := rfl
  others := fun _ _ => rfl
  ahead := fun _ _ _ _ => rfl
  working := by simp
  looked := by simp
  account := by simp [Dispatcher.position]

theorem ledger_run {ω : Type} {env : Environment ω Action Event} {w w' : ω}
    (hconn : conn₀.Settled) (hkeys : KeysDistinct u files) (hdry : u.dryRun = false)
    (h : Run (u.step files pfx) env { conn := conn₀ } w es s w') :
    Placed u files pfx es s ∧ Ledger u files pfx conn₀ es s := by
  refine h.invariant (I := fun es s _ => Placed u files pfx es s ∧ Ledger u files pfx conn₀ es s)
    ⟨placed_start, ledger_start hconn⟩ ?_
  intro es t x a fs t' y hI hs _
  have ht := step_transition hs
  exact ⟨hI.1.transition ht, hI.2.transition hI.1 hkeys hdry ht⟩

/-- **After a successful run every file is skipped, up to date or stored.** -/
theorem returned_account (hplaced : Placed u files pfx es s)
    (h : Ledger u files pfx conn₀ es s) (hpc : s.pc = .returned true) {i : ℕ} {file : LocalFile}
    (hfile : files[i]? = some file) :
    ∃ answer, .stat i (pathOf pfx file) answer ∈ es ∧
      (((∀ fileInfo, answer = some fileInfo → MAX_S3_FILE_SIZE ≤ fileInfo.size) ∧
          s.conn.view.lookup (u.keyOf file) = conn₀.view.lookup (u.keyOf file)) ∨
        ∃ fileInfo, answer = some fileInfo ∧ fileInfo.size < MAX_S3_FILE_SIZE ∧
          ((UpToDate conn₀ (u.keyOf file) fileInfo ∧
              s.conn.view.lookup (u.keyOf file) = conn₀.view.lookup (u.keyOf file)) ∨
            (¬ UpToDate conn₀ (u.keyOf file) fileInfo ∧ ∃ md5,
              s.conn.view.lookup (u.keyOf file) = some ⟨md5, fileInfo.mtime32.toUInt64⟩))) := by
  obtain ⟨hfailed, hslots⟩ := hplaced.returned true hpc
  have hi : i < s.pc.position files.length := by
    rw [hpc]
    exact (List.getElem?_eq_some_iff.mp hfile).1
  cases h.account i file hfile hi with
  | skipped answer hstat hskip hrow => exact ⟨answer, hstat, Or.inl ⟨hskip, hrow⟩⟩
  | upToDate fileInfo hstat hsize hrow h =>
      exact ⟨_, hstat, Or.inr ⟨fileInfo, rfl, hsize, Or.inl ⟨h, hrow⟩⟩⟩
  | stored fileInfo hstat hsize md5 hrow h =>
      exact ⟨_, hstat, Or.inr ⟨fileInfo, rfl, hsize, Or.inr ⟨h, md5, hrow⟩⟩⟩
  | inFlight n c w hslot hindex hw =>
      rw [hslots n] at hslot
      cases hslot
  | failed h =>
      rw [h] at hfailed
      cases hfailed
  | ended h =>
      rw [hpc] at h
      rcases h with h | h <;> cases h

end Uploader

end Clarc
