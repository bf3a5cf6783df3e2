import Clarc.Upload.Acknowledged

/-!
# The rows of the files that a run sends

A PUT whose response gives an md5 is the last one for its file: the thread stores the row, or the
run fails.

* `sent_rows_run` — **after a successful run, each file that it sent has the md5 of the response and
  the mtime of the `lstat`**, whatever its row was before.
-/

namespace Clarc

open Bytes Reactive Sqlite

namespace Uploader

/-- The thread sent this request for its file, and the response gave the md5 to store. -/
structure Sent (u : Uploader) (es : List Event) (c : ThreadCommand) (request : Request)
    (response : Response) (md5 : Bytes) : Prop where
  put : .put c request response ∈ es
  built : ∃ url system, u.uploadFileRequest c.realLocalPath c.path url c.contentType c.fileInfo
    system = some request
  answered : md5From response = some md5

/-- What has become of a file that was sent. -/
inductive SentAccount (s : State) (c : ThreadCommand) (md5 : Bytes) : Prop
  | inFlight (n : ℕ) (w : Worker) (hslot : s.slots n = some (c, w))
      (hw : w = .storing md5 ∨ w = .failing)
  | stored (hrow : s.conn.view.lookup c.path = some ⟨md5, c.fileInfo.mtime32.toUInt64⟩)
      (hslots : ∀ n d w, s.slots n = some (d, w) → d.index = c.index → w = .finishing)
  | failed (h : s.failed = true)
  | ended (h : s.pc = .exited ∨ s.pc = .crashed)

/-- Each file that was sent is accounted for. -/
structure SentRows (u : Uploader) (files : LocalFileList) (pfx : Bytes) (es : List Event)
    (s : State) : Prop where
  job : ∀ c request response, .put c request response ∈ es → Job u files pfx es c ∧
    c.index < s.pc.position files.length
  account : ∀ c request response md5, Sent u es c request response md5 → SentAccount s c md5

variable {u : Uploader} {files : LocalFileList} {pfx : Bytes} {es fs : List Event} {s s' : State}
  {a : Action} {c : ThreadCommand} {n : ℕ} {request : Request} {response : Response} {md5 : Bytes}

lemma md5From_length (h : md5From response = some md5) : md5.length = 32 := by
  obtain ⟨t, -, ht⟩ := Option.bind_eq_some_iff.mp h
  split_ifs at ht
  obtain ⟨-, hlen, rfl⟩ := md5ToStore_eq_some.mp ht
  exact hlen

/-- A response that gives an md5 ends the upload loop. -/
lemma afterUpload_of_md5From {r : Retry} {system : System} {result : RetryResult}
    (hmd5 : md5From response = some md5)
    (hnext : r.next c.realLocalPath (.performed system response) = some result) :
    afterUpload result = .storing md5 := by
  obtain ⟨t, hgo, ht⟩ := Option.bind_eq_some_iff.mp hmd5
  split_ifs at ht with hok
  obtain ⟨h200, -, -⟩ := md5ToStore_eq_some.mp ht
  rw [h200] at ht
  simp only [Retry.next, uploadFile, hgo, hok, if_true, h200] at hnext
  cases hnext
  simp only [afterUpload, ht]

/-- An event of the new steps is one of the old ones when they send nothing. -/
lemma put_old (hfs : ∀ c request response, .put c request response ∉ fs)
    (h : .put c request response ∈ es ++ fs) : .put c request response ∈ es := by
  rcases List.mem_append.mp h with hold | hnew
  · exact hold
  · exact absurd hnew (hfs c request response)

/-- The loop goes on. -/
lemma SentRows.goto (h : SentRows u files pfx es s) {failed : Bool} {pc : Dispatcher}
    (hrun : s.pc.running = true) (hfs : ∀ c request response, .put c request response ∉ fs)
    (hfailed : s.failed = true → failed = true)
    (hpos : s.pc.position files.length ≤ pc.position files.length) :
    SentRows u files pfx (es ++ fs) { s with failed := failed, pc := pc } where
  job := by
    intro c request response hput
    obtain ⟨hjob, hlt⟩ := h.job c request response (put_old hfs hput)
    exact ⟨hjob.mono, lt_of_lt_of_le hlt hpos⟩
  account := by
    intro c request response md5 hsent
    have hold := h.account c request response md5
      ⟨put_old hfs hsent.put, hsent.built, hsent.answered⟩
    cases hold with
    | inFlight n w hslot hw => exact .inFlight n w hslot hw
    | stored hrow hslots => exact .stored hrow hslots
    | failed hf => exact .failed (hfailed hf)
    | ended he =>
        rcases he with he | he
        · rw [he] at hrun
          cases hrun
        · rw [he] at hrun
          cases hrun

/-- A thread moves: what was sent for other files is accounted for as before. -/
lemma SentAccount.move (h : SentAccount s c md5) (hplaced : Placed u files pfx es s)
    (hkeys : KeysDistinct u files) (hjob : Job u files pfx es c)
    {d : ThreadCommand} {v v' : Worker} {wa : WorkerAction} {conn : Db} {flag : Bool}
    (hslot : s.slots n = some (d, v)) (hmove : u.Move s.conn d v wa fs v' conn flag)
    (hmd5 : md5.length = 32) :
    SentAccount ({ s with conn := conn, failed := s.failed || flag }.setSlot n d v') c md5 := by
  cases h with
  | inFlight m w hm hw =>
      by_cases hmn : m = n
      · subst hmn
        rw [hslot] at hm
        obtain ⟨rfl, rfl⟩ := Prod.mk.inj (Option.some.inj hm)
        rcases hw with rfl | rfl
        · cases hmove with
          | stored _ fails =>
              refine .stored ?_ ?_
              · rw [State.setSlot_conn, Connection.view_update, AList.lookup_insert,
                  List.take_of_length_le hmd5.le]
              · intro k e w hk hindex
                rcases State.setSlot_slots_cases hk with ⟨-, -, rfl⟩ | ⟨hkm, hold⟩
                · rfl
                · exact absurd (hplaced.distinct k m e d w _ hold hslot hindex) hkm
          | notStored =>
              exact .inFlight m .failing (State.setSlot_slots_self m d .failing) (Or.inr rfl)
        · cases hmove with
          | flagged => exact .failed (by simp)
      · exact .inFlight m w ((State.setSlot_slots_of_ne hmn d v').trans hm) hw
  | stored hrow hslots =>
      have hindex : d.index ≠ c.index := by
        intro heq
        obtain rfl := hslots n d v hslot heq
        cases hmove
      obtain ⟨file, hfile, -, hpath⟩ := hjob.file
      obtain ⟨file', hfile', -, hpath'⟩ := (hplaced.job n d v hslot).2.2.file
      have hne : c.path ≠ d.path := by
        intro heq
        rw [hpath, hpath'] at heq
        exact hindex (hkeys _ _ _ _ hfile' hfile heq.symm)
      refine .stored ?_ ?_
      · cases hmove with
        | stored =>
            rw [State.setSlot_conn, Connection.view_update, AList.lookup_insert_ne hne]
            exact hrow
        | _ => exact hrow
      · intro k e w hk he
        rcases State.setSlot_slots_cases hk with ⟨-, rfl, -⟩ | ⟨-, hold⟩
        · exact absurd he hindex
        · exact hslots k e w hold he
  | failed hf => exact .failed (by simp [hf])
  | ended he => exact .ended he

/-- **A step keeps the account of what was sent.** -/
theorem SentRows.transition (h : SentRows u files pfx es s) (hplaced : Placed u files pfx es s)
    (hkeys : KeysDistinct u files) (ht : u.Transition files pfx s a fs s') :
    SentRows u files pfx (es ++ fs) s' := by
  cases ht with
  | more i hpc | skipped i _ _ hpc | stated i _ _ hpc | lookupFailed i _ _ _ hpc
  | upToDate i _ _ _ hpc | outdated i _ _ _ hpc =>
      refine h.goto (by rw [hpc]; rfl) (by simp) (fun hf => by simp [hf]) ?_
      simp [hpc, Dispatcher.position, command]
  | done i hpc hi | joined hpc | notCreated _ _ hpc =>
      refine h.goto (by rw [hpc]; rfl) (by simp) id ?_
      have hle := hplaced.position_le
      simpa [Dispatcher.position] using hle
  | lost n d v wa fs hrun hslot hlost =>
      refine ⟨?_, fun _ _ _ _ _ => .ended (Or.inr rfl)⟩
      intro c request response hput
      have hjob : Job u files pfx es c := by
        rcases List.mem_append.mp hput with hold | hnew
        · exact (h.job c request response hold).1
        · have hd : c = d := by
            cases hlost <;> simp at hnew
            exact hnew.1
          exact hd ▸ (hplaced.job n d v hslot).2.2
      exact ⟨hjob.mono, hjob.index_lt⟩
  | dispatched n d hpc hn hfree =>
      have hposition : s.pc.position files.length = d.index := by
        rw [hpc]
        rfl
      refine ⟨?_, ?_⟩
      · intro c request response hput
        rw [List.append_nil] at hput
        obtain ⟨hjob, hlt⟩ := h.job c request response hput
        rw [hposition] at hlt
        exact ⟨hjob.mono, Nat.lt_succ_of_lt hlt⟩
      · intro c request response md5 hsent
        rw [List.append_nil] at hsent
        have hlt := (h.job c request response hsent.put).2
        rw [hposition] at hlt
        cases h.account c request response md5 hsent with
        | inFlight m w hm hw =>
            have hmn : m ≠ n := by
              rintro rfl
              rw [hfree] at hm
              cases hm
            exact .inFlight m w ((State.setSlot_slots_of_ne hmn d _).trans hm) hw
        | stored hrow hslots =>
            refine .stored hrow ?_
            intro k e w hk he
            rcases State.setSlot_slots_cases hk with ⟨-, rfl, -⟩ | ⟨-, hold⟩
            · omega
            · exact hslots k e w hold he
        | failed hf => exact .failed hf
        | ended he =>
            rw [hpc] at he
            rcases he with he | he <;> cases he
  | freed n d hrun hslot =>
      refine ⟨?_, ?_⟩
      · intro c request response hput
        rw [List.append_nil] at hput
        obtain ⟨hjob, hlt⟩ := h.job c request response hput
        exact ⟨hjob.mono, hlt⟩
      · intro c request response md5 hsent
        rw [List.append_nil] at hsent
        cases h.account c request response md5 hsent with
        | inFlight m w hm hw =>
            have hmn : m ≠ n := by
              rintro rfl
              rw [hslot] at hm
              obtain ⟨-, rfl⟩ := Prod.mk.inj (Option.some.inj hm)
              rcases hw with hw | hw <;> cases hw
            exact .inFlight m w ((State.markFree_slots_of_ne hmn).trans hm) hw
        | stored hrow hslots =>
            refine .stored hrow ?_
            intro k e w hk he
            exact hslots k e w (State.markFree_slots hk).2 he
        | failed hf => exact .failed hf
        | ended he => exact .ended he
  | move n d v v' wa fs conn flag hrun hslot hmove =>
      obtain ⟨-, hlt, hjob⟩ := hplaced.job n d v hslot
      -- a request among the new events is one of this thread
      have hnew : ∀ c request response, .put c request response ∈ fs → c = d ∧
          ∃ (r : Retry) (system : System) (result : RetryResult),
            r.next d.realLocalPath (.performed system response) = some result ∧
              v' = afterUpload result := by
        intro c request response hput
        cases hmove <;> simp at hput
        case put r system request' response' result hreq hnext =>
          obtain ⟨rfl, -, rfl⟩ := hput
          exact ⟨rfl, r, system, result, Retry.next_of_nextWithin hnext, rfl⟩
      refine ⟨?_, ?_⟩
      · intro c request response hput
        rcases List.mem_append.mp hput with hold | hput
        · obtain ⟨hjob', hlt'⟩ := h.job c request response hold
          exact ⟨hjob'.mono, hlt'⟩
        · obtain ⟨rfl, -⟩ := hnew c request response hput
          exact ⟨hjob.mono, hlt⟩
      · intro c request response md5 hsent
        rcases List.mem_append.mp hsent.put with hold | hput
        · exact (h.account c request response md5 ⟨hold, hsent.built, hsent.answered⟩).move
            hplaced hkeys (h.job c request response hold).1 hslot hmove
            (md5From_length hsent.answered)
        · obtain ⟨rfl, r, system, result, hnext, rfl⟩ := hnew c request response hput
          exact .inFlight n _ (State.setSlot_slots_self n c _)
            (Or.inl (afterUpload_of_md5From hsent.answered hnext))

/-- **The rows of the files that were sent.** -/
theorem sent_rows_run {conn₀ : Db} {ω : Type} {env : Environment ω Action Event} {x x' : ω}
    (hkeys : KeysDistinct u files) (hdry : u.dryRun = false) (hconn : conn₀.Settled)
    (h : Run (u.step files pfx) env { conn := conn₀ } x es s x')
    (hpc : s.pc = .returned true) (hsent : Sent u es c request response md5) :
    s.conn.committed.lookup c.path = some ⟨md5, c.fileInfo.mtime32.toUInt64⟩ := by
  have hrows : Placed u files pfx es s ∧ SentRows u files pfx es s := by
    refine h.invariant (I := fun es s _ => Placed u files pfx es s ∧ SentRows u files pfx es s)
      ⟨placed_start, by simp, fun _ _ _ _ hsent => by cases hsent.put⟩ ?_
    intro es t x a fs t' y hI hs _
    have ht := step_transition hs
    exact ⟨hI.1.transition ht, hI.2.transition hI.1 hkeys ht⟩
  obtain ⟨hsuccess, hslots⟩ := hrows.1.returned true hpc
  have hsettled : s.conn.Settled := (ledger_run hconn hkeys hdry h).2.settled
  cases hrows.2.account c request response md5 hsent with
  | inFlight n w hslot =>
      rw [hslots n] at hslot
      cases hslot
  | stored hrow => rwa [Connection.view_of_settled hsettled] at hrow
  | failed hfailed =>
      rw [hfailed] at hsuccess
      cases hsuccess
  | ended hended =>
      rw [hpc] at hended
      rcases hended with hended | hended <;> cases hended

end Uploader

end Clarc
