import Clarc.Upload.UnchangedTree

/-!
# Rows and the responses before them

A row should say that S3 has the object: a thread should store it only after the last request it
sent was answered with status 200.  Two places of the code let another answer pass:

* `updateMeta` succeeds whenever the transfer completes, whatever the status of the response;
* `go` takes a header text that begins with `HTTP/1.1 200 OK` for a response with status 200,
  whatever block follows.

`Truthful` says of a response that it does not reach these places.  `acknowledged_run`: in every run
whose responses are truthful, **a row is stored only after a last response with status 200**, the
rows of all other keys stay, and **a run in which the last response of some thread is another one
returns failure**.
-/

namespace Clarc

open Bytes Reactive Sqlite

namespace Uploader

variable {u : Uploader} {files : LocalFileList} {pfx : Bytes} {conn₀ : Db}
  {es fs : List Event} {s s' : State} {a : Action}

/-! ## The last response of a thread -/

/-- The response an event brings to the thread `c`. -/
def Event.responseTo (c : ThreadCommand) : Event → Option Response
  | .copy d _ response | .put d _ response => if d = c then some response else none
  | .stat _ _ _ | .read _ _ | .row _ _ => none

/-- The response to the last request that the thread `c` has sent. -/
def lastResponse (c : ThreadCommand) (es : List Event) : Option Response :=
  (es.filterMap (Event.responseTo c)).getLast?

/-- The last response of `c` completed with status 200. -/
def Acknowledged (c : ThreadCommand) (es : List Event) : Prop :=
  ∃ response, lastResponse c es = some response ∧ response.Completed200

/-- The thread an event is of, when it is a request or a row. -/
def Event.actor : Event → Option ThreadCommand
  | .copy c _ _ | .put c _ _ | .row c _ => some c
  | .stat _ _ _ | .read _ _ => none

lemma responseTo_eq_none {c : ThreadCommand} {e : Event} (h : e.actor ≠ some c) :
    e.responseTo c = none := by
  cases e <;> simp_all [Event.actor, Event.responseTo]

/-- Events of other threads do not change the last response. -/
lemma lastResponse_append_of_ne {c : ThreadCommand} (h : ∀ e ∈ fs, e.actor ≠ some c) :
    lastResponse c (es ++ fs) = lastResponse c es := by
  have hnone : fs.filterMap (Event.responseTo c) = [] := by
    rw [List.filterMap_eq_nil_iff]
    exact fun e he => responseTo_eq_none (h e he)
  rw [lastResponse, List.filterMap_append, hnone, List.append_nil, lastResponse]

/-- A thread without events has no last response. -/
lemma lastResponse_eq_none {c : ThreadCommand} (h : ∀ e ∈ es, e.actor ≠ some c) :
    lastResponse c es = none := by
  rw [← List.nil_append es, lastResponse_append_of_ne h]
  rfl

@[simp] lemma lastResponse_append_nil {c : ThreadCommand} :
    lastResponse c (es ++ []) = lastResponse c es := by
  rw [List.append_nil]

@[simp] lemma lastResponse_append_copy {c : ThreadCommand} {request : Request}
    {response : Response} :
    lastResponse c (es ++ [.copy c request response]) = some response := by
  simp [lastResponse, Event.responseTo]

@[simp] lemma lastResponse_append_put {c : ThreadCommand} {request : Request}
    {response : Response} :
    lastResponse c (es ++ [.put c request response]) = some response := by
  simp [lastResponse, Event.responseTo]

@[simp] lemma lastResponse_append_row {c d : ThreadCommand} {row : Row} :
    lastResponse c (es ++ [.row d row]) = lastResponse c es := by
  simp [lastResponse, Event.responseTo]

@[simp] lemma lastResponse_append_read {c d : ThreadCommand} {md5 : Option Bytes} :
    lastResponse c (es ++ [.read d md5]) = lastResponse c es := by
  simp [lastResponse, Event.responseTo]

/-! ## Truthful responses -/

/-- What the upload of a file would store after this response. -/
def md5From (response : Response) : Option Bytes :=
  response.go.bind fun t => if t.res = .ok then
    md5ToStore t.httpStatusCode (extractMD5FromETagHeaders (t.getHeader (ascii "etag")))
  else none

/-- The response, if the code accepts it, has status 200. -/
def Event.Truthful : Event → Prop
  | .copy _ _ response => response.code = .ok → response.responseCode = 200
  | .put _ _ response => (md5From response).isSome → response.responseCode = 200
  | .stat _ _ _ | .read _ _ | .row _ _ => True

instance (e : Event) : Decidable e.Truthful :=
  match e with
  | .copy _ _ response =>
      inferInstanceAs (Decidable (response.code = .ok → response.responseCode = 200))
  | .put _ _ response =>
      inferInstanceAs (Decidable ((md5From response).isSome → response.responseCode = 200))
  | .stat _ _ _ | .read _ _ | .row _ _ => inferInstanceAs (Decidable True)

/-- The events of a step are truthful. -/
def Truthful (_ : Action) (es : List Event) : Prop := ∀ e ∈ es, e.Truthful

instance (a : Action) (es : List Event) : Decidable (Truthful a es) :=
  inferInstanceAs (Decidable (∀ e ∈ es, e.Truthful))

/-! ## The invariant -/

/-- Where the threads stand between their responses and their rows. -/
structure Honest (files : LocalFileList) (conn₀ : Db) (es : List Event) (s : State) : Prop where
  old : ∀ e ∈ es, ∀ c, e.actor = some c → c.index < s.pc.position files.length
  unsent : ∀ n c w, s.pc.running = true → s.slots n = some (c, w) →
    (w = .checking ∨ w = .updatingMeta) → lastResponse c es = none
  storing : ∀ n c md5, s.pc.running = true → s.slots n = some (c, .storing md5) →
    Acknowledged c es
  unresolved : ∀ c response, lastResponse c es = some response → ¬ response.Completed200 →
    s.failed = true ∨ s.pc = .exited ∨ s.pc = .crashed ∨
      ∃ n w, s.slots n = some (c, w) ∧ (w = .failing ∨ ∃ r, w = .uploading r)
  rows : ∀ c row, .row c row ∈ es → Acknowledged c es ∧
    ∀ n w, s.slots n = some (c, w) → w = .finishing
  order : ∀ es₁ c row, es₁ ++ [.row c row] <+: es → Acknowledged c es₁
  table : ∀ key, (∀ c row, .row c row ∈ es → c.path ≠ key) →
    s.conn.view.lookup key = conn₀.view.lookup key

/-- An event of an extended history lies in the old part or in the new one. -/
lemma prefix_append_cases {e : Event} {es₁ : List Event} (h : es₁ ++ [e] <+: es ++ fs) :
    es₁ ++ [e] <+: es ∨ ∃ fs₁, fs₁ ++ [e] <+: fs ∧ es₁ = es ++ fs₁ := by
  obtain ⟨rest, hrest⟩ := h
  rcases List.append_eq_append_iff.mp hrest with ⟨mid, hes, -⟩ | ⟨mid, hmid, hfs⟩
  · exact Or.inl ⟨mid, hes.symm⟩
  · rcases List.eq_nil_or_concat mid with rfl | ⟨fs₁, e', rfl⟩
    · exact Or.inl ⟨[], by simpa using hmid⟩
    · rw [List.concat_eq_append, ← List.append_assoc] at hmid
      obtain ⟨hes, he⟩ := List.append_inj' hmid rfl
      obtain rfl := List.singleton_inj.mp he
      exact Or.inr ⟨fs₁, ⟨rest, by rw [hfs, List.concat_eq_append]⟩, hes⟩

/-- The loop goes on: no thread moves, and nothing is sent or stored. -/
lemma Honest.goto (h : Honest files conn₀ es s) {failed : Bool} {pc : Dispatcher}
    (hrun : s.pc.running = true) (hfs : ∀ e ∈ fs, e.actor = none)
    (hfailed : s.failed = true → failed = true)
    (hpos : s.pc.position files.length ≤ pc.position files.length) :
    Honest files conn₀ (es ++ fs) { s with failed := failed, pc := pc } := by
  have hlast : ∀ c, lastResponse c (es ++ fs) = lastResponse c es := fun c =>
    lastResponse_append_of_ne fun e he => by simp [hfs e he]
  have hrow : ∀ c row, .row c row ∈ es ++ fs → .row c row ∈ es := by
    intro c row hmem
    rcases List.mem_append.mp hmem with hmem | hmem
    · exact hmem
    · exact absurd (hfs _ hmem) (by simp [Event.actor])
  refine {
    old := ?_
    unsent := fun n c w _ hslot hw => (hlast c).trans (h.unsent n c w hrun hslot hw)
    storing := ?_
    unresolved := ?_
    rows := ?_
    order := ?_
    table := fun key hkey =>
      h.table key fun c row hmem => hkey c row (List.mem_append_left _ hmem) }
  · intro e he c hc
    rcases List.mem_append.mp he with he | he
    · exact lt_of_lt_of_le (h.old e he c hc) hpos
    · rw [hfs e he] at hc
      cases hc
  · intro n c md5 _ hslot
    obtain ⟨r, hr, h200⟩ := h.storing n c md5 hrun hslot
    exact ⟨r, (hlast c).trans hr, h200⟩
  · intro c r hr h200
    rw [hlast] at hr
    rcases h.unresolved c r hr h200 with hf | hpc | hpc | hslot
    · exact Or.inl (hfailed hf)
    · rw [hpc] at hrun
      cases hrun
    · rw [hpc] at hrun
      cases hrun
    · exact Or.inr (Or.inr (Or.inr hslot))
  · intro c row hmem
    obtain ⟨⟨r, hr, h200⟩, hslot⟩ := h.rows c row (hrow c row hmem)
    exact ⟨⟨r, (hlast c).trans hr, h200⟩, hslot⟩
  · intro es₁ c row hprefix
    rcases prefix_append_cases hprefix with hold | ⟨fs₁, hnew, rfl⟩
    · exact h.order es₁ c row hold
    · have hmem : .row c row ∈ fs := hnew.subset (by simp)
      exact absurd (hfs _ hmem) (by simp [Event.actor])

/-- A thread moves on, or ends the process: what is new concerns this thread only. -/
lemma Honest.thread (h : Honest files conn₀ es s) (hplaced : Placed u files pfx es s)
    {n : ℕ} {c : ThreadCommand} {w : Worker} (hrun : s.pc.running = true)
    (hslot : s.slots n = some (c, w)) (hw : w ≠ .finishing)
    (hpos : s.pc.position files.length ≤ s'.pc.position files.length)
    (hfs : ∀ e ∈ fs, e.actor = none ∨ e.actor = some c)
    (hfailed : s.failed = true → s'.failed = true)
    (hslots : ∀ m, m ≠ n → s'.slots m = s.slots m)
    (hself : ∀ d v, s'.slots n = some (d, v) → d = c)
    (hunsent : ∀ v, s'.pc.running = true → s'.slots n = some (c, v) →
      (v = .checking ∨ v = .updatingMeta) → lastResponse c (es ++ fs) = none)
    (hstoring : ∀ md5, s'.pc.running = true → s'.slots n = some (c, .storing md5) →
      Acknowledged c (es ++ fs))
    (hunresolved : ∀ r, lastResponse c (es ++ fs) = some r → ¬ r.Completed200 →
      s'.failed = true ∨ s'.pc = .exited ∨ s'.pc = .crashed ∨
        ∃ v, s'.slots n = some (c, v) ∧ (v = .failing ∨ ∃ r, v = .uploading r))
    (hrow : ∀ row, .row c row ∈ fs → Acknowledged c es ∧ Acknowledged c (es ++ fs) ∧
      fs = [.row c row] ∧ s'.slots n = some (c, .finishing))
    (htable : ∀ key, (∀ row, .row c row ∈ fs → c.path ≠ key) →
      s'.conn.view.lookup key = s.conn.view.lookup key) :
    Honest files conn₀ (es ++ fs) s' := by
  have hlast : ∀ d, d ≠ c → lastResponse d (es ++ fs) = lastResponse d es := by
    intro d hd
    refine lastResponse_append_of_ne fun e he => ?_
    rcases hfs e he with hnone | hsome
    · simp [hnone]
    · rw [hsome]
      exact fun heq => hd (Option.some.inj heq).symm
  -- another slot holds another thread
  have hother : ∀ m d v, m ≠ n → s.slots m = some (d, v) → d ≠ c := by
    rintro m d v hm hmslot rfl
    exact hm (hplaced.distinct m n d d v w hmslot hslot rfl)
  have hactor : ∀ d row, .row d row ∈ fs → d = c := by
    intro d row hmem
    rcases hfs _ hmem with hnone | hsome
    · cases hnone
    · exact Option.some.inj hsome
  -- a thread that still works has stored nothing
  have hnorow : ∀ row, .row c row ∉ es := fun row hmem => hw ((h.rows c row hmem).2 n w hslot)
  refine {
    old := ?_
    unsent := ?_
    storing := ?_
    unresolved := ?_
    rows := ?_
    order := ?_
    table := ?_ }
  · intro e he d hd
    rcases List.mem_append.mp he with he | he
    · exact lt_of_lt_of_le (h.old e he d hd) hpos
    · rcases hfs e he with hnone | hsome
      · rw [hnone] at hd
        cases hd
      · obtain rfl := Option.some.inj (hsome.symm.trans hd)
        exact lt_of_lt_of_le (hplaced.job n _ w hslot).2.1 hpos
  · intro m d v hrun' hm hv
    by_cases hmn : m = n
    · subst hmn
      obtain rfl := hself d v hm
      exact hunsent v hrun' hm hv
    · rw [hslots m hmn] at hm
      rw [hlast d (hother m d v hmn hm)]
      exact h.unsent m d v hrun hm hv
  · intro m d md5 hrun' hm
    by_cases hmn : m = n
    · subst hmn
      obtain rfl := hself d _ hm
      exact hstoring md5 hrun' hm
    · rw [hslots m hmn] at hm
      obtain ⟨r, hr, h200⟩ := h.storing m d md5 hrun hm
      exact ⟨r, (hlast d (hother m d _ hmn hm)).trans hr, h200⟩
  · intro d r hr h200
    by_cases hd : d = c
    · subst hd
      rcases hunresolved r hr h200 with hf | hpc | hpc | ⟨v, hv⟩
      · exact Or.inl hf
      · exact Or.inr (Or.inl hpc)
      · exact Or.inr (Or.inr (Or.inl hpc))
      · exact Or.inr (Or.inr (Or.inr ⟨n, v, hv⟩))
    · rw [hlast d hd] at hr
      rcases h.unresolved d r hr h200 with hf | hpc | hpc | ⟨m, v, hm, hv⟩
      · exact Or.inl (hfailed hf)
      · rw [hpc] at hrun
        cases hrun
      · rw [hpc] at hrun
        cases hrun
      · have hmn : m ≠ n := by
          rintro rfl
          rw [hslot] at hm
          cases hm
          exact hd rfl
        exact Or.inr (Or.inr (Or.inr ⟨m, v, (hslots m hmn).trans hm, hv⟩))
  · intro d row hmem
    rcases List.mem_append.mp hmem with hmem | hmem
    · have hd : d ≠ c := by
        rintro rfl
        exact hnorow row hmem
      obtain ⟨⟨r, hr, h200⟩, hdone⟩ := h.rows d row hmem
      refine ⟨⟨r, (hlast d hd).trans hr, h200⟩, ?_⟩
      intro m v hm
      by_cases hmn : m = n
      · subst hmn
        exact absurd (hself d v hm) hd
      · exact hdone m v (hslots m hmn ▸ hm)
    · obtain rfl := hactor d row hmem
      obtain ⟨-, hack, -, hfin⟩ := hrow row hmem
      refine ⟨hack, ?_⟩
      intro m v hm
      by_cases hmn : m = n
      · subst hmn
        rw [hfin] at hm
        cases hm
        rfl
      · rw [hslots m hmn] at hm
        exact absurd rfl (hother m d v hmn hm)
  · intro es₁ d row hprefix
    rcases prefix_append_cases hprefix with hold | ⟨fs₁, hnew, rfl⟩
    · exact h.order es₁ d row hold
    · have hmem : .row d row ∈ fs := hnew.subset (by simp)
      obtain rfl := hactor d row hmem
      obtain ⟨hack, -, hone, -⟩ := hrow row hmem
      rw [hone] at hnew
      have hnil : fs₁ = [] := by
        have hlen := hnew.length_le
        simp only [List.length_append, List.length_singleton] at hlen
        exact List.length_eq_zero_iff.mp (by omega)
      rw [hnil, List.append_nil]
      exact hack
  · intro key hkey
    refine (htable key ?_).trans (h.table key ?_)
    · exact fun row hmem => hkey c row (List.mem_append_right _ hmem)
    · exact fun d row hmem => hkey d row (List.mem_append_left _ hmem)

/-- A response that leads the upload loop to a row completed, and has the md5 of the row. -/
lemma md5From_of_put {c : ThreadCommand} {r : Retry} {system : System} {response : Response}
    {result : RetryResult} {md5 : Bytes}
    (hnext : r.next c.realLocalPath (.performed system response) = some result)
    (hresult : afterUpload result = .storing md5) :
    response.code = .ok ∧ md5From response = some md5 := by
  rcases result with r' | ⟨status, m⟩ | _
  · cases hresult
  · obtain ⟨_, _, t, ha, hgo, hok, hstatus, hmd5⟩ := Retry.next_success hnext
    cases ha
    rcases hstore : md5ToStore status m with _ | m'
    · simp [afterUpload, hstore] at hresult
    · obtain ⟨h200, -, -⟩ := md5ToStore_eq_some.mp hstore
      have hm : m' = md5 := by simpa [afterUpload, hstore] using hresult
      refine ⟨(go_res hgo).symm.trans hok, ?_⟩
      simp only [md5From, hgo, Option.bind_some, hok, if_true, hstatus, ← hmd5 h200, hstore, hm]
  · cases hresult

/-- If it is truthful, it is a completed 200. -/
lemma completed200_of_put {c : ThreadCommand} {r : Retry} {request : Request}
    {system : System} {response : Response} {result : RetryResult} {md5 : Bytes}
    (htrue : (Event.put c request response).Truthful)
    (hnext : r.next c.realLocalPath (.performed system response) = some result)
    (hresult : afterUpload result = .storing md5) : response.Completed200 := by
  obtain ⟨hok, hfrom⟩ := md5From_of_put hnext hresult
  exact ⟨hok, htrue (by rw [hfrom]; rfl)⟩

/-- An attempt that sends nothing leads to no row. -/
lemma afterUpload_notPut {c : ThreadCommand} {r : Retry} {attempt : Attempt}
    {result : RetryResult} (md5 : Bytes)
    (hsend : ∀ system response, attempt ≠ .performed system response)
    (hnext : r.next c.realLocalPath attempt = some result) :
    afterUpload result ≠ .storing md5 := by
  rcases result with r' | ⟨status, m⟩ | _
  · simp [afterUpload]
  · obtain ⟨_, _, _, ha, -⟩ := Retry.next_success hnext
    exact absurd ha (hsend _ _)
  · simp [afterUpload]

/-- A new thread has sent nothing yet. -/
lemma Honest.dispatched (h : Honest files conn₀ es s)
    {n : ℕ} {c : ThreadCommand} (hpc : s.pc = .sleeping c) (hfree : s.slots n = none) :
    Honest files conn₀ (es ++ [])
      ((s.setSlot n c (u.enter c)).goto (.top (c.index + 1))) := by
  have hpos : s.pc.position files.length = c.index := by rw [hpc]; rfl
  have hrun : s.pc.running = true := by rw [hpc]; rfl
  have hfresh : ∀ e ∈ es, e.actor ≠ some c := by
    intro e he hc
    have hlt := h.old e he c hc
    omega
  have hnone : lastResponse c es = none := lastResponse_eq_none hfresh
  have henter : u.enter c = .checking ∨ u.enter c = .uploading {} ∨ u.enter c = .finishing := by
    rcases u.enter_cases c with ⟨h, -⟩ | ⟨h, -⟩ | ⟨h, -⟩ <;> simp [h]
  simp only [List.append_nil]
  refine {
    old := ?_
    unsent := ?_
    storing := ?_
    unresolved := ?_
    rows := ?_
    order := h.order
    table := h.table }
  · intro e he d hd
    have hlt := h.old e he d hd
    show d.index < c.index + 1
    omega
  · intro m d v _ hm hv
    rcases State.setSlot_slots_cases hm with ⟨rfl, rfl, rfl⟩ | ⟨_, hold⟩
    · exact hnone
    · exact h.unsent m d v hrun hold hv
  · intro m d md5 _ hm
    rcases State.setSlot_slots_cases hm with ⟨rfl, rfl, hw⟩ | ⟨_, hold⟩
    · rcases henter with hd | hd | hd <;> rw [hd] at hw <;> cases hw
    · exact h.storing m d md5 hrun hold
  · intro d r hr h200
    rcases h.unresolved d r hr h200 with hf | hpc' | hpc' | ⟨m, v, hm, hv⟩
    · exact Or.inl hf
    · rw [hpc] at hpc'
      cases hpc'
    · rw [hpc] at hpc'
      cases hpc'
    · have hmn : m ≠ n := by
        rintro rfl
        rw [hfree] at hm
        cases hm
      exact Or.inr (Or.inr (Or.inr ⟨m, v, (State.setSlot_slots_of_ne hmn _ _).trans hm, hv⟩))
  · intro d row hmem
    obtain ⟨hack, hdone⟩ := h.rows d row hmem
    refine ⟨hack, ?_⟩
    intro m v hm
    rcases State.setSlot_slots_cases hm with ⟨rfl, rfl, rfl⟩ | ⟨_, hold⟩
    · exact absurd rfl (hfresh _ hmem)
    · exact hdone m v hold

/-- A slot is freed. -/
lemma Honest.freed (h : Honest files conn₀ es s) {n : ℕ} {c : ThreadCommand}
    (hslot : s.slots n = some (c, .finishing)) :
    Honest files conn₀ (es ++ []) (s.markFree n) := by
  simp only [List.append_nil]
  refine {
    old := h.old
    unsent := fun m d v hrun hm => h.unsent m d v hrun (State.markFree_slots hm).2
    storing := fun m d md5 hrun hm => h.storing m d md5 hrun (State.markFree_slots hm).2
    unresolved := ?_
    rows := ?_
    order := h.order
    table := h.table }
  · intro d r hr h200
    rcases h.unresolved d r hr h200 with hf | hpc | hpc | ⟨m, v, hm, hv⟩
    · exact Or.inl hf
    · exact Or.inr (Or.inl hpc)
    · exact Or.inr (Or.inr (Or.inl hpc))
    · have hmn : m ≠ n := by
        rintro rfl
        rw [hslot] at hm
        cases hm
        rcases hv with hv | ⟨r, hv⟩ <;> cases hv
      exact Or.inr (Or.inr (Or.inr ⟨m, v, (State.markFree_slots_of_ne hmn).trans hm, hv⟩))
  · intro d row hmem
    obtain ⟨hack, hdone⟩ := h.rows d row hmem
    exact ⟨hack, fun m v hm => hdone m v (State.markFree_slots hm).2⟩

/-- A thread that moves and stores nothing. -/
lemma Honest.unstored (h : Honest files conn₀ es s) (hplaced : Placed u files pfx es s)
    {n : ℕ} {c : ThreadCommand} {w w' : Worker} {failed : Bool} (hrun : s.pc.running = true)
    (hslot : s.slots n = some (c, w)) (hw : w ≠ .finishing)
    (hfs : ∀ e ∈ fs, e.actor = none ∨ e.actor = some c)
    (hrow : ∀ row, .row c row ∉ fs) (hfailed : s.failed = true → failed = true)
    (hunsent : (w' = .checking ∨ w' = .updatingMeta) → lastResponse c (es ++ fs) = none)
    (hstoring : ∀ md5, w' = .storing md5 → Acknowledged c (es ++ fs))
    (hunresolved : ∀ r, lastResponse c (es ++ fs) = some r → ¬ r.Completed200 →
      failed = true ∨ w' = .failing ∨ ∃ r, w' = .uploading r) :
    Honest files conn₀ (es ++ fs) ({ s with failed := failed }.setSlot n c w') := by
  refine h.thread hplaced hrun hslot hw le_rfl hfs hfailed
    (fun m hm => State.setSlot_slots_of_ne hm c w') ?_ ?_ ?_ ?_
    (fun row hmem => absurd hmem (hrow row)) (fun _ _ => rfl)
  · intro d v hm
    rw [State.setSlot_slots_self] at hm
    cases hm
    rfl
  · intro v _ hm hv
    rw [State.setSlot_slots_self] at hm
    cases hm
    exact hunsent hv
  · intro md5 _ hm
    rw [State.setSlot_slots_self] at hm
    cases hm
    exact hstoring md5 rfl
  · intro r hr h200
    rcases hunresolved r hr h200 with hf | hv
    · exact Or.inl hf
    · exact Or.inr (Or.inr (Or.inr ⟨w', State.setSlot_slots_self n c w', hv⟩))

/-- **A step with truthful responses keeps the threads honest.** -/
theorem Honest.transition (h : Honest files conn₀ es s) (hplaced : Placed u files pfx es s)
    (ht : u.Transition files pfx s a fs s') (htrue : Truthful a fs) :
    Honest files conn₀ (es ++ fs) s' := by
  have hle := hplaced.position_le
  cases ht with
  | more i hpc hfailed hi =>
      exact h.goto (by rw [hpc]; rfl) (by simp) id (by simp [hpc, Dispatcher.position])
  | done i hpc hend => exact h.goto (by rw [hpc]; rfl) (by simp) id hle
  | skipped i file answer hpc hfile hskip =>
      exact h.goto (by rw [hpc]; rfl) (by simp [Event.actor]) id
        (by simp [hpc, Dispatcher.position])
  | stated i file fileInfo hpc hfile hsize =>
      exact h.goto (by rw [hpc]; rfl) (by simp [Event.actor]) id
        (by simp [hpc, Dispatcher.position])
  | lookupFailed i fileInfo file fails hpc hfile hfails =>
      exact h.goto (by rw [hpc]; rfl) (by simp) (fun _ => rfl)
        (by simp [hpc, Dispatcher.position])
  | upToDate i fileInfo file fails hpc hfile hsame =>
      exact h.goto (by rw [hpc]; rfl) (by simp) id (by simp [hpc, Dispatcher.position])
  | outdated i fileInfo file fails hpc hfile hrow =>
      exact h.goto (by rw [hpc]; rfl) (by simp) id
        (by simp [hpc, Dispatcher.position, command])
  | dispatched n c hpc hn hfree => exact h.dispatched hpc hfree
  | notCreated n c hpc => exact h.goto (by rw [hpc]; rfl) (by simp) id hle
  | joined hpc hfree => exact h.goto (by rw [hpc]; rfl) (by simp) id hle
  | freed n c hrun hslot => exact h.freed hslot
  | lost n c w wa fs hrun hslot hlost =>
      have hw : w ≠ .finishing := by
        rintro rfl
        cases hlost
      refine h.thread hplaced hrun hslot hw hle ?_ id (fun _ _ => rfl)
        ?_ ?_ ?_ (fun _ _ _ => Or.inr (Or.inr (Or.inl rfl))) ?_ (fun _ _ => rfl)
      · cases hlost <;> simp [Event.actor]
      · intro d v hm
        change s.slots n = _ at hm
        rw [hslot] at hm
        cases hm
        rfl
      · intro v hrun'
        cases hrun'
      · intro md5 hrun'
        cases hrun'
      · intro row hmem
        cases hlost <;> simp at hmem
  | move n c w w' wa fs conn flag hrun hslot hmove =>
      have hunsent := h.unsent n c w hrun hslot
      cases hmove with
      | same hd =>
          refine h.unstored hplaced hrun hslot (by simp) (by simp [Event.actor]) (by simp)
            (by simp) ?_ (by simp) ?_
          · simpa using hunsent
          · simp [hunsent]
      | sameDry hd =>
          refine h.unstored hplaced hrun hslot (by simp) (by simp [Event.actor]) (by simp)
            (by simp) (by simp) (by simp) ?_
          simp [hunsent]
      | differs md5 hmd5 =>
          refine h.unstored hplaced hrun hslot (by simp) (by simp [Event.actor]) (by simp)
            (by simp) ?_ ?_ ?_
          · simp [hunsent]
          · intro m hm
            unfold startUpload at hm
            split_ifs at hm
          · simp [hunsent]
      | copied system request response t hreq hgo hok =>
          have h200 : response.Completed200 := by
            have hcode : response.code = .ok := (go_res hgo).symm.trans hok
            exact ⟨hcode, htrue _ List.mem_cons_self hcode⟩
          refine h.unstored hplaced hrun hslot (by simp) (by simp [Event.actor]) (by simp)
            (by simp) (by simp) ?_ ?_
          · intro md5 _
            exact ⟨response, by simp, h200⟩
          · intro r hr hr200
            rw [lastResponse_append_copy] at hr
            exact absurd (Option.some.inj hr ▸ h200) hr200
      | notCopied system request response t hreq hgo hok =>
          exact h.unstored hplaced hrun hslot (by simp) (by simp [Event.actor]) (by simp)
            (by simp) (by simp) (by simp) (by simp)
      | copyUnsigned system =>
          exact h.unstored hplaced hrun hslot (by simp) (by simp) (by simp)
            (by simp) (by simp) (by simp) (by simp)
      | put r system request response result hreq hnext =>
          have h200 : ∀ md5, afterUpload result = .storing md5 → response.Completed200 :=
            fun md5 hmd5 => completed200_of_put (htrue _ List.mem_cons_self)
              (Retry.next_of_nextWithin hnext) hmd5
          refine h.unstored hplaced hrun hslot (by simp) (by simp [Event.actor]) (by simp)
            (by simp) ?_ ?_ ?_
          · rcases afterUpload_cases result with ⟨r', hr'⟩ | ⟨md5, hmd5⟩ | hfail <;> simp_all
          · intro md5 hmd5
            exact ⟨response, by simp, h200 md5 hmd5⟩
          · intro r' hr' hr200
            rw [lastResponse_append_put] at hr'
            obtain rfl := Option.some.inj hr'
            rcases afterUpload_cases result with hup | ⟨md5, hmd5⟩ | hfail
            · exact Or.inr (Or.inr hup)
            · exact absurd (h200 md5 hmd5) hr200
            · exact Or.inr (Or.inl hfail)
      | notPut r attempt result hsend hopen hnext =>
          have hno := fun md5 => afterUpload_notPut md5 hsend (Retry.next_of_nextWithin hnext)
          refine h.unstored hplaced hrun hslot (by simp) (by simp) (by simp)
            (by simp) ?_ ?_ ?_
          · rcases afterUpload_cases result with ⟨r', hr'⟩ | ⟨md5, hmd5⟩ | hfail <;> simp_all
          · exact fun md5 hmd5 => absurd hmd5 (hno md5)
          · intro r' _ _
            rcases afterUpload_cases result with hup | ⟨md5, hmd5⟩ | hfail
            · exact Or.inr (Or.inr hup)
            · exact absurd hmd5 (hno md5)
            · exact Or.inr (Or.inl hfail)
      | stored md5 fails =>
          have hack : Acknowledged c es := h.storing n c md5 hrun hslot
          have hack' : Acknowledged c (es ++ [.row c ⟨md5.take 32,
              c.fileInfo.mtime32.toUInt64⟩]) := by
            simpa [Acknowledged] using hack
          refine h.thread hplaced hrun hslot (by simp) le_rfl (by simp [Event.actor])
            (by simp +contextual) (fun m hm => State.setSlot_slots_of_ne hm c _) ?_ ?_ ?_ ?_ ?_ ?_
          · intro d v hm
            rw [State.setSlot_slots_self] at hm
            cases hm
            rfl
          · intro v _ hm hv
            rw [State.setSlot_slots_self] at hm
            cases hm
            simp at hv
          · intro m _ hm
            rw [State.setSlot_slots_self] at hm
            cases hm
          · intro r hr h200
            obtain ⟨r', hr', h200'⟩ := hack'
            rw [hr] at hr'
            obtain rfl := Option.some.inj hr'
            exact absurd h200' h200
          · intro row hmem
            simp only [List.mem_singleton] at hmem
            exact ⟨hack, hack', by rw [hmem], State.setSlot_slots_self n c _⟩
          · intro key hkey
            have hne : key ≠ c.path := (hkey _ List.mem_cons_self).symm
            simp [AList.lookup_insert_ne hne]
      | notStored md5 fails hfails =>
          exact h.unstored hplaced hrun hslot (by simp) (by simp) (by simp)
            (by simp) (by simp) (by simp) (by simp)
      | flagged =>
          exact h.unstored hplaced hrun hslot (by simp) (by simp) (by simp)
            (by simp) (by simp) (by simp) (by simp)

/-! ## Every run with truthful responses -/

lemma honest_run
    (h : Run (u.step files pfx) (always Truthful) { conn := conn₀ } () es s ()) :
    Placed u files pfx es s ∧ Honest files conn₀ es s := by
  refine h.invariant
    (I := fun es s _ => Placed u files pfx es s ∧ Honest files conn₀ es s) ?_ ?_
  · refine ⟨placed_start, ?_⟩
    exact {
      old := by simp
      unsent := by simp
      storing := by simp
      unresolved := by simp [lastResponse]
      rows := by simp
      order := by simp
      table := fun _ _ => rfl }
  · intro es t x a fs t' y hI hs henv
    have ht := step_transition hs
    exact ⟨hI.1.transition ht, hI.2.transition hI.1 ht henv⟩

/-- **Rows and responses.**  In every run with truthful responses, in every state reached: a row is
stored only after the last response of its thread completed with status 200; a key none of whose
threads has such a last response keeps its row; and a run that has returned with another last
response in it has returned failure. -/
theorem acknowledged_run
    (h : Run (u.step files pfx) (always Truthful) { conn := conn₀ } () es s ()) :
    (∀ es₁ c row, es₁ ++ [.row c row] <+: es → Acknowledged c es₁) ∧
      (∀ key, (∀ c : ThreadCommand, c.path = key → ¬ Acknowledged c es) →
        s.conn.view.lookup key = conn₀.view.lookup key) ∧
      ∀ success, s.pc = .returned success →
        (∃ c response, lastResponse c es = some response ∧ ¬ response.Completed200) →
        success = false := by
  obtain ⟨hplaced, hhonest⟩ := honest_run h
  refine ⟨hhonest.order, ?_, ?_⟩
  · intro key hkey
    refine hhonest.table key fun c row hmem hpath => ?_
    exact hkey c hpath (hhonest.rows c row hmem).1
  · rintro success hpc ⟨c, response, hlast, h200⟩
    obtain ⟨hsuccess, hslots⟩ := hplaced.returned success hpc
    rcases hhonest.unresolved c response hlast h200 with hf | hend | hend | ⟨n, w, hslot, -⟩
    · rw [hsuccess, hf]
      rfl
    · rw [hpc] at hend
      cases hend
    · rw [hpc] at hend
      cases hend
    · rw [hslots n] at hslot
      cases hslot

theorem acknowledged_run_sample :
    ∃ es s, Run ((sampleUploader []).step [⟨ascii "/a", 3⟩] (ascii "/home"))
        (always Truthful) { conn := { committed := ∅ } } () es s () ∧ s.pc = .returned true ∧
      ∀ es₁ c row, es₁ ++ [.row c row] <+: es → Acknowledged c es₁ := by
  obtain ⟨es, s, hrun, hpc⟩ := run_of_exec
    ((sampleUploader []).step [⟨ascii "/a", 3⟩] (ascii "/home"))
    { conn := { committed := ∅ } } (sampleActions 1000) Truthful (fun _ s => s.pc = .returned true)
    (by decide)
  exact ⟨es, s, hrun, hpc, (acknowledged_run hrun).1⟩

/-- A refusal. -/
def forbidden : Response where
  code := .ok
  responseCode := 403
  headers := ascii "HTTP/1.1 403 Forbidden\r\nServer: AmazonS3\r\n\r\n"

/-- The file `/a`, newer than its row and with the same content, whose copy is refused. -/
def refusedActions : List Action :=
  [.check, .stat (some (sampleStat 1000)), .lookup noFaults, .dispatch 0 true,
    .worker 0 (.read (some (ascii "900150983cd24fb0d6963f7d28e17f72"))),
    .worker 0 (.updateMeta (.performed sampleSystem forbidden)), .worker 0 (.store noFaults),
    .worker 0 .markFree, .check, .join]

/-- A table with a row for the file `/a`. -/
def oldRow : Files :=
  (∅ : Files).insert (ascii "a") ⟨ascii "900150983cd24fb0d6963f7d28e17f72", 500⟩

/-- After a copy that was refused the row is renewed, and the run returns success. -/
theorem refused_copy_is_stored :
    ∃ es s, Run ((sampleUploader []).step [⟨ascii "/a", 3⟩] (ascii "/home")) anything
        { conn := { committed := oldRow } } () es s () ∧ s.pc = .returned true ∧
      (∃ c ∈ es.filterMap Event.actor, c.path = ascii "a" ∧
        (lastResponse c es).map Response.responseCode = some 403) ∧
      (oldRow.lookup (ascii "a")).map Row.mtime = some 500 ∧
      (s.conn.committed.lookup (ascii "a")).map Row.mtime = some 1000 := by
  obtain ⟨es, s, hrun, hpc, hlast, hrow⟩ := run_of_exec
    ((sampleUploader []).step [⟨ascii "/a", 3⟩] (ascii "/home"))
    { conn := { committed := oldRow } } refusedActions (fun _ _ => True)
    (fun es s => s.pc = .returned true ∧
      (∃ c ∈ es.filterMap Event.actor, c.path = ascii "a" ∧
        (lastResponse c es).map Response.responseCode = some 403) ∧
      (s.conn.committed.lookup (ascii "a")).map Row.mtime = some 1000) (by decide)
  exact ⟨es, s, hrun, hpc, hlast, by decide, hrow⟩

end Uploader

end Clarc
