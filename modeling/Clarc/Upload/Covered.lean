import Clarc.Upload.Acknowledged

/-!
# Which keys an upload run brings into the table

A row is new for a key only after a PUT for it: the other way to a row, the copy of an object onto
itself, is taken for files that have a row already.  `Covered` states this for an arbitrary set of
keys, which may grow from step to step, and asks of the set only that it takes in the keys of the
files whose PUT gave an md5.

* `Covered.transition` — **a step brings no key into the table that is not in the set.**
-/

namespace Clarc

open Bytes Reactive Sqlite

namespace Uploader

/-- Each thread, and the one that waits for a slot, has the key of a file of the list. -/
structure Keyed (u : Uploader) (files : LocalFileList) (s : State) : Prop where
  sleeping : ∀ c, s.pc = .sleeping c → ∃ file ∈ files, u.keyOf file = c.path
  slots : ∀ n c w, s.slots n = some (c, w) → ∃ file ∈ files, u.keyOf file = c.path

/-- The table and the threads that rely on a row of it, or are about to write one, have keys of the
set only. -/
structure Covered (K : Bytes → Prop) (s : State) : Prop where
  table : s.conn.Within K
  sleeping : ∀ c, s.pc = .sleeping c → c.shouldCheckMd5 = true → K c.path
  slots : ∀ n c w, s.slots n = some (c, w) →
    w = .checking ∨ w = .updatingMeta ∨ (∃ md5, w = .storing md5) → K c.path

variable {u : Uploader} {files : LocalFileList} {pfx : Bytes} {fs : List Event} {s s' : State}
  {a : Action} {K K' : Bytes → Prop}

lemma keyed_start {conn : Db} : Keyed u files { conn := conn } := ⟨by simp, by simp⟩

lemma covered_start {conn : Db} (h : conn.Within K) : Covered K { conn := conn } :=
  ⟨h, by simp, by simp⟩

/-- Who sends a PUT has a slot. -/
lemma Transition.put_slot (ht : u.Transition files pfx s a fs s') {c : ThreadCommand}
    {request : Request} {response : Response} (h : .put c request response ∈ fs) :
    ∃ n w, s.slots n = some (c, w) := by
  cases ht with
  | move n d v v' wa fs conn flag hrun hslot hmove =>
      cases hmove <;> simp at h
      obtain ⟨rfl, -⟩ := h
      exact ⟨n, _, hslot⟩
  | lost n d v wa fs hrun hslot hlost =>
      cases hlost <;> simp at h
      obtain ⟨rfl, -⟩ := h
      exact ⟨n, _, hslot⟩
  | _ => simp at h

theorem Keyed.transition (h : Keyed u files s) (ht : u.Transition files pfx s a fs s') :
    Keyed u files s' := by
  cases ht with
  | outdated i fileInfo file fails hpc hfile hold =>
      refine ⟨?_, h.slots⟩
      rintro c ⟨⟩
      exact ⟨file, List.mem_of_getElem? hfile, rfl⟩
  | dispatched n c hpc hn hfree =>
      refine ⟨by simp, ?_⟩
      intro m d w hm
      rcases State.setSlot_slots_cases hm with ⟨-, rfl, -⟩ | ⟨-, hold⟩
      · exact h.sleeping d hpc
      · exact h.slots m d w hold
  | move n c v v' wa fs conn flag hrun hslot hmove =>
      refine ⟨h.sleeping, ?_⟩
      intro m d w hm
      rcases State.setSlot_slots_cases hm with ⟨-, rfl, -⟩ | ⟨-, hold⟩
      · exact h.slots n d v hslot
      · exact h.slots m d w hold
  | freed n c hrun hslot =>
      refine ⟨h.sleeping, ?_⟩
      intro m d w hm
      exact h.slots m d w (State.markFree_slots hm).2
  | _ => exact ⟨by simp, h.slots⟩

/-- The loop goes on. -/
lemma Covered.goto (h : Covered K s) (hK : ∀ k, K k → K' k) {failed : Bool} {pc : Dispatcher}
    (hsleeping : ∀ c, pc = .sleeping c → c.shouldCheckMd5 = true → K' c.path) :
    Covered K' { s with failed := failed, pc := pc } where
  table := h.table.mono hK
  sleeping := hsleeping
  slots := fun n c w hslot hw => hK _ (h.slots n c w hslot hw)

/-- A thread goes on. -/
lemma Covered.setSlot (h : Covered K s) (hK : ∀ k, K k → K' k) {n : ℕ} {c : ThreadCommand}
    {w : Worker} {conn : Db} {failed : Bool} (hconn : conn.Within K')
    (hw : w = .checking ∨ w = .updatingMeta ∨ (∃ md5, w = .storing md5) → K' c.path) :
    Covered K' ({ s with conn := conn, failed := failed }.setSlot n c w) where
  table := hconn
  sleeping := fun d hpc hcheck => hK _ (h.sleeping d hpc hcheck)
  slots := by
    intro m d v hm hv
    rcases State.setSlot_slots_cases hm with ⟨-, rfl, rfl⟩ | ⟨-, hold⟩
    · exact hw hv
    · exact hK _ (h.slots m d v hold hv)

/-- A row with an mtime is there. -/
lemma key_of_row {conn : Db} (h : conn.Within K) {key : Bytes} (hrow : 0 < (rowOf conn key).2) :
    K key := by
  unfold rowOf at hrow
  split at hrow
  next row hlook =>
    refine h.view key (AList.lookup_isSome.mp ?_)
    rw [hlook]
    rfl
  · exact absurd hrow (by decide)

/-- **A step brings no key into the table that is not in the set.** -/
theorem Covered.transition (h : Covered K s) (ht : u.Transition files pfx s a fs s')
    (hK : ∀ k, K k → K' k)
    (hput : ∀ c request response, .put c request response ∈ fs → (md5From response).isSome →
      K' c.path) : Covered K' s' := by
  have hstart : ∀ c : ThreadCommand, u.startUpload = .checking ∨ u.startUpload = .updatingMeta ∨
      (∃ md5, u.startUpload = .storing md5) → K' c.path := by
    intro c hw
    unfold startUpload at hw
    split_ifs at hw <;> simp at hw
  cases ht with
  | outdated i fileInfo file fails hpc hfile hold =>
      refine h.goto hK ?_
      rintro c ⟨⟩ hcheck
      exact hK _ (key_of_row h.table (by simpa [command] using hcheck))
  | more | done | skipped | stated | lookupFailed | upToDate | notCreated | joined | lost =>
      exact h.goto hK (by simp)
  | dispatched n c hpc hn hfree =>
      have hslot : Covered K' ({ s with conn := s.conn, failed := s.failed }.setSlot n c
          (u.enter c)) := by
        refine h.setSlot hK (h.table.mono hK) ?_
        intro hw
        rcases u.enter_cases c with ⟨-, hcheck⟩ | ⟨henter, -⟩ | ⟨henter, -⟩
        · exact hK _ (h.sleeping c hpc hcheck)
        · simp [henter] at hw
        · simp [henter] at hw
      exact ⟨hslot.table, by simp, hslot.slots⟩
  | freed n c hrun hslot =>
      refine ⟨h.table.mono hK, fun d hpc hcheck => hK _ (h.sleeping d hpc hcheck), ?_⟩
      intro m d w hm hw
      exact hK _ (h.slots m d w (State.markFree_slots hm).2 hw)
  | move n c v v' wa fs conn flag hrun hslot hmove =>
      have hconn : s.conn.Within K' := h.table.mono hK
      cases hmove with
      | same | copied | notStored =>
          exact h.setSlot hK hconn fun _ => hK _ (h.slots n c _ hslot (by simp))
      | sameDry | notCopied | copyUnsigned | flagged => exact h.setSlot hK hconn (by simp)
      | differs => exact h.setSlot hK hconn (hstart c)
      | put r system request response result hreq hnext =>
          refine h.setSlot hK hconn ?_
          rcases afterUpload_cases result with ⟨r', hw⟩ | ⟨md5, hw⟩ | hw
          · simp [hw]
          · intro _
            refine hput c request response (List.mem_singleton_self _) ?_
            rw [(md5From_of_put (Retry.next_of_nextWithin hnext) hw).2]
            rfl
          · simp [hw]
      | notPut r attempt result hsend hopen hnext =>
          refine h.setSlot hK hconn ?_
          rcases afterUpload_cases result with ⟨r', hw⟩ | ⟨md5, hw⟩ | hw
          · simp [hw]
          · exact absurd hw (afterUpload_notPut md5 hsend (Retry.next_of_nextWithin hnext))
          · simp [hw]
      | stored md5 fails =>
          have hkey : K' c.path := hK _ (h.slots n c _ hslot (by simp))
          exact h.setSlot hK (hconn.update_insert hkey _) (by simp)

end Uploader

end Clarc
