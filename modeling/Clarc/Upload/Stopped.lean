import Clarc.Upload.Editing

/-!
# Runs that fail or are stopped

Between a PUT and the row that belongs to it the process can be killed, the statement can fail, or
the response can get lost: the bucket then has a content that the row knows nothing of.  The row is
still an old one, so the next run looks at the file again.  It compares the md5 of the file with the
one in the row, and if they are equal it sends no content.

A `History` is a world that remembers the contents each key of the bucket has had.  In it anything
may fail (`Faces`): statements, requests, the reading of a file, the creation of a thread; the
server may store what it answers with an error, or answer with a redirect; and a run may be killed
after any of its steps (`stoppableStep`).  What is asked of the server is that a completed response
of status 200 tells the truth.

* `Sound` is what a row still says: it is right about the mtime and right about the md5, each for
  itself, as long as no write brings back a content that the bucket has had;
* `sound_run` — **no failure and no kill takes that away**;
* `backed_up_after_stops` — so a run that returns success, however many were stopped before it,
  leaves **the present content of every listed file in the bucket**, but for files whose `lstat`
  failed;
* `reverted_edit_lost` — where a write does bring such a content back, it may not.
-/

namespace Clarc

open Bytes Reactive Sqlite

namespace Uploader

/-! ## The world -/

variable {backend : Backend}

/-- A world, and the contents that each key has had. -/
structure History (backend : Backend) extends World backend where
  had : Bytes → Set Bytes
  mem_had : ∀ key b, bucket key = some b → b ∈ had key

/-- The object of a key is replaced. -/
def History.put (w : History backend) (key b : Bytes) : History backend where
  files := w.files
  bucket := Function.update w.bucket key (some b)
  had := Function.update w.had key (insert b (w.had key))
  mem_had := by
    intro k b' hb
    by_cases hk : k = key
    · subst hk
      rw [Function.update_self] at hb ⊢
      exact Set.mem_insert_iff.mpr (Or.inl (Option.some.inj hb).symm)
    · rw [Function.update_of_ne hk] at hb ⊢
      exact w.mem_had k b' hb

/-- A file is replaced. -/
def History.write (w : History backend) (path : Bytes) (f : LocalCopy backend.occurring) :
    History backend :=
  { w with files := Function.update w.files path f }

section
variable {w : History backend} {path key b : Bytes} {f : LocalCopy backend.occurring}

@[simp] lemma History.put_bucket_self : (w.put key b).bucket key = some b := by
  simp [put]

lemma History.put_bucket_of_ne {k : Bytes} (h : k ≠ key) :
    (w.put key b).bucket k = w.bucket k := by
  simp [put, Function.update_of_ne h]

lemma History.mem_had_put {k b' : Bytes} :
    b' ∈ (w.put key b).had k ↔ (k = key ∧ b' = b) ∨ b' ∈ w.had k := by
  by_cases hk : k = key
  · subst hk
    simp [put]
  · simp [put, hk]

@[simp] lemma History.write_files_self : (w.write path f).files path = f := by
  simp [write]

lemma History.write_files_of_ne {p : Bytes} (h : p ≠ path) :
    (w.write path f).files p = w.files p := by
  simp [write, Function.update_of_ne h]

end

/-- A completed response of status 200 is about the content that was stored. -/
def Confirms (backend : Backend) (response : Response) (b : Bytes) : Prop :=
  ∀ t, response.go = some t → t.res = .ok → t.httpStatusCode = 200 →
    ∀ etag, t.getHeader (ascii "etag") = some etag →
      etag = ascii "\"" ++ backend.md5 b ++ ascii "\""

/-- A response that is none of status 200. -/
def Unaccepted (response : Response) : Prop :=
  ∀ t, response.go = some t → t.res = .ok → t.httpStatusCode ≠ 200

/-- How the world answers a step of a run and is changed by it, whatever fails. -/
inductive Faces (w : History backend) : Action → List Event → History backend → Prop
  | check : Faces w .check [] w
  | stat (i : ℕ) (path : Bytes) (fileInfo : Stat) (h : (w.files path).Stats fileInfo) :
      Faces w (.stat (some fileInfo)) [.stat i path (some fileInfo)] w
  | notStated (i : ℕ) (path : Bytes) : Faces w (.stat none) [.stat i path none] w
  | lookup (fails : Faults) : Faces w (.lookup fails) [] w
  | dispatch (n : ℕ) (created : Bool) : Faces w (.dispatch n created) [] w
  | join : Faces w .join [] w
  | read (n : ℕ) (c : ThreadCommand) :
      Faces w (.worker n (.read (some (backend.md5 (w.files c.realLocalPath).content))))
        [.read c (some (backend.md5 (w.files c.realLocalPath).content))] w
  | notRead (n : ℕ) (c : ThreadCommand) : Faces w (.worker n (.read none)) [.read c none] w
  | copy (n : ℕ) (attempt : Attempt) (es : List Event) :
      Faces w (.worker n (.updateMeta attempt)) es w
  | notSent (n : ℕ) (attempt : Attempt) : Faces w (.worker n (.upload attempt)) [] w
  | put (n : ℕ) (c : ThreadCommand) (system : System) (request : Request) (response : Response)
      (b : Bytes) (hb : b = (w.files c.realLocalPath).content.take c.fileInfo.size)
      (hmem : b ∈ backend.occurring) (htrue : Confirms backend response b) :
      Faces w (.worker n (.upload (.performed system response))) [.put c request response]
        (w.put c.path b)
  | refused (n : ℕ) (c : ThreadCommand) (system : System) (request : Request)
      (response : Response) (h : Unaccepted response) :
      Faces w (.worker n (.upload (.performed system response))) [.put c request response] w
  | store (n : ℕ) (fails : Faults) (es : List Event) : Faces w (.worker n (.store fails)) es w
  | fail (n : ℕ) : Faces w (.worker n .fail) [] w
  | markFree (n : ℕ) : Faces w (.worker n .markFree) [] w

/-! ## Sessions -/

/-- The connection of a session, whether a run is going on or not. -/
def Session.connection (s : Session) : Db :=
  match s.run with
  | none => s.conn
  | some (_, t) => t.conn

variable (u : Uploader) (pfx : Bytes)

/-- A step of a session, or the end of its process: the next one opens the database anew. -/
def stoppableStep : Process Session (Option SessionAction) Event := fun s a =>
  match a with
  | some a => sessionStep u pfx s a
  | none => some ({ conn := { committed := s.connection.committed } }, [])

/-- The content has not been in the bucket, under the key of the file. -/
def Unsent (w : History backend) (path content : Bytes) : Prop :=
  ∀ relative, createRealLocalPath pfx relative = path → content ∉ w.had (u.remotePath relative)

/-- The world of such a session: a write gives a fresh mtime, and a content that was not sent. -/
inductive Befalls (w : History backend) :
    Option SessionAction → List Event → History backend → Prop
  | start (files : LocalFileList) (hnodup : files.paths.Nodup) (hrooted : files.Rooted) :
      Befalls w (some (.start files)) [] w
  | step (a : Action) (es : List Event) (w' : History backend) (h : Faces w a es w') :
      Befalls w (some (.step a)) es w'
  | finish : Befalls w (some .finish) [] w
  | write (path content : Bytes) (mtime : Int64) (f : LocalCopy backend.occurring)
      (h : Writes (w.files path) content mtime f) (hnew : Unsent u pfx w path content) :
      Befalls w (some (.write path content mtime)) [] (w.write path f)
  | stop : Befalls w none [] w

/-! ## What a row still says -/

/-- A row was stored for a content the bucket has had.  If its mtime is the present one, or its md5
that of the present content, the bucket has the present content. -/
structure Tells (w : History backend) (path key : Bytes) (row : Row) : Prop where
  recorded : ∃ mtime, Recorded (w.files path) row.mtime mtime
  stored : ∃ b ∈ w.had key, b ∈ backend.occurring ∧ backend.md5 b = row.md5
  mtime : (w.files path).mtime.toUInt64 = row.mtime →
    w.bucket key = some (w.files path).content
  md5 : backend.md5 (w.files path).content = row.md5 →
    w.bucket key = some (w.files path).content

/-- The row of a relative path, if there is one, is right in that sense. -/
def Sound (w : History backend) (conn : Db) (relative : Bytes) : Prop :=
  ∀ row, conn.view.lookup (u.remotePath relative) = some row →
    Tells w (createRealLocalPath pfx relative) (u.remotePath relative) row

/-- A `lstat` that is no older than the row: what the file has in common with the row, it has had
since. -/
def Aware (w : History backend) (conn : Db) (path key : Bytes) (fileInfo : Stat) : Prop :=
  ∀ row, conn.view.lookup key = some row →
    ((w.files path).mtime.toUInt64 = row.mtime → fileInfo.mtime = (w.files path).mtime) ∧
      (backend.md5 (w.files path).content = row.md5 →
        fileInfo.size = (w.files path).content.length)

/-- What a thread knows at its place. -/
def Prepared (w : History backend) (conn : Db) (c : ThreadCommand) : Worker → Prop
  | .checking => c.shouldCheckMd5 = true ∧ Aware w conn c.realLocalPath c.path c.fileInfo
  | .updatingMeta => Holds w.toWorld c.realLocalPath c.path c.storedMd5 c.fileInfo.mtime
  | .uploading _ => Aware w conn c.realLocalPath c.path c.fileInfo
  | .storing m => Holds w.toWorld c.realLocalPath c.path m c.fileInfo.mtime
  | .failing | .finishing => True

/-- A run in progress keeps the rows sound. -/
structure Enduring (w : History backend) (files : LocalFileList) (t : State) : Prop where
  rows : ∀ relative, Sound u pfx w t.conn relative
  threads : ∀ n c v, t.slots n = some (c, v) →
    Stated (w.files c.realLocalPath) c.fileInfo ∧ Prepared w t.conn c v
  sleeping : ∀ c, t.pc = .sleeping c → Stated (w.files c.realLocalPath) c.fileInfo ∧
    Aware w t.conn c.realLocalPath c.path c.fileInfo
  looking : ∀ i fileInfo file, t.pc = .looking i fileInfo → files[i]? = some file →
    Stated (w.files (pathOf pfx file)) fileInfo ∧
      Aware w t.conn (pathOf pfx file) (u.keyOf file) fileInfo

variable {u pfx} {w w' : History backend} {files : LocalFileList} {conn conn₀ : Db}
  {t t' : State} {es fs : List Event} {a : Action} {c : ThreadCommand} {n : ℕ}

/-! ## Steps of a run -/

/-- An mtime is known by its column. -/
lemma mtime_eq_of_column {m m' : Int64} (h : m.toUInt64 = m'.toUInt64) : m = m' := by
  rw [← Int64.toInt64_toUInt64 m, h, Int64.toInt64_toUInt64]

/-- The loop goes on. -/
lemma Enduring.goto (h : Enduring u pfx w files t) {failed : Bool} {pc : Dispatcher}
    (hsleeping : ∀ c, pc = .sleeping c → Stated (w.files c.realLocalPath) c.fileInfo ∧
      Aware w t.conn c.realLocalPath c.path c.fileInfo)
    (hlooking : ∀ i fileInfo file, pc = .looking i fileInfo → files[i]? = some file →
      Stated (w.files (pathOf pfx file)) fileInfo ∧
        Aware w t.conn (pathOf pfx file) (u.keyOf file) fileInfo) :
    Enduring u pfx w files { t with failed := failed, pc := pc } :=
  ⟨h.rows, h.threads, hsleeping, hlooking⟩

/-- A thread takes or changes its place, without a row being stored. -/
lemma Enduring.setSlot (h : Enduring u pfx w files t) {v : Worker} {failed : Bool}
    (hstated : Stated (w.files c.realLocalPath) c.fileInfo) (hknows : Prepared w t.conn c v) :
    Enduring u pfx w files ({ t with failed := failed }.setSlot n c v) where
  rows := h.rows
  threads := by
    intro m d v' hm
    rcases State.setSlot_slots_cases hm with ⟨rfl, rfl, rfl⟩ | ⟨_, hold⟩
    · exact ⟨hstated, hknows⟩
    · exact h.threads m d v' hold
  sleeping := h.sleeping
  looking := h.looking

/-- Where the slot of a thread is freed, the others know what they knew. -/
lemma Enduring.markFree (h : Enduring u pfx w files t) (n : ℕ) :
    Enduring u pfx w files (t.markFree n) :=
  ⟨h.rows, fun m d v hm => h.threads m d v (State.markFree_slots hm).2, h.sleeping, h.looking⟩

/-- The row that a thread has looked up. -/
lemma Looked.row (hlooked : Looked conn₀ c)
    (hsame : conn.view.lookup c.path = conn₀.view.lookup c.path) {row : Row}
    (hrow : conn.view.lookup c.path = some row) :
    c.storedMd5 = row.md5 ∧ (0 < row.mtime → row.mtime ≠ c.fileInfo.mtime64) := by
  have hrowOf : rowOf conn₀ c.path = (row.md5, row.mtime) := by
    rw [rowOf, ← hsame, hrow]
  refine ⟨by rw [hlooked.storedMd5, hrowOf], fun hpos heq => hlooked.outdated ?_⟩
  rw [UpToDate, hrowOf]
  exact ⟨hpos, heq⟩

/-- The column of a recorded mtime is not that of an absent row. -/
lemma Recorded.column_pos {f : LocalCopy backend.occurring} {column : UInt64} {mtime : Int64}
    (h : Recorded f column mtime) : 0 < column := by
  have hne : column ≠ 0 := by
    rintro rfl
    have hzero : mtime = 0 := mtime_eq_of_column h.eq.symm
    exact absurd h.pos (by rw [hzero]; decide)
  exact UInt64.pos_iff_ne_zero.mpr hne

/-- A file whose md5 is the stored one is in the bucket as it is. -/
lemma Enduring.holds_stored (h : Enduring u pfx w files t) (hplaced : Placed u files pfx es t)
    (hledger : Ledger u files pfx conn₀ es t) (hslot : t.slots n = some (c, .checking))
    (hsame : backend.md5 (w.files c.realLocalPath).content = c.storedMd5) :
    Holds w.toWorld c.realLocalPath c.path c.storedMd5 c.fileInfo.mtime := by
  obtain ⟨hcheck, -⟩ := (h.threads n c _ hslot).2
  obtain ⟨relative, hpath, hreal⟩ := (hplaced.job n c _ hslot).2.2.relative
  have hlooked := hledger.looked c (Or.inr ⟨n, _, hslot⟩)
  have hkept := hledger.working n c _ hslot (by simp)
  rcases hrow : t.conn.view.lookup c.path with _ | row
  · rw [hlooked.shouldCheckMd5, rowOf, ← hkept, hrow] at hcheck
    simp at hcheck
  · obtain ⟨hstored, -⟩ := hlooked.row hkept hrow
    have htells := h.rows relative row (hpath ▸ hrow)
    rw [← hpath, ← hreal] at htells
    exact ⟨_, htells.md5 (hsame.trans hstored), (w.files c.realLocalPath).content_mem, hsame,
      fun _ => rfl⟩

/-- A file is put, and perhaps its thread does not learn of it. -/
lemma Enduring.put (h : Enduring u pfx w files t) (hplaced : Placed u files pfx es t)
    (hledger : Ledger u files pfx conn₀ es t) (hkeys : KeysDistinct u files) {r : Retry}
    {b : Bytes} (hslot : t.slots n = some (c, .uploading r))
    (hb : b = (w.files c.realLocalPath).content.take c.fileInfo.size) :
    Enduring u pfx (w.put c.path b) files t where
  rows := by
    intro relative row hrow
    have htells := h.rows relative row hrow
    obtain ⟨b', hmem, hrest⟩ := htells.stored
    by_cases hkey : u.remotePath relative = c.path
    · obtain ⟨relative', hpath, hreal⟩ := (hplaced.job n c _ hslot).2.2.relative
      obtain rfl : relative' = relative := remotePath_injective (hpath.symm.trans hkey.symm)
      rw [← hpath, ← hreal] at htells ⊢
      rw [← hpath] at hrow
      have haware := (h.threads n c _ hslot).2 row hrow
      have hold := (hledger.looked c (Or.inr ⟨n, _, hslot⟩)).row
        (hledger.working n c _ hslot (by simp)) hrow
      obtain ⟨mtime, hrecorded⟩ := htells.recorded
      refine ⟨⟨mtime, hrecorded⟩, ⟨b', History.mem_had_put.mpr (Or.inr (hpath ▸ hmem)), hrest⟩,
        fun heq => ?_, fun heq => ?_⟩
      · -- the run would have passed over the file
        refine absurd ?_ (hold.2 hrecorded.column_pos)
        rw [Stat.mtime64, haware.1 heq]
        exact heq.symm
      · have hcontent : b = (w.files c.realLocalPath).content := by
          rw [hb, haware.2 heq, List.take_length]
        rw [History.put_bucket_self, hcontent]
        rfl
    · refine ⟨htells.recorded, ⟨b', History.mem_had_put.mpr (Or.inr hmem), hrest⟩, ?_, ?_⟩ <;>
        rw [History.put_bucket_of_ne hkey]
      · exact htells.mtime
      · exact htells.md5
  threads := by
    intro m d v hm
    obtain ⟨hstated, hknows⟩ := h.threads m d v hm
    refine ⟨hstated, ?_⟩
    have hholds : ∀ m', v ≠ .uploading r → Holds w.toWorld d.realLocalPath d.path m'
        d.fileInfo.mtime → Holds (w.put c.path b).toWorld d.realLocalPath d.path m'
          d.fileInfo.mtime := by
      rintro m' hv ⟨b', hb', hrest⟩
      have hmn : m ≠ n := by
        rintro rfl
        rw [hslot] at hm
        cases hm
        exact hv rfl
      have hkey : d.path ≠ c.path := hplaced.path_ne hkeys hslot hm hmn
      exact ⟨b', (History.put_bucket_of_ne hkey).trans hb', hrest⟩
    cases v with
    | updatingMeta => exact hholds _ (by simp) hknows
    | storing m' => exact hholds _ (by simp) hknows
    | _ => exact hknows
  sleeping := h.sleeping
  looking := h.looking

/-- What the thread knows that learns of it. -/
lemma holds_put (hstated : Stated (w.files c.realLocalPath) c.fileInfo) {b : Bytes}
    (hb : b = (w.files c.realLocalPath).content.take c.fileInfo.size)
    (hmem : b ∈ backend.occurring) :
    Holds (w.put c.path b).toWorld c.realLocalPath c.path (backend.md5 b) c.fileInfo.mtime := by
  refine ⟨b, History.put_bucket_self, hmem, rfl, fun hmtime => ?_⟩
  rw [hb, hstated.size hmtime]
  exact List.take_length

/-- A row is stored. -/
lemma Enduring.store (h : Enduring u pfx w files t) (hplaced : Placed u files pfx es t)
    (hkeys : KeysDistinct u files) {m : Bytes} {failed : Bool}
    (hslot : t.slots n = some (c, .storing m)) :
    Enduring u pfx w files
      ({ t with
        conn := t.conn.update (AList.insert c.path ⟨m.take 32, c.fileInfo.mtime32.toUInt64⟩),
        failed := failed }.setSlot n c .finishing) := by
  obtain ⟨hn, hlt, hjob⟩ := hplaced.job n c _ hslot
  obtain ⟨file, hfile, -, hkey⟩ := hjob.file
  -- the other rows that somebody relies on stay
  have hrow : ∀ key, key ≠ c.path → ∀ row : Row,
      (t.conn.update (AList.insert c.path ⟨m.take 32, c.fileInfo.mtime32.toUInt64⟩)).view.lookup
        key = some row → t.conn.view.lookup key = some row := by
    intro key hne row hrow
    rwa [Connection.view_update, AList.lookup_insert_ne hne] at hrow
  have hahead : ∀ i f, files[i]? = some f → c.index < i → u.keyOf f ≠ c.path := by
    intro i f hf hi heq
    exact hi.ne (hkeys i c.index f file hf hfile (heq.trans hkey)).symm
  refine ⟨?_, ?_, ?_, ?_⟩
  · intro relative row hlook
    by_cases hrel : u.remotePath relative = c.path
    · -- the row just stored says what the thread knew
      obtain ⟨hstated, b, hb, hmem, hmd5, hpresent⟩ := h.threads n c _ hslot
      obtain ⟨relative', hpath, hreal⟩ := hjob.relative
      obtain rfl : relative' = relative := remotePath_injective (hpath.symm.trans hrel.symm)
      rw [State.setSlot_conn, Connection.view_update, hrel, AList.lookup_insert] at hlook
      obtain rfl := Option.some.inj hlook
      have hlen : m.take 32 = m := by
        rw [← hmd5]
        exact List.take_of_length_le (backend.md5_length b).le
      have hkept := (mtime_kept_iff c.fileInfo).mpr ⟨hstated.recorded.pos, hstated.recorded.lt⟩
      rw [← hreal, hrel, hlen, hkept.2]
      refine ⟨⟨_, hstated.recorded⟩, ⟨b, w.mem_had _ _ hb, hmem, hmd5⟩, fun heq => ?_,
        fun heq => ?_⟩
      · rw [hb, hpresent (mtime_eq_of_column heq)]
      · rw [hb, backend.md5_injOn (w.files _).content_mem hmem (heq.trans hmd5.symm)]
    · exact h.rows relative row (hrow _ hrel row hlook)
  · intro k d v hk
    rcases State.setSlot_slots_cases hk with ⟨rfl, rfl, rfl⟩ | ⟨hkn, hold⟩
    · exact ⟨(h.threads _ _ _ hslot).1, trivial⟩
    · obtain ⟨hstated, hknows⟩ := h.threads k d v hold
      have hne : d.path ≠ c.path := hplaced.path_ne hkeys hslot hold hkn
      have haware : Aware w t.conn d.realLocalPath d.path d.fileInfo →
          Aware w (t.conn.update (AList.insert c.path
            ⟨m.take 32, c.fileInfo.mtime32.toUInt64⟩)) d.realLocalPath d.path d.fileInfo :=
        fun h row hlook => h row (hrow _ hne row hlook)
      refine ⟨hstated, ?_⟩
      cases v with
      | checking => exact ⟨hknows.1, haware hknows.2⟩
      | uploading r => exact haware hknows
      | _ => exact hknows
  · intro d hpc
    obtain ⟨hstated, haware⟩ := h.sleeping d hpc
    obtain ⟨f, hf, -, hdkey⟩ := (hplaced.sleeping d hpc).2.file
    have hindex : c.index < d.index := by
      simpa [show t.pc = .sleeping d from hpc, Dispatcher.position] using hlt
    refine ⟨hstated, fun row hlook => haware row (hrow _ ?_ row hlook)⟩
    rw [hdkey]
    exact hahead _ f hf hindex
  · intro i fileInfo f hpc hf
    obtain ⟨hstated, haware⟩ := h.looking i fileInfo f hpc hf
    have hindex : c.index < i := by
      simpa [show t.pc = .looking i fileInfo from hpc, Dispatcher.position] using hlt
    exact ⟨hstated, fun row hlook => haware row (hrow _ (hahead i f hf hindex) row hlook)⟩

/-- The md5 that is read is that of the present content. -/
lemma Faces.read_eq {m : Bytes}
    (h : Faces w (.worker n (.read (some m))) [.read c (some m)] w') :
    w' = w ∧ backend.md5 (w.files c.realLocalPath).content = m := by
  cases h
  exact ⟨rfl, rfl⟩

/-- A thread that has an md5 to store has it from the server, which has stored the content. -/
lemma Faces.stored {r : Retry} {system : System} {request : Request} {response : Response}
    {httpStatusCode : ℕ} {md5 m : Bytes}
    (h : Faces w (.worker n (.upload (.performed system response))) [.put c request response] w')
    (hnext : r.next c.realLocalPath (.performed system response) =
      some (.success httpStatusCode md5))
    (hstore : md5ToStore httpStatusCode md5 = some m) :
    ∃ b, b = (w.files c.realLocalPath).content.take c.fileInfo.size ∧ b ∈ backend.occurring ∧
      w' = w.put c.path b ∧ m = backend.md5 b := by
  obtain ⟨rfl, hlength, rfl⟩ := md5ToStore_eq_some.mp hstore
  obtain ⟨_, _, tr, heq, hgo, hok, h200, hmd5⟩ := Retry.next_success hnext
  cases heq
  cases h with
  | refused _ _ _ _ _ hrefused => exact absurd h200 (hrefused tr hgo hok)
  | put _ _ _ _ _ b hb hmem htrue =>
      refine ⟨b, hb, hmem, rfl, ?_⟩
      rw [hmd5 rfl] at hlength ⊢
      rcases hetag : tr.getHeader (ascii "etag") with _ | etag
      · rw [hetag] at hlength
        cases hlength
      · rw [htrue tr hgo hok h200 etag hetag,
          extractMD5FromETagHeaders_quoted (backend.md5_length b)]

/-- A step of a thread that sends a PUT leaves the rows sound, and the thread in the know. -/
lemma Enduring.putStep (h : Enduring u pfx w files t) (hplaced : Placed u files pfx es t)
    (hledger : Ledger u files pfx conn₀ es t) (hkeys : KeysDistinct u files) {r : Retry}
    {system : System} {request : Request} {response : Response}
    (hslot : t.slots n = some (c, .uploading r))
    (hfaces : Faces w (.worker n (.upload (.performed system response)))
      [.put c request response] w') :
    Enduring u pfx w' files t ∧ w'.files = w.files ∧
      ∀ result, r.nextWithin ERROR_RESULT_SIZE c.realLocalPath (.performed system response) =
          some result →
        Prepared w' t.conn c (afterUpload result) := by
  obtain ⟨hstated, haware⟩ := h.threads n c _ hslot
  have hfiles : w'.files = w.files := by
    cases hfaces <;> rfl
  have hkept : Enduring u pfx w' files t := by
    cases hfaces with
    | put _ _ _ _ _ b hb hmem htrue => exact h.put hplaced hledger hkeys hslot hb
    | refused _ _ _ _ _ hrefused => exact h
  refine ⟨hkept, hfiles, fun result hnext => ?_⟩
  rcases result with r' | ⟨httpStatusCode, md5⟩ | _
  · exact (hkept.threads n c _ hslot).2
  · rcases hstore : md5ToStore httpStatusCode md5 with _ | m
    · rw [afterUpload, hstore]
      trivial
    · obtain ⟨b, hb, hmem, rfl, rfl⟩ := hfaces.stored (Retry.next_of_nextWithin hnext) hstore
      rw [afterUpload, hstore]
      exact holds_put hstated hb hmem
  · trivial

/-- **Whatever a step meets, the rows stay sound.** -/
theorem Enduring.transition (h : Enduring u pfx w files t) (hplaced : Placed u files pfx es t)
    (hledger : Ledger u files pfx conn₀ es t) (hkeys : KeysDistinct u files)
    (hdry : u.dryRun = false) (ht : u.Transition files pfx t a fs t')
    (hfaces : Faces w a fs w') : Enduring u pfx w' files t' := by
  cases ht with
  | more i hpc hfailed hi =>
      cases hfaces
      exact h.goto (by simp) (by simp)
  | done i hpc hend =>
      cases hfaces
      exact h.goto (by simp) (by simp)
  | skipped i file answer hpc hfile hskip =>
      cases hfaces <;> exact h.goto (by simp) (by simp)
  | stated i file fileInfo hpc hfile hsize =>
      cases hfaces with
      | stat _ _ _ hstats =>
          refine h.goto (by simp) ?_
          rintro j st f ⟨⟩ hf
          obtain rfl := Option.some.inj (hfile.symm.trans hf)
          refine ⟨⟨hstats.regular, ⟨?_, ?_, ?_, rfl⟩, fun _ => hstats.size⟩,
            fun row _ => ⟨fun _ => hstats.mtime, fun _ => hstats.size⟩⟩ <;> rw [hstats.mtime]
          · exact (w.files _).mtime_mem
          · exact (w.files _).mtime_pos
          · exact (w.files _).mtime_lt
  | lookupFailed i fileInfo file fails hpc hfile hfails =>
      cases hfaces
      exact h.goto (by simp) (by simp)
  | upToDate i fileInfo file fails hpc hfile hsame =>
      cases hfaces
      exact h.goto (by simp) (by simp)
  | outdated i fileInfo file fails hpc hfile hrow =>
      cases hfaces
      refine h.goto ?_ (by simp)
      rintro c ⟨⟩
      exact h.looking i fileInfo file hpc hfile
  | dispatched n c hpc hn hfree =>
      cases hfaces
      obtain ⟨hstated, haware⟩ := h.sleeping c hpc
      refine (h.setSlot hstated ?_).goto (by simp) (by simp)
      rcases u.enter_cases c with ⟨hw, hcheck⟩ | ⟨hw, -⟩ | ⟨hw, -⟩ <;> rw [hw]
      · exact ⟨hcheck, haware⟩
      · trivial
      · exact haware
  | notCreated n c hpc =>
      cases hfaces
      exact h.goto (by simp) (by simp)
  | joined hpc hfree =>
      cases hfaces
      exact h.goto (by simp) (by simp)
  | freed n c hrun hslot =>
      cases hfaces
      exact h.markFree n
  | lost n c v wa fs hrun hslot hlost =>
      cases hlost with
      | put r system request response hnext =>
          exact (h.putStep hplaced hledger hkeys hslot hfaces).1.goto (by simp) (by simp)
      | _ =>
          cases hfaces
          exact h.goto (by simp) (by simp)
  | move n c v v' wa fs conn flag hrun hslot hmove =>
      obtain ⟨hstated, hknows⟩ := h.threads n c v hslot
      cases hmove with
      | same hd =>
          obtain ⟨rfl, hsame⟩ := hfaces.read_eq
          exact h.setSlot hstated (h.holds_stored hplaced hledger hslot hsame)
      | sameDry hd => cases hdry.symm.trans hd
      | differs md5 hmd5 =>
          cases hfaces
          rw [startUpload_eq hdry]
          exact h.setSlot hstated hknows.2
      | copied system request response tr hreq hgo hok =>
          cases hfaces
          exact h.setSlot hstated hknows
      | put r system request response result hreq hnext =>
          obtain ⟨hkept, hfiles, hprepared⟩ := h.putStep hplaced hledger hkeys hslot hfaces
          exact hkept.setSlot (hfiles ▸ hstated) (hprepared result hnext)
      | notPut r attempt result hsend hopen hnext =>
          cases hfaces
          refine h.setSlot hstated ?_
          rcases result with r' | ⟨httpStatusCode, md5⟩ | _
          · exact hknows
          · obtain ⟨system, response, -, hperformed, -⟩ :=
              Retry.next_success (Retry.next_of_nextWithin hnext)
            exact absurd hperformed (hsend system response)
          · trivial
      | stored md5 fails =>
          cases hfaces
          exact h.store hplaced hkeys hslot
      | notStored md5 fails hfails =>
          cases hfaces
          exact h.setSlot hstated trivial
      | notCopied | copyUnsigned | flagged =>
          cases hfaces
          exact h.setSlot hstated trivial

/-! ## Writes -/

/-- After a write, nothing that is stored says that it is about the present file. -/
lemma Tells.write {path key p content : Bytes} {mtime : Int64}
    {f : LocalCopy backend.occurring} {row : Row} (h : Tells w path key row)
    (hwrites : Writes (w.files p) content mtime f) (hnew : path = p → content ∉ w.had key) :
    Tells (w.write p f) path key row := by
  obtain ⟨m, hrecorded⟩ := h.recorded
  obtain ⟨b, hb, hmem, hmd5⟩ := h.stored
  refine ⟨⟨m, hrecorded.write hwrites⟩, ⟨b, hb, hmem, hmd5⟩, ?_, ?_⟩ <;>
    by_cases hp : path = p
  · subst hp
    intro heq
    rw [History.write_files_self, hwrites.mtime_eq, hrecorded.eq] at heq
    exact absurd (mtime_eq_of_column heq ▸ hrecorded.mem) hwrites.fresh
  · rw [History.write_files_of_ne hp]
    exact h.mtime
  · subst hp
    intro heq
    rw [History.write_files_self, ← hmd5] at heq
    have hsent := backend.md5_injOn f.content_mem hmem heq
    rw [hwrites.content_eq] at hsent
    exact absurd (hsent ▸ hb) (hnew rfl)
  · rw [History.write_files_of_ne hp]
    exact h.md5

lemma Aware.write {path key p content : Bytes} {mtime : Int64} {fileInfo : Stat}
    {f : LocalCopy backend.occurring} (h : Aware w conn path key fileInfo)
    (htells : ∀ row, conn.view.lookup key = some row → Tells w path key row)
    (hwrites : Writes (w.files p) content mtime f) (hnew : path = p → content ∉ w.had key) :
    Aware (w.write p f) conn path key fileInfo := by
  intro row hrow
  by_cases hp : path = p
  · subst hp
    obtain ⟨m, hrecorded⟩ := (htells row hrow).recorded
    obtain ⟨b, hb, hmem, hmd5⟩ := (htells row hrow).stored
    rw [History.write_files_self, hwrites.mtime_eq]
    constructor
    · intro heq
      rw [hrecorded.eq] at heq
      exact absurd (mtime_eq_of_column heq ▸ hrecorded.mem) hwrites.fresh
    · intro heq
      rw [← hmd5] at heq
      have hsent := backend.md5_injOn f.content_mem hmem heq
      rw [hwrites.content_eq] at hsent
      exact absurd (hsent ▸ hb) (hnew rfl)
  · rw [History.write_files_of_ne hp]
    exact h row hrow

lemma Enduring.write {p content : Bytes} {mtime : Int64} {f : LocalCopy backend.occurring}
    (h : Enduring u pfx w files t) (hplaced : Placed u files pfx es t)
    (hwrites : Writes (w.files p) content mtime f) (hnew : Unsent u pfx w p content) :
    Enduring u pfx (w.write p f) files t := by
  have hsound : ∀ relative (fileInfo : Stat),
      Aware w t.conn (createRealLocalPath pfx relative) (u.remotePath relative) fileInfo →
        Aware (w.write p f) t.conn (createRealLocalPath pfx relative) (u.remotePath relative)
          fileInfo :=
    fun relative fileInfo haware => haware.write (h.rows relative) hwrites (hnew relative)
  refine ⟨fun relative row hrow => (h.rows relative row hrow).write hwrites (hnew relative),
    ?_, ?_, ?_⟩
  · intro n c v hslot
    obtain ⟨hstated, hknows⟩ := h.threads n c v hslot
    obtain ⟨relative, hpath, hreal⟩ := (hplaced.job n c v hslot).2.2.relative
    refine ⟨hstated.write hwrites, ?_⟩
    cases v with
    | checking =>
        refine ⟨hknows.1, ?_⟩
        rw [hpath, hreal]
        exact hsound relative _ (hpath ▸ hreal ▸ hknows.2)
    | updatingMeta => exact Holds.write hknows hstated.recorded.mem hwrites
    | uploading r =>
        show Aware _ _ _ _ _
        rw [hpath, hreal]
        exact hsound relative _ (hpath ▸ hreal ▸ hknows)
    | storing m => exact Holds.write hknows hstated.recorded.mem hwrites
    | failing | finishing => trivial
  · intro c hpc
    obtain ⟨hstated, haware⟩ := h.sleeping c hpc
    obtain ⟨relative, hpath, hreal⟩ := (hplaced.sleeping c hpc).2.relative
    refine ⟨hstated.write hwrites, ?_⟩
    rw [hpath, hreal]
    exact hsound relative _ (hpath ▸ hreal ▸ haware)
  · intro i fileInfo file hpc hfile
    obtain ⟨hstated, haware⟩ := h.looking i fileInfo file hpc hfile
    exact ⟨hstated.write hwrites, hsound _ fileInfo haware⟩

/-! ## Sessions -/

/-- A run in progress, with its history. -/
structure Going (u : Uploader) (pfx : Bytes) (w : History backend) (files : LocalFileList)
    (conn₀ : Db) (es : List Event) (t : State) : Prop where
  keys : KeysDistinct u files
  placed : Placed u files pfx es t
  ledger : Ledger u files pfx conn₀ es t
  enduring : Enduring u pfx w files t

/-- A session between its steps. -/
def Lasting (u : Uploader) (pfx : Bytes) (w : History backend) (s : Session) : Prop :=
  match s.run with
  | none => s.conn.Settled ∧ ∀ relative, Sound u pfx w s.conn relative
  | some (files, t) => ∃ conn₀ es, Going u pfx w files conn₀ es t

/-- A run begins. -/
lemma going_start (hconn : conn.Settled) (hsound : ∀ relative, Sound u pfx w conn relative)
    (hnodup : files.paths.Nodup) (hrooted : files.Rooted) :
    Going u pfx w files conn [] { conn := conn } where
  keys := keysDistinct hnodup hrooted
  placed := placed_start
  ledger := ledger_start hconn
  enduring := ⟨hsound, by simp, by simp, by simp⟩

/-- A run makes a step. -/
lemma Going.advance (h : Going u pfx w files conn₀ es t) (hdry : u.dryRun = false)
    (hs : u.step files pfx t a = some (t', fs)) (hfaces : Faces w a fs w') :
    Going u pfx w' files conn₀ (es ++ fs) t' := by
  have ht := step_transition hs
  exact ⟨h.keys, h.placed.transition ht, h.ledger.transition h.placed h.keys hdry ht,
    h.enduring.transition h.placed h.ledger h.keys hdry ht hfaces⟩

/-- What a process leaves behind that is killed. -/
lemma Lasting.stop {s : Session} (h : Lasting u pfx w s) (relative : Bytes) :
    Sound u pfx w { committed := s.connection.committed } relative := by
  have hkept : ∀ conn : Db, conn.Settled → Sound u pfx w conn relative →
      Sound u pfx w { committed := conn.committed } relative := by
    intro conn hsettled hsound row hrow
    refine hsound row ?_
    rw [Connection.view_of_settled hsettled]
    exact hrow
  rcases s with ⟨conn, _ | ⟨files, t⟩⟩
  · exact hkept conn h.1 (h.2 relative)
  · obtain ⟨conn₀, es, hgoing⟩ := h
    exact hkept t.conn hgoing.ledger.settled (hgoing.enduring.rows relative)

/-- **No failure and no kill makes a row unsound.** -/
theorem sound_run {s s' : Session} (hdry : u.dryRun = false)
    (h : Run (stoppableStep u pfx) (Befalls u pfx) s w fs s' w') (h0 : Lasting u pfx w s) :
    Lasting u pfx w' s' := by
  refine h.invariant (I := fun _ s w => Lasting u pfx w s) h0 ?_
  intro _ s x a fs s' y hI hs henv
  rcases s with ⟨conn, run⟩
  cases henv with
  | start files hnodup hrooted =>
      rcases run with _ | r
      · cases hs
        exact ⟨conn, [], going_start hI.1 hI.2 hnodup hrooted⟩
      · cases hs
  | step a es w' hfaces =>
      rcases run with _ | ⟨files, t⟩
      · cases hs
      · simp only [stoppableStep, sessionStep] at hs
        split at hs
        · cases hs
        next t' es' ht =>
          cases hs
          obtain ⟨conn₀, es₀, hgoing⟩ := hI
          exact ⟨conn₀, es₀ ++ fs, hgoing.advance hdry ht hfaces⟩
  | finish =>
      rcases run with _ | ⟨files, t⟩
      · cases hs
      · simp only [stoppableStep, sessionStep] at hs
        split at hs
        next success hpc =>
          cases hs
          obtain ⟨conn₀, es₀, hgoing⟩ := hI
          exact ⟨hgoing.ledger.settled, hgoing.enduring.rows⟩
        · cases hs
  | write path content mtime f hwrites hnew =>
      have hsame : s' = ⟨conn, run⟩ := by
        rcases run with _ | r <;> cases hs <;> rfl
      subst hsame
      rcases run with _ | ⟨files, t⟩
      · exact ⟨hI.1, fun relative row hrow =>
          (hI.2 relative row hrow).write hwrites (hnew relative)⟩
      · obtain ⟨conn₀, es₀, hgoing⟩ := hI
        exact ⟨conn₀, es₀, hgoing.keys, hgoing.placed, hgoing.ledger,
          hgoing.enduring.write hgoing.placed hwrites hnew⟩
  | stop =>
      cases hs
      exact ⟨rfl, hI.stop⟩

/-! ## The run after them -/

/-- What a run has been told of the files that its world has. -/
def Reported (w : History backend) (es : List Event) : Prop :=
  ∀ i path fileInfo, .stat i path (some fileInfo) ∈ es → (w.files path).Stats fileInfo

lemma Faces.files_eq (h : Faces w a es w') : w'.files = w.files := by
  cases h <;> rfl

lemma Reported.step (h : Reported w es) (ht : u.Transition files pfx t a fs t')
    (hfaces : Faces w a fs w') : Reported w' (es ++ fs) := by
  intro i path fileInfo hmem
  rw [hfaces.files_eq]
  rcases List.mem_append.mp hmem with hmem | hmem
  · exact h i path fileInfo hmem
  · cases ht with
    | stated j file st hpc hfile hsize =>
        cases hfaces with
        | stat _ _ _ hstats =>
            cases List.mem_singleton.mp hmem
            exact hstats
    | skipped j file answer hpc hfile hskip =>
        cases hfaces with
        | stat _ _ _ hstats =>
            cases List.mem_singleton.mp hmem
            exact hstats
        | notStated => cases List.mem_singleton.mp hmem
    | move n c v v' wa fs conn flag hrun hslot hmove => cases hmove <;> simp at hmem
    | lost n c v wa fs hrun hslot hlost => cases hlost <;> simp at hmem
    | _ => cases hmem

/-- **A successful run makes up for all that were stopped.**  After any session that began with an
empty table, whatever the bucket held, whatever failed and whatever was killed, a run during which
no file is written returns success only with the present content of every listed file in the bucket,
but for those whose `lstat` failed. -/
theorem backed_up_after_stops {s : Session} (hdry : u.dryRun = false)
    (h : Run (stoppableStep u pfx) (Befalls u pfx) { conn := { committed := ∅ } } w fs s w')
    (hidle : s.run = none) (hnodup : files.paths.Nodup) (hrooted : files.Rooted)
    {w'' : History backend} (hrun : Run (u.step files pfx) Faces { conn := s.conn } w' es t w'')
    (hpc : t.pc = .returned true) :
    w''.files = w'.files ∧ ∀ file ∈ files, (∃ i, .stat i (pathOf pfx file) none ∈ es) ∨
      w''.bucket (u.keyOf file) = some (w''.files (pathOf pfx file)).content := by
  have hlasting := sound_run hdry h ⟨rfl, fun relative row hrow => by
    simp [Connection.view] at hrow⟩
  simp only [Lasting, hidle] at hlasting
  obtain ⟨hgoing, hreported, hfiles⟩ : Going u pfx w'' files s.conn es t ∧ Reported w'' es ∧
      w''.files = w'.files := by
    refine hrun.invariant (I := fun es t x => Going u pfx x files s.conn es t ∧ Reported x es ∧
      x.files = w'.files) ⟨going_start hlasting.1 hlasting.2 hnodup hrooted, ?_, rfl⟩ ?_
    · intro i path fileInfo hmem
      cases hmem
    · intro es t x a fs t' y hI hs hfaces
      exact ⟨hI.1.advance hdry hs hfaces, hI.2.1.step (step_transition hs) hfaces,
        hfaces.files_eq.trans hI.2.2⟩
  refine ⟨hfiles, fun file hfile => ?_⟩
  obtain ⟨i, hi⟩ := List.mem_iff_getElem?.mp hfile
  obtain ⟨answer, hstat, hcases⟩ := returned_account hgoing.placed hgoing.ledger hpc hi
  rcases answer with _ | fileInfo
  · exact Or.inl ⟨i, hstat⟩
  right
  have hstats := hreported i _ fileInfo hstat
  -- the row is there, with the present mtime
  have hrow : ∃ row, t.conn.view.lookup (u.keyOf file) = some row ∧
      (w''.files (pathOf pfx file)).mtime.toUInt64 = row.mtime := by
    rw [← hstats.mtime]
    rcases hcases with ⟨hskip, -⟩ | ⟨st, hst, -, ⟨hup, hsame⟩ | ⟨-, md5, hnew⟩⟩
    · have hsize := hskip fileInfo rfl
      rw [hstats.size] at hsize
      exact absurd hsize (not_le.mpr (w''.files (pathOf pfx file)).size_lt)
    · obtain rfl := Option.some.inj hst
      rcases hlook : s.conn.view.lookup (u.keyOf file) with _ | row
      · have hpos := hup.1
        rw [rowOf, hlook] at hpos
        simp at hpos
      · have heq := hup.2
        rw [rowOf, hlook] at heq
        exact ⟨row, hsame.trans hlook, heq.symm⟩
    · obtain rfl := Option.some.inj hst
      have hkept := (mtime_kept_iff fileInfo).mpr (by
        rw [hstats.mtime]
        exact ⟨(w''.files (pathOf pfx file)).mtime_pos, (w''.files (pathOf pfx file)).mtime_lt⟩)
      exact ⟨_, hnew, hkept.2.symm⟩
  obtain ⟨row, hlook, hmtime⟩ := hrow
  exact (hgoing.enduring.rows (file.path.drop 1) row hlook).mtime hmtime

/-! ### A run that is killed between the PUT and the row -/

/-- Every file as it is before the edit, and nothing in the bucket. -/
def sampleHistory : History sampleBackend where
  toWorld := sampleWorld
  had _ := ∅
  mem_had := by
    intro key b h
    cases h

/-- The server tells the truth. -/
lemma sampleBackend_confirms (b : Bytes) : Confirms sampleBackend (sampleBackend.answer b) b := by
  intro t hgo hok h200 etag hetag
  obtain ⟨t', hgo', -, -, hetag'⟩ := sampleBackend.accepts b
  obtain rfl := Option.some.inj (hgo.symm.trans hgo')
  exact Option.some.inj (hetag.symm.trans hetag')

/-- The file is put, and the process is killed. -/
def sampleKilled : List (Option SessionAction) :=
  ([.start sampleFiles, .step .check, .step (.stat (some (sampleStat 1))),
    .step (.lookup noFaults), .step (.dispatch 0 true),
    .step (.worker 0 (.upload (.performed sampleSystem (sampleBackend.answer (ascii "abc")))))].map
      some) ++ [none]

/-- The file is put again. -/
def sampleRetried : List Action :=
  [.check, .stat (some (sampleStat 1)), .lookup noFaults, .dispatch 0 true,
    .worker 0 (.upload (.performed sampleSystem (sampleBackend.answer (ascii "abc")))),
    .worker 0 (.store noFaults), .worker 0 .markFree, .check, .join]

theorem backed_up_after_stops_sample : ∃ s fs w' es t w'',
    Run (stoppableStep (sampleUploader []) (ascii "src")) (Befalls (sampleUploader []) (ascii "src"))
        { conn := { committed := ∅ } } sampleHistory fs s w' ∧
      Run ((sampleUploader []).step sampleFiles (ascii "src")) Faces { conn := s.conn } w' es t
        w'' ∧
      w''.files = w'.files ∧ ∀ file ∈ sampleFiles,
        (∃ i, .stat i (pathOf (ascii "src") file) none ∈ es) ∨
          w''.bucket ((sampleUploader []).keyOf file) =
            some (w''.files (pathOf (ascii "src") file)).content := by
  obtain ⟨s, tr, hexec, hidle, hconn⟩ : ∃ s tr,
      exec (stoppableStep (sampleUploader []) (ascii "src")) { conn := { committed := ∅ } }
        sampleKilled = some (s, tr) ∧ s.run = none ∧ s.conn = { committed := ∅ } :=
    ⟨_, _, rfl, rfl, rfl⟩
  obtain ⟨w', haccepts, rfl⟩ : ∃ w', Accepts (Befalls (sampleUploader []) (ascii "src"))
      sampleHistory tr w' ∧ w' = sampleHistory.put (ascii "a") (ascii "abc") := by
    cases hexec
    exact ⟨_, ⟨_, .start _ (by decide) (by decide), _, .step _ _ _ .check, _,
      .step _ _ _ (.stat 0 _ _ sampleBefore_stats), _, .step _ _ _ (.lookup _), _,
      .step _ _ _ (.dispatch _ _), _, .step _ _ _ (.put _ _ _ _ _ (ascii "abc") rfl (Or.inr rfl)
        (sampleBackend_confirms _)), _, .stop, rfl⟩, rfl⟩
  obtain ⟨t, tr', hexec', hpc⟩ : ∃ t tr',
      exec ((sampleUploader []).step sampleFiles (ascii "src")) { conn := s.conn } sampleRetried =
        some (t, tr') ∧ t.pc = .returned true := by
    rw [hconn]
    exact ⟨_, _, rfl, rfl⟩
  obtain ⟨w'', haccepts'⟩ : ∃ w'', Accepts Faces (sampleHistory.put (ascii "a") (ascii "abc")) tr'
      w'' := by
    rw [hconn] at hexec'
    cases hexec'
    exact ⟨_, _, .check, _, .stat 0 _ _ sampleBefore_stats, _, .lookup _, _, .dispatch _ _, _,
      .put _ _ _ _ _ (ascii "abc") rfl (Or.inr rfl) (sampleBackend_confirms _), _, .store _ _ _, _,
      .markFree _, _, .check, _, .join, rfl⟩
  have hrun := exec_run hexec haccepts
  have hrun' := exec_run hexec' haccepts'
  exact ⟨s, _, _, _, t, w'', hrun, hrun',
    backed_up_after_stops rfl hrun hidle (by decide) (by decide) hrun' hpc⟩

/-! ### A content that comes back -/

/-- The file is uploaded and emptied, and the run that uploads it again comes as far as the PUT. -/
def sampleEmptied : List SessionAction :=
  [SessionAction.start sampleFiles] ++ sampleRetried.map .step ++
    [.finish, .write (ascii "src/a") [] 2, .start sampleFiles, .step .check,
      .step (.stat (some { sampleStat 2 with size := 0 })), .step (.lookup noFaults),
      .step (.dispatch 0 true), .step (.worker 0 (.read (some (sampleBackend.md5 [])))),
      .step (.worker 0 (.upload (.performed sampleSystem (sampleBackend.answer []))))]

lemma abc_mem_occurring : ascii "abc" ∈ sampleBackend.occurring := Or.inr rfl

lemma length_abc_lt : (ascii "abc").length < MAX_S3_FILE_SIZE := by decide

/-- The file has its first content again. -/
def sampleReverted : LocalCopy sampleBackend.occurring where
  content := ascii "abc"
  mtime := 3
  past := {3, 2, 1}
  mtime_mem := Or.inl rfl
  mtime_pos := by decide
  mtime_lt := by decide
  content_mem := abc_mem_occurring
  size_lt := length_abc_lt

/-- The md5 is the stored one, and only the metadata are sent. -/
def sampleCopied : List Action :=
  [.check, .stat (some (sampleStat 3)), .lookup noFaults, .dispatch 0 true,
    .worker 0 (.read (some (sampleBackend.md5 (ascii "abc")))),
    .worker 0 (.updateMeta (.performed sampleSystem (sampleBackend.answer (ascii "abc")))),
    .worker 0 (.store noFaults), .worker 0 .markFree, .check, .join]

/-- **A content that comes back is lost**: after the kill a run returns success, and the bucket has
the other content. -/
theorem reverted_edit_lost : ∃ s fs w' es t w'',
    Run (stoppableStep (sampleUploader []) (ascii "src")) (Befalls (sampleUploader []) (ascii "src"))
        { conn := { committed := ∅ } } sampleHistory fs s w' ∧
      Writes (w'.files (ascii "src/a")) (ascii "abc") 3 sampleReverted ∧
      Run ((sampleUploader []).step sampleFiles (ascii "src")) Faces { conn := s.conn }
        (w'.write (ascii "src/a") sampleReverted) es t w'' ∧
      t.pc = .returned true ∧ w''.bucket (ascii "a") = some [] ∧
      (w''.files (ascii "src/a")).content = ascii "abc" := by
  obtain ⟨s, tr, t, tr', hexec, hexec', hpc⟩ : ∃ s tr t tr',
      exec (stoppableStep (sampleUploader []) (ascii "src")) { conn := { committed := ∅ } }
        (sampleEmptied.map some ++ [none]) = some (s, tr) ∧
      exec ((sampleUploader []).step sampleFiles (ascii "src")) { conn := s.conn } sampleCopied =
        some (t, tr') ∧ t.pc = .returned true :=
    ⟨_, _, _, _, rfl, rfl, rfl⟩
  have hunsent : Unsent (sampleUploader []) (ascii "src")
      (sampleHistory.put (ascii "a") (ascii "abc")) (ascii "src/a") [] := by
    intro relative _ hmem
    rcases History.mem_had_put.mp hmem with ⟨-, h⟩ | h
    · exact absurd h (by decide)
    · exact h
  have hstats : sampleAfter.Stats { sampleStat 2 with size := 0 } :=
    ⟨show (0o100644 &&& 0xA000 == (0xA000 : UInt32)) = false by decide, rfl, rfl⟩
  have hread : ∀ (w : History sampleBackend) (c : ThreadCommand) (b : Bytes),
      (w.files c.realLocalPath).content = b → Faces w
        (.worker 0 (.read (some (sampleBackend.md5 b)))) [.read c (some (sampleBackend.md5 b))] w := by
    rintro w c b rfl
    exact .read 0 c
  obtain ⟨w', haccepts, rfl⟩ : ∃ w', Accepts (Befalls (sampleUploader []) (ascii "src"))
      sampleHistory tr w' ∧ w' = ((sampleHistory.put (ascii "a") (ascii "abc")).write
        (ascii "src/a") sampleAfter).put (ascii "a") [] := by
    cases hexec
    exact ⟨_, ⟨_, .start _ (by decide) (by decide), _, .step _ _ _ .check, _,
      .step _ _ _ (.stat 0 _ _ sampleBefore_stats), _, .step _ _ _ (.lookup _), _,
      .step _ _ _ (.dispatch _ _), _, .step _ _ _ (.put _ _ _ _ _ (ascii "abc") rfl (Or.inr rfl)
        (sampleBackend_confirms _)), _, .step _ _ _ (.store _ _ _), _, .step _ _ _ (.markFree _), _,
      .step _ _ _ .check, _, .step _ _ _ .join, _, .finish, _,
      .write _ _ _ _ sampleAfter_writes hunsent, _, .start _ (by decide) (by decide), _,
      .step _ _ _ .check, _, .step _ _ _ (.stat 0 _ _ hstats), _, .step _ _ _ (.lookup _), _,
      .step _ _ _ (.dispatch _ _), _, .step _ _ _ (hread _ _ [] rfl), _,
      .step _ _ _ (.put _ _ _ _ _ [] rfl (Or.inl rfl) (sampleBackend_confirms _)), _, .stop,
      rfl⟩, rfl⟩
  obtain ⟨w'', haccepts', hbucket, hfiles⟩ : ∃ w'', Accepts Faces ((((sampleHistory.put (ascii "a")
      (ascii "abc")).write (ascii "src/a") sampleAfter).put (ascii "a") []).write (ascii "src/a")
        sampleReverted) tr' w'' ∧ w''.bucket (ascii "a") = some [] ∧
      (w''.files (ascii "src/a")).content = ascii "abc" := by
    cases hexec
    cases hexec'
    exact ⟨_, ⟨_, .check, _, .stat 0 _ _ ⟨rfl, rfl, rfl⟩, _, .lookup _, _, .dispatch _ _, _,
      hread _ _ (ascii "abc") rfl, _, .copy _ _ _, _, .store _ _ _, _, .markFree _, _, .check, _,
      .join, rfl⟩, rfl, rfl⟩
  exact ⟨s, _, _, _, t, w'', exec_run hexec haccepts,
    ⟨show (3 : Int64) ∉ ({2, 1} : Set Int64) by decide, rfl, rfl, rfl⟩, exec_run hexec' haccepts',
    hpc, hbucket, hfiles⟩

end Uploader

end Clarc
