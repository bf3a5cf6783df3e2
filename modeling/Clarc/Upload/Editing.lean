import Clarc.Hash.DigestText
import Clarc.Http.HeaderLines
import Clarc.Upload.Idempotence

/-!
# Edits during the runs

A run takes the `lstat` of a file before another thread reads its content, twice: once for the md5
and once for the PUT.  A write in between gives the row an older mtime than the content that was
sent.  What makes the next run notice is that no mtime of a file comes back: a row whose mtime is
the present one was written from a `lstat` after the last write.

A `Session` is a sequence of runs of `uploadFiles`, with writes to the files at any moment; a
`World` holds the files and the bucket.  Nothing fails in it: the server answers every request with
200 and the md5 of what it received (`Backend`), and SQLite works.

* `Faithful` is what a row says: the bucket has the content with the row's md5, and the present
  content if the row's mtime is the present one;
* `synced_run` — **every session keeps the rows faithful**, but for the key of a thread that is
  about to store its row;
* `no_lost_edit` — so one more run, during which nothing is written, ends, succeeds, and leaves
  **the present content of every listed file in the bucket**.
-/

namespace Clarc

open Bytes Reactive Sqlite

namespace Uploader

/-! ## The world -/

/-- MD5, the contents that occur, and a server that accepts what it is sent: `answer b` is its
response to a request that leaves the object with the content `b`. -/
structure Backend where
  md5 : Bytes → Bytes
  md5_length : ∀ b, (md5 b).length = 32
  occurring : Set Bytes
  md5_injOn : Set.InjOn md5 occurring
  answer : Bytes → Response
  accepts : ∀ b, ∃ t, (answer b).go = some t ∧ t.res = .ok ∧ t.httpStatusCode = 200 ∧
    t.getHeader (ascii "etag") = some (ascii "\"" ++ md5 b ++ ascii "\"")

/-- A local file: its content and mtime, and every mtime it has had. -/
structure LocalCopy (occurring : Set Bytes) where
  content : Bytes
  mtime : Int64
  past : Set Int64
  mtime_mem : mtime ∈ past
  mtime_pos : 0 < mtime
  mtime_lt : mtime < 4294967296
  content_mem : content ∈ occurring
  size_lt : content.length < MAX_S3_FILE_SIZE

/-- The local files by path, and the bucket by key. -/
structure World (backend : Backend) where
  files : Bytes → LocalCopy backend.occurring
  bucket : Bytes → Option Bytes

variable {backend : Backend}

/-- A write gives the file a content and an mtime that it never had. -/
structure Writes (f : LocalCopy backend.occurring) (content : Bytes) (mtime : Int64)
    (g : LocalCopy backend.occurring) : Prop where
  fresh : mtime ∉ f.past
  content_eq : g.content = content
  mtime_eq : g.mtime = mtime
  past_eq : g.past = insert mtime f.past

/-- What `lstat` may say of a file. -/
structure LocalCopy.Stats (f : LocalCopy backend.occurring) (fileInfo : Stat) : Prop where
  regular : fileInfo.isSoftLink = false
  size : fileInfo.size = f.content.length
  mtime : fileInfo.mtime = f.mtime

lemma LocalCopy.exists_stats (f : LocalCopy backend.occurring) :
    ∃ fileInfo, f.Stats fileInfo :=
  ⟨{ mode := 0o100644, size := f.content.length, mtime := f.mtime, uid := 0, gid := 0 },
    show (0o100644 &&& 0xA000 == (0xA000 : UInt32)) = false by decide, rfl, rfl⟩

/-- The account database knows the owner. -/
def Known (system : System) : Prop := system.user.isSome ∧ system.group.isSome

/-- How the world answers a step of a run and is changed by it, when nothing fails. -/
inductive Serves (w : World backend) : Action → List Event → World backend → Prop
  | check : Serves w .check [] w
  | stat (i : ℕ) (path : Bytes) (fileInfo : Stat) (h : (w.files path).Stats fileInfo) :
      Serves w (.stat (some fileInfo)) [.stat i path (some fileInfo)] w
  | lookup : Serves w (.lookup noFaults) [] w
  | dispatch (n : ℕ) : Serves w (.dispatch n true) [] w
  | join : Serves w .join [] w
  | read (n : ℕ) (c : ThreadCommand) :
      Serves w (.worker n (.read (some (backend.md5 (w.files c.realLocalPath).content))))
        [.read c (some (backend.md5 (w.files c.realLocalPath).content))] w
  | copy (n : ℕ) (c : ThreadCommand) (system : System) (request : Request) (b : Bytes)
      (hsystem : Known system) :
      Serves w (.worker n (.updateMeta (.performed system (backend.answer b))))
        [.copy c request (backend.answer b)] w
  | put (n : ℕ) (c : ThreadCommand) (system : System) (request : Request) (b : Bytes)
      (hsystem : Known system)
      (hb : b = (w.files c.realLocalPath).content.take c.fileInfo.size)
      (hmem : b ∈ backend.occurring) :
      Serves w (.worker n (.upload (.performed system (backend.answer b))))
        [.put c request (backend.answer b)]
        { w with bucket := Function.update w.bucket c.path (some b) }
  | store (n : ℕ) (c : ThreadCommand) (row : Row) :
      Serves w (.worker n (.store noFaults)) [.row c row] w
  | markFree (n : ℕ) : Serves w (.worker n .markFree) [] w

/-! ## Sessions -/

/-- Runs one after another: the connection, and the run that is going on. -/
structure Session where
  conn : Db
  run : Option (LocalFileList × State) := none

/-- A step of a session: a run begins, makes a step or ends, or a file is written. -/
inductive SessionAction
  | start (files : LocalFileList)
  | step (a : Action)
  | finish
  | write (path content : Bytes) (mtime : Int64)

variable (u : Uploader) (pfx : Bytes)

/-- A step of a session. -/
def sessionStep : Process Session SessionAction Event := fun s a =>
  match a, s.run with
  | .start files, none => some ({ s with run := some (files, { conn := s.conn }) }, [])
  | .step a, some (files, t) =>
      match u.step files pfx t a with
      | none => none
      | some (t', es) => some ({ s with run := some (files, t') }, es)
  | .finish, some (_, t) =>
      match t.pc with
      | .returned _ => some ({ conn := t.conn }, [])
      | _ => none
  | .write _ _ _, _ => some (s, [])
  | _, _ => none

/-- The world of a session: runs are over lists with distinct paths, writes give fresh mtimes. -/
inductive Answers (w : World backend) :
    SessionAction → List Event → World backend → Prop
  | start (files : LocalFileList) (hnodup : files.paths.Nodup) (hrooted : files.Rooted) :
      Answers w (.start files) [] w
  | step (a : Action) (es : List Event) (w' : World backend) (h : Serves w a es w') :
      Answers w (.step a) es w'
  | finish : Answers w .finish [] w
  | write (path content : Bytes) (mtime : Int64) (f : LocalCopy backend.occurring)
      (h : Writes (w.files path) content mtime f) :
      Answers w (.write path content mtime) []
        { w with files := Function.update w.files path f }

/-! ## What a row says -/

/-- The content in the bucket is one with the md5 `m`, and the present one if the mtime `mtime` is
the present one. -/
def Holds (w : World backend) (path key m : Bytes) (mtime : Int64) : Prop :=
  ∃ b, w.bucket key = some b ∧ b ∈ backend.occurring ∧ backend.md5 b = m ∧
    ((w.files path).mtime = mtime → b = (w.files path).content)

/-- A 64-bit column that holds an mtime the file has had. -/
structure Recorded (f : LocalCopy backend.occurring) (column : UInt64) (mtime : Int64) :
    Prop where
  mem : mtime ∈ f.past
  pos : 0 < mtime
  lt : mtime < 4294967296
  eq : column = mtime.toUInt64

/-- The row of a relative path, if there is one, tells the truth. -/
def Faithful (w : World backend) (conn : Db) (relative : Bytes) : Prop :=
  ∀ row, conn.view.lookup (u.remotePath relative) = some row →
    ∃ mtime, Recorded (w.files (createRealLocalPath pfx relative)) row.mtime mtime ∧
      Holds w (createRealLocalPath pfx relative) (u.remotePath relative) row.md5 mtime

/-- A `lstat` of the file, taken at some time. -/
structure Stated (f : LocalCopy backend.occurring) (fileInfo : Stat) : Prop where
  regular : fileInfo.isSoftLink = false
  recorded : Recorded f fileInfo.mtime64 fileInfo.mtime
  size : f.mtime = fileInfo.mtime → fileInfo.size = f.content.length

/-- What a thread knows at its place. -/
def Knows (w : World backend) (c : ThreadCommand) : Worker → Prop
  | .checking => c.shouldCheckMd5 = true
  | .updatingMeta => Holds w c.realLocalPath c.path c.storedMd5 c.fileInfo.mtime
  | .uploading r => r = {}
  | .storing m => Holds w c.realLocalPath c.path m c.fileInfo.mtime
  | .failing => False
  | .finishing => True

/-- A run in progress keeps the rows faithful, but for those about to be stored. -/
structure Working (w : World backend) (files : LocalFileList) (t : State) : Prop where
  rows : ∀ relative, (∀ n c m, t.slots n = some (c, .storing m) → c.path ≠ u.remotePath relative) →
    Faithful u pfx w t.conn relative
  stated : ∀ n c v, t.slots n = some (c, v) →
    Stated (w.files c.realLocalPath) c.fileInfo ∧ Knows w c v
  sleeping : ∀ c, t.pc = .sleeping c → Stated (w.files c.realLocalPath) c.fileInfo
  looking : ∀ i fileInfo file, t.pc = .looking i fileInfo → files[i]? = some file →
    Stated (w.files (pathOf pfx file)) fileInfo
  clean : t.failed = false ∧ t.pc ≠ .exited ∧ t.pc ≠ .crashed

variable {u pfx} {w w' : World backend} {files : LocalFileList} {conn₀ : Db} {t t' : State}
  {es fs : List Event} {a : Action} {c : ThreadCommand} {n : ℕ}

/-! ## Steps of a run -/

/-- What the upload loop makes of the server's answer. -/
lemma next_answer (localPath : Bytes) (system : System) (b : Bytes) :
    Retry.nextWithin ERROR_RESULT_SIZE localPath {} (.performed system (backend.answer b)) =
      some (.success 200 (backend.md5 b)) := by
  obtain ⟨t, hgo, hok, h200, hetag⟩ := backend.accepts b
  have hmd5 := extractMD5FromETagHeaders_quoted (backend.md5_length b)
  rw [Retry.nextWithin_of_ne hgo (by rw [h200]; decide)]
  simp only [Retry.next, uploadFile, hgo, hok, h200, hetag, hmd5]
  rfl

lemma afterUpload_answer (b : Bytes) :
    afterUpload (.success 200 (backend.md5 b)) = .storing (backend.md5 b) := by
  simp [afterUpload, md5ToStore, backend.md5_length b]

/-- The md5 that is read is that of the present content. -/
lemma Serves.read_eq {m m' : Option Bytes}
    (h : Serves w (.worker n (.read m)) [.read c m'] w') :
    w' = w ∧ m = some (backend.md5 (w.files c.realLocalPath).content) := by
  cases h
  exact ⟨rfl, rfl⟩

/-- Where the file of a thread is, and under which key it goes. -/
lemma Job.relative (h : Job u files pfx es c) :
    ∃ relative, c.path = u.remotePath relative ∧
      c.realLocalPath = createRealLocalPath pfx relative := by
  obtain ⟨file, -, hreal, hpath⟩ := h.file
  exact ⟨file.path.drop 1, hpath, hreal⟩

/-- The loop goes on. -/
lemma Working.goto (h : Working u pfx w files t) {pc : Dispatcher}
    (hsleeping : ∀ c, pc = .sleeping c → Stated (w.files c.realLocalPath) c.fileInfo)
    (hlooking : ∀ i fileInfo file, pc = .looking i fileInfo → files[i]? = some file →
      Stated (w.files (pathOf pfx file)) fileInfo)
    (hclean : pc ≠ .exited ∧ pc ≠ .crashed) :
    Working u pfx w files (t.goto pc) :=
  ⟨h.rows, h.stated, hsleeping, hlooking, h.clean.1, hclean⟩

/-- A thread takes or changes its place, without a row being due or stored. -/
lemma Working.setSlot (h : Working u pfx w files t) {v : Worker} {failed : Bool}
    (hfree : ∀ d m, t.slots n ≠ some (d, .storing m)) (hfailed : failed = false)
    (hstated : Stated (w.files c.realLocalPath) c.fileInfo) (hknows : Knows w c v) :
    Working u pfx w files ({ t with failed := failed }.setSlot n c v) where
  rows := by
    intro relative hnone
    refine h.rows relative fun m d md5 hm => ?_
    have hmn : m ≠ n := by
      rintro rfl
      exact hfree d md5 hm
    exact hnone m d md5 ((State.setSlot_slots_of_ne hmn c v).trans hm)
  stated := by
    intro m d v' hm
    rcases State.setSlot_slots_cases hm with ⟨rfl, rfl, rfl⟩ | ⟨_, hold⟩
    · exact ⟨hstated, hknows⟩
    · exact h.stated m d v' hold
  sleeping := h.sleeping
  looking := h.looking
  clean := ⟨hfailed, h.clean.2⟩

/-- No other thread works on the file of a thread. -/
lemma Placed.path_ne (h : Placed u files pfx es t) (hkeys : KeysDistinct u files)
    {m : ℕ} {d : ThreadCommand} {v v' : Worker} (hn : t.slots n = some (c, v))
    (hm : t.slots m = some (d, v')) (hmn : m ≠ n) : d.path ≠ c.path := by
  obtain ⟨f, hf, -, hfpath⟩ := (h.job n c v hn).2.2.file
  obtain ⟨g, hg, -, hgpath⟩ := (h.job m d v' hm).2.2.file
  intro heq
  refine hmn (h.distinct m n d c v' v hm hn ?_)
  exact hkeys d.index c.index g f hg hf (by rw [← hgpath, heq, hfpath])

/-- A file whose md5 is the stored one is in the bucket as it is. -/
lemma Working.holds_stored (h : Working u pfx w files t) (hplaced : Placed u files pfx es t)
    (hledger : Ledger u files pfx conn₀ es t) (hkeys : KeysDistinct u files)
    (hslot : t.slots n = some (c, .checking))
    (hsame : backend.md5 (w.files c.realLocalPath).content = c.storedMd5) :
    Holds w c.realLocalPath c.path c.storedMd5 c.fileInfo.mtime := by
  have hcheck : c.shouldCheckMd5 = true := (h.stated n c _ hslot).2
  obtain ⟨relative, hpath, hreal⟩ := (hplaced.job n c _ hslot).2.2.relative
  have hlooked := hledger.looked c (Or.inr ⟨n, _, hslot⟩)
  have hrow := hledger.working n c _ hslot (by simp)
  have hfaithful : Faithful u pfx w t.conn relative := by
    refine h.rows relative fun m d md5 hm => ?_
    rw [← hpath]
    refine hplaced.path_ne hkeys hslot hm ?_
    rintro rfl
    rw [hslot] at hm
    cases hm
  -- the row that was looked up is still there
  rcases hlook : conn₀.view.lookup c.path with _ | row
  · rw [hlooked.shouldCheckMd5, rowOf, hlook] at hcheck
    simp at hcheck
  · have hmd5 : c.storedMd5 = row.md5 := by
      rw [hlooked.storedMd5, rowOf, hlook]
    obtain ⟨mtime, -, b, hb, hmem, hbmd5, -⟩ :=
      hfaithful row (hpath ▸ hrow.trans hlook)
    have heq : b = (w.files c.realLocalPath).content := by
      refine backend.md5_injOn hmem (w.files c.realLocalPath).content_mem ?_
      rw [hbmd5, hsame, hmd5]
    exact ⟨b, by rw [hpath, hb], hmem, by rw [hbmd5, hmd5], fun _ => heq⟩

/-- A row is stored. -/
lemma Working.store (h : Working u pfx w files t) (hplaced : Placed u files pfx es t)
    {m : Bytes} {failed : Bool} (hfailed : failed = false)
    (hslot : t.slots n = some (c, .storing m)) :
    Working u pfx w files
      ({ t with
        conn := t.conn.update (AList.insert c.path ⟨m.take 32, c.fileInfo.mtime32.toUInt64⟩),
        failed := failed }.setSlot n c .finishing) where
  rows := by
    intro relative hnone
    obtain ⟨hstated, hholds⟩ := h.stated n c _ hslot
    obtain ⟨relative', hpath, hreal⟩ := (hplaced.job n c _ hslot).2.2.relative
    have hslots : ∀ k d m', k ≠ n → t.slots k = some (d, .storing m') →
        d.path ≠ u.remotePath relative := fun k d m' hk hd =>
      hnone k d m' ((State.setSlot_slots_of_ne hk c _).trans hd)
    by_cases hkey : u.remotePath relative = c.path
    · -- the row just stored says what the thread knew
      obtain rfl : relative' = relative := remotePath_injective (hpath.symm.trans hkey.symm)
      obtain ⟨b, hb, hmem, hmd5, hpresent⟩ := hholds
      intro row hrow
      rw [State.setSlot_conn, Connection.view_update, hkey, AList.lookup_insert] at hrow
      obtain rfl := Option.some.inj hrow
      have hlen : m.take 32 = m := by
        rw [← hmd5]
        exact List.take_of_length_le (backend.md5_length b).le
      have hkept := (mtime_kept_iff c.fileInfo).mpr
        ⟨hstated.recorded.pos, hstated.recorded.lt⟩
      rw [← hreal, ← hpath, hlen]
      exact ⟨c.fileInfo.mtime, ⟨hstated.recorded.mem, hstated.recorded.pos, hstated.recorded.lt,
        hkept.2⟩, b, hb, hmem, hmd5, hpresent⟩
    · intro row hrow
      simp only [State.setSlot_conn, Connection.view_update,
        AList.lookup_insert_ne hkey] at hrow
      refine h.rows relative (fun k d m' hd => ?_) row hrow
      by_cases hk : k = n
      · subst hk
        rw [hslot] at hd
        cases hd
        exact fun heq => hkey heq.symm
      · exact hslots k d m' hk hd
  stated := by
    intro k d v hk
    rcases State.setSlot_slots_cases hk with ⟨rfl, rfl, rfl⟩ | ⟨_, hold⟩
    · exact ⟨(h.stated _ _ _ hslot).1, trivial⟩
    · exact h.stated k d v hold
  sleeping := h.sleeping
  looking := h.looking
  clean := ⟨hfailed, h.clean.2⟩

/-- A file is put: the bucket has what was read, which is the present content if the file has not
been written since its `lstat`. -/
lemma Working.put (h : Working u pfx w files t) (hplaced : Placed u files pfx es t)
    (hkeys : KeysDistinct u files) {r : Retry} {b : Bytes} {failed : Bool}
    (hfailed : failed = false) (hslot : t.slots n = some (c, .uploading r))
    (hb : b = (w.files c.realLocalPath).content.take c.fileInfo.size)
    (hmem : b ∈ backend.occurring) :
    Working u pfx { w with bucket := Function.update w.bucket c.path (some b) } files
      ({ t with failed := failed }.setSlot n c (.storing (backend.md5 b))) where
  rows := by
    intro relative hnone row hrow
    have hkey : u.remotePath relative ≠ c.path := by
      have := hnone n c _ (State.setSlot_slots_self n c _)
      exact fun heq => this heq.symm
    have hfaithful : Faithful u pfx w t.conn relative := by
      refine h.rows relative fun m d md5 hm => ?_
      have hmn : m ≠ n := by
        rintro rfl
        rw [hslot] at hm
        cases hm
      exact hnone m d md5 ((State.setSlot_slots_of_ne hmn c _).trans hm)
    obtain ⟨mtime, hrec, b', hb', hrest⟩ := hfaithful row hrow
    exact ⟨mtime, hrec, b', by simpa [Function.update_of_ne hkey] using hb', hrest⟩
  stated := by
    intro m d v hm
    rcases State.setSlot_slots_cases hm with ⟨rfl, rfl, rfl⟩ | ⟨hmn, hold⟩
    · obtain ⟨hstated, -⟩ := h.stated _ _ _ hslot
      refine ⟨hstated, b, by simp, hmem, rfl, fun hmtime => ?_⟩
      rw [hb, hstated.size hmtime]
      exact List.take_length
    · obtain ⟨hstated, hknows⟩ := h.stated m d v hold
      refine ⟨hstated, ?_⟩
      have hkey : d.path ≠ c.path := hplaced.path_ne hkeys hslot hold hmn
      have hholds : ∀ m', Holds w d.realLocalPath d.path m' d.fileInfo.mtime →
          Holds { w with bucket := Function.update w.bucket c.path (some b) } d.realLocalPath
            d.path m' d.fileInfo.mtime := by
        rintro m' ⟨b', hb', hrest⟩
        exact ⟨b', by simpa [Function.update_of_ne hkey] using hb', hrest⟩
      cases v with
      | updatingMeta => exact hholds _ hknows
      | storing m' => exact hholds _ hknows
      | _ => exact hknows
  sleeping := h.sleeping
  looking := h.looking
  clean := ⟨hfailed, h.clean.2⟩

/-- **A step that the world answers keeps the rows faithful.** -/
theorem Working.transition (h : Working u pfx w files t) (hplaced : Placed u files pfx es t)
    (hledger : Ledger u files pfx conn₀ es t) (hkeys : KeysDistinct u files)
    (hdry : u.dryRun = false) (ht : u.Transition files pfx t a fs t')
    (hserves : Serves w a fs w') : Working u pfx w' files t' := by
  cases ht with
  | more i hpc hfailed hi =>
      cases hserves
      exact h.goto (by simp) (by simp) (by simp)
  | done i hpc hend =>
      cases hserves
      exact h.goto (by simp) (by simp) (by simp)
  | skipped i file answer hpc hfile hskip =>
      cases hserves
      exact h.goto (by simp) (by simp) (by simp)
  | stated i file fileInfo hpc hfile hsize =>
      cases hserves with
      | stat _ _ _ hstats =>
          refine h.goto (by simp) ?_ (by simp)
          rintro j st f ⟨⟩ hf
          obtain rfl := Option.some.inj (hfile.symm.trans hf)
          refine ⟨hstats.regular, ⟨?_, ?_, ?_, rfl⟩, fun _ => hstats.size⟩
          · rw [hstats.mtime]
            exact (w.files _).mtime_mem
          · rw [hstats.mtime]
            exact (w.files _).mtime_pos
          · rw [hstats.mtime]
            exact (w.files _).mtime_lt
  | lookupFailed i fileInfo file fails hpc hfile hfails =>
      cases hserves
      rw [lookup_noFaults] at hfails
      cases hfails
  | upToDate i fileInfo file fails hpc hfile hsame =>
      cases hserves
      exact h.goto (by simp) (by simp) (by simp)
  | outdated i fileInfo file fails hpc hfile hrow =>
      cases hserves
      refine h.goto ?_ (by simp) (by simp)
      rintro c ⟨⟩
      exact h.looking i fileInfo file hpc hfile
  | dispatched n c hpc hn hfree =>
      cases hserves
      have hknows : Knows w c (u.enter c) := by
        rcases u.enter_cases c with ⟨h, hcheck⟩ | ⟨-, h⟩ | ⟨h, -⟩
        · rw [h]
          exact hcheck
        · cases hdry.symm.trans h
        · rw [h]
          rfl
      exact (h.setSlot (by simp [hfree]) h.clean.1 (h.sleeping c hpc) hknows).goto (by simp)
        (by simp) (by simp)
  | notCreated n c hpc => cases hserves
  | joined hpc hfree =>
      cases hserves
      exact h.goto (by simp) (by simp) (by simp)
  | freed n c hrun hslot =>
      cases hserves
      exact {
        rows := by
          intro relative hnone
          refine h.rows relative fun m d md5 hm => hnone m d md5 ?_
          have hmn : m ≠ n := by
            rintro rfl
            rw [hslot] at hm
            cases hm
          exact (State.markFree_slots_of_ne hmn).trans hm
        stated := fun m d v hm => h.stated m d v (State.markFree_slots hm).2
        sleeping := h.sleeping
        looking := h.looking
        clean := h.clean }
  | lost n c v wa fs hrun hslot hlost =>
      cases hlost with
      | read => cases hserves
      | unsentCopy attempt => cases hserves
      | copy system request response hgo =>
          cases hserves with
          | copy _ _ _ _ b _ =>
              obtain ⟨tr, htr, -⟩ := backend.accepts b
              rw [hgo] at htr
              cases htr
      | unsentPut r attempt => cases hserves
      | put r system request response hnext =>
          cases hserves with
          | put _ _ _ _ b _ _ _ =>
              obtain rfl : r = {} := (h.stated n c _ hslot).2
              rw [next_answer] at hnext
              cases hnext
  | move n c v v' wa fs conn flag hrun hslot hmove =>
      obtain ⟨hstated, hknows⟩ := h.stated n c v hslot
      have hclean : (t.failed || false) = false := by simp [h.clean.1]
      cases hmove with
      | same hd =>
          obtain ⟨rfl, hsame⟩ := hserves.read_eq
          exact h.setSlot (by simp [hslot]) hclean hstated
            (h.holds_stored hplaced hledger hkeys hslot (Option.some.inj hsame).symm)
      | sameDry hd =>
          rw [hdry] at hd
          cases hd
      | differs md5 hmd5 =>
          cases hserves
          exact h.setSlot (by simp [hslot]) hclean hstated (by rw [startUpload_eq hdry]; rfl)
      | copied system request response tr hreq hgo hok =>
          cases hserves
          exact h.setSlot (by simp [hslot]) hclean hstated hknows
      | notCopied system request response tr hreq hgo hok =>
          cases hserves with
          | copy _ _ _ _ b _ =>
              obtain ⟨tr', htr, hok', -⟩ := backend.accepts b
              rw [hgo] at htr
              obtain rfl := Option.some.inj htr
              exact absurd hok' hok
      | copyUnsigned system => cases hserves
      | put r system request response result hreq hnext =>
          cases hserves with
          | put _ _ _ _ b _ hb hmem =>
              obtain rfl : r = {} := hknows
              rw [next_answer] at hnext
              obtain rfl := Option.some.inj hnext
              rw [afterUpload_answer]
              exact h.put hplaced hkeys hclean hslot hb hmem
      | notPut r attempt result hsend hopen hnext => cases hserves
      | stored md5 fails =>
          cases hserves
          exact h.store hplaced hclean hslot
      | notStored md5 fails hfails =>
          cases hserves
      | flagged => exact absurd hknows id

/-! ## Writes -/

lemma Holds.write {path key m p content : Bytes} {mtime mtime' : Int64}
    {f : LocalCopy backend.occurring} (h : Holds w path key m mtime)
    (hmem : mtime ∈ (w.files path).past) (hwrites : Writes (w.files p) content mtime' f) :
    Holds { w with files := Function.update w.files p f } path key m mtime := by
  obtain ⟨b, hb, hocc, hmd5, hpresent⟩ := h
  refine ⟨b, hb, hocc, hmd5, ?_⟩
  dsimp only
  by_cases hp : path = p
  · subst hp
    -- the mtime is an old one, and the new one is not
    rw [Function.update_self, hwrites.mtime_eq]
    rintro rfl
    exact absurd hmem hwrites.fresh
  · rw [Function.update_of_ne hp]
    exact hpresent

lemma Recorded.write {path p content : Bytes} {column : UInt64} {mtime mtime' : Int64}
    {f : LocalCopy backend.occurring} (h : Recorded (w.files path) column mtime)
    (hwrites : Writes (w.files p) content mtime' f) :
    Recorded (Function.update w.files p f path) column mtime := by
  refine ⟨?_, h.pos, h.lt, h.eq⟩
  by_cases hp : path = p
  · subst hp
    rw [Function.update_self, hwrites.past_eq]
    exact Set.mem_insert_of_mem _ h.mem
  · rw [Function.update_of_ne hp]
    exact h.mem

lemma Stated.write {path p content : Bytes} {mtime' : Int64} {fileInfo : Stat}
    {f : LocalCopy backend.occurring} (h : Stated (w.files path) fileInfo)
    (hwrites : Writes (w.files p) content mtime' f) :
    Stated (Function.update w.files p f path) fileInfo := by
  refine ⟨h.regular, h.recorded.write hwrites, ?_⟩
  by_cases hp : path = p
  · subst hp
    rw [Function.update_self, hwrites.mtime_eq]
    rintro rfl
    exact absurd h.recorded.mem hwrites.fresh
  · rw [Function.update_of_ne hp]
    exact h.size

lemma Faithful.write {conn : Db} {relative p content : Bytes} {mtime' : Int64}
    {f : LocalCopy backend.occurring} (h : Faithful u pfx w conn relative)
    (hwrites : Writes (w.files p) content mtime' f) :
    Faithful u pfx { w with files := Function.update w.files p f } conn relative := by
  intro row hrow
  obtain ⟨mtime, hrec, hholds⟩ := h row hrow
  exact ⟨mtime, hrec.write hwrites, hholds.write hrec.mem hwrites⟩

lemma Working.write {p content : Bytes} {mtime' : Int64} {f : LocalCopy backend.occurring}
    (h : Working u pfx w files t) (hwrites : Writes (w.files p) content mtime' f) :
    Working u pfx { w with files := Function.update w.files p f } files t where
  rows := fun relative hnone => (h.rows relative hnone).write hwrites
  stated := by
    intro n c v hslot
    obtain ⟨hstated, hknows⟩ := h.stated n c v hslot
    refine ⟨hstated.write hwrites, ?_⟩
    cases v with
    | updatingMeta => exact Holds.write hknows hstated.recorded.mem hwrites
    | storing m => exact Holds.write hknows hstated.recorded.mem hwrites
    | _ => exact hknows
  sleeping := fun c hpc => (h.sleeping c hpc).write hwrites
  looking := fun i fileInfo file hpc hfile => (h.looking i fileInfo file hpc hfile).write hwrites
  clean := h.clean

/-! ## Sessions -/

/-- A run in progress, with its history. -/
structure InProgress (u : Uploader) (pfx : Bytes) (w : World backend) (files : LocalFileList)
    (conn₀ : Db) (es : List Event) (t : State) : Prop where
  keys : KeysDistinct u files
  placed : Placed u files pfx es t
  ledger : Ledger u files pfx conn₀ es t
  working : Working u pfx w files t

/-- A session between its steps. -/
def Synced (u : Uploader) (pfx : Bytes) (w : World backend) (s : Session) : Prop :=
  match s.run with
  | none => s.conn.Settled ∧ ∀ relative, Faithful u pfx w s.conn relative
  | some (files, t) => ∃ conn₀ es, InProgress u pfx w files conn₀ es t

/-- A run begins. -/
lemma inProgress_start {conn : Db} (hconn : conn.Settled)
    (hfaithful : ∀ relative, Faithful u pfx w conn relative) (hnodup : files.paths.Nodup)
    (hrooted : files.Rooted) :
    InProgress u pfx w files conn [] { conn := conn } where
  keys := keysDistinct hnodup hrooted
  placed := placed_start
  ledger := ledger_start hconn
  working := {
    rows := fun relative _ => hfaithful relative
    stated := by simp
    sleeping := by simp
    looking := by simp
    clean := by simp }

/-- A run makes a step. -/
lemma InProgress.advance (h : InProgress u pfx w files conn₀ es t) (hdry : u.dryRun = false)
    (hs : u.step files pfx t a = some (t', fs)) (hserves : Serves w a fs w') :
    InProgress u pfx w' files conn₀ (es ++ fs) t' := by
  have ht := step_transition hs
  exact ⟨h.keys, h.placed.transition ht, h.ledger.transition h.placed h.keys hdry ht,
    h.working.transition h.placed h.ledger h.keys hdry ht hserves⟩

/-- A run that has returned leaves every row faithful. -/
lemma InProgress.returned (h : InProgress u pfx w files conn₀ es t) {success : Bool}
    (hpc : t.pc = .returned success) (relative : Bytes) : Faithful u pfx w t.conn relative := by
  refine h.working.rows relative fun n c m hslot => ?_
  rw [(h.placed.returned success hpc).2 n] at hslot
  cases hslot

/-- **Every session keeps the rows faithful.** -/
theorem synced_run {s s' : Session} {fs : List Event} (hdry : u.dryRun = false)
    (h : Run (sessionStep u pfx) Answers s w fs s' w') (h0 : Synced u pfx w s) :
    Synced u pfx w' s' := by
  refine h.invariant (I := fun _ s w => Synced u pfx w s) h0 ?_
  intro _ s x a fs s' y hI hs henv
  rcases s with ⟨conn, run⟩
  cases henv with
  | start files hnodup hrooted =>
      rcases run with _ | r
      · cases hs
        obtain ⟨hconn, hfaithful⟩ := hI
        exact ⟨conn, [], inProgress_start hconn hfaithful hnodup hrooted⟩
      · cases hs
  | step a es w' hserves =>
      rcases run with _ | ⟨files, t⟩
      · cases hs
      · simp only [sessionStep] at hs
        split at hs
        · cases hs
        next t' es' ht =>
          cases hs
          obtain ⟨conn₀, es₀, hprogress⟩ := hI
          exact ⟨conn₀, es₀ ++ fs, hprogress.advance hdry ht hserves⟩
  | finish =>
      rcases run with _ | ⟨files, t⟩
      · cases hs
      · simp only [sessionStep] at hs
        split at hs
        next success hpc =>
          cases hs
          obtain ⟨conn₀, es₀, hprogress⟩ := hI
          exact ⟨hprogress.ledger.settled, hprogress.returned hpc⟩
        · cases hs
  | write path content mtime f hwrites =>
      have hsame : s' = ⟨conn, run⟩ := by
        rcases run with _ | r <;> cases hs <;> rfl
      subst hsame
      rcases run with _ | ⟨files, t⟩
      · exact ⟨hI.1, fun relative => (hI.2 relative).write hwrites⟩
      · obtain ⟨conn₀, es₀, hprogress⟩ := hI
        exact ⟨conn₀, es₀, hprogress.keys, hprogress.placed, hprogress.ledger,
          hprogress.working.write hwrites⟩

/-! ## The last run ends -/

/-- How many steps a thread has before it at most. -/
def Worker.rank : Worker → ℕ
  | .checking => 5
  | .updatingMeta | .uploading _ => 4
  | .storing _ => 3
  | .failing => 2
  | .finishing => 1

/-- The same for a slot. -/
def slotRank : Option (ThreadCommand × Worker) → ℕ
  | none => 0
  | some (_, v) => v.rank

/-- The same for the loop, with the threads it has still to start. -/
def Dispatcher.rank (count : ℕ) : Dispatcher → ℕ
  | .top i => 12 * (count - i) + 5
  | .stating i => 12 * (count - i) + 4
  | .looking i _ => 12 * (count - i) + 3
  | .sleeping c => 12 * (count - c.index) + 2
  | .joining => 1
  | .returned _ | .exited | .crashed => 0

/-- The same for the whole run. -/
def rank (u : Uploader) (files : LocalFileList) (t : State) : ℕ :=
  t.pc.rank files.length + ∑ n ∈ Finset.range u.uploadThreads, slotRank (t.slots n)

@[simp] lemma slotRank_none : slotRank none = 0 := rfl

@[simp] lemma slotRank_some (v : Worker) : slotRank (some (c, v)) = v.rank := rfl

lemma sum_slotRank_update (slots : ℕ → Option (ThreadCommand × Worker)) {k : ℕ} (h : n < k)
    (x : Option (ThreadCommand × Worker)) :
    ∑ m ∈ Finset.range k, slotRank (Function.update slots n x m) + slotRank (slots n) =
      ∑ m ∈ Finset.range k, slotRank (slots m) + slotRank x := by
  have hmem : n ∈ Finset.range k := Finset.mem_range.mpr h
  have hrest : ∑ m ∈ (Finset.range k).erase n, slotRank (Function.update slots n x m) =
      ∑ m ∈ (Finset.range k).erase n, slotRank (slots m) := by
    refine Finset.sum_congr rfl fun m hm => ?_
    rw [Function.update_of_ne (Finset.ne_of_mem_erase hm)]
  rw [← Finset.add_sum_erase _ _ hmem, ← Finset.add_sum_erase _ (fun m => slotRank (slots m)) hmem,
    hrest, Function.update_self]
  omega

/-- A move of a thread that the world answers brings it closer to its end. -/
lemma rank_move {v v' : Worker} {wa : WorkerAction} {conn : Db} {flag : Bool}
    (hdry : u.dryRun = false) (hknows : Knows w c v)
    (hserves : Serves w (.worker n wa) fs w') (hmove : u.Move conn₀ c v wa fs v' conn flag) :
    v'.rank < v.rank := by
  cases hmove with
  | differs md5 hmd5 => simp [startUpload, hdry, Worker.rank]
  | put r system request response result hreq hnext =>
      cases hserves with
      | put _ _ _ _ b _ hb hmem =>
          obtain rfl : r = {} := hknows
          rw [next_answer] at hnext
          obtain rfl := Option.some.inj hnext
          rw [afterUpload_answer]
          simp [Worker.rank]
  | notPut r attempt result hsend hopen hnext => cases hserves
  | _ => simp [Worker.rank]

/-- **A step that the world answers brings the run closer to its end.** -/
lemma rank_step (h : InProgress u pfx w files conn₀ es t) (hdry : u.dryRun = false)
    (hs : u.step files pfx t a = some (t', fs)) (hserves : Serves w a fs w') :
    rank u files t' < rank u files t := by
  have hle := h.placed.position_le
  have hclean := (h.working.transition h.placed h.ledger h.keys hdry (step_transition hs)
    hserves).clean
  cases step_transition hs with
  | more i hpc hfailed hi => simp [rank, hpc, Dispatcher.rank]
  | done i hpc hend => simp [rank, hpc, Dispatcher.rank]
  | skipped i file answer hpc hfile hskip =>
      have hi := h.placed.stating i hpc
      simp only [rank, State.goto_pc, State.goto_slots, hpc, Dispatcher.rank]
      omega
  | stated i file fileInfo hpc hfile hsize => simp [rank, hpc, Dispatcher.rank]
  | lookupFailed i fileInfo file fails hpc hfile hfails =>
      exact absurd hclean.1 (by simp)
  | upToDate i fileInfo file fails hpc hfile hsame =>
      have hi := (h.placed.looking i fileInfo hpc).1
      simp only [rank, State.goto_pc, State.goto_slots, hpc, Dispatcher.rank]
      omega
  | outdated i fileInfo file fails hpc hfile hrow =>
      simp [rank, hpc, Dispatcher.rank, command]
  | dispatched n c hpc hn hfree =>
      have hi := (h.placed.sleeping c hpc).1
      have hsum := sum_slotRank_update t.slots hn (some (c, u.enter c))
      have henter : (u.enter c).rank ≤ 5 := by
        rcases u.enter_cases c with ⟨h, -⟩ | ⟨h, -⟩ | ⟨h, -⟩ <;> simp [h, Worker.rank]
      rw [hfree, slotRank_none, slotRank_some] at hsum
      simp only [rank, State.goto_pc, State.goto_slots, State.setSlot, hpc, Dispatcher.rank]
      omega
  | notCreated n c hpc => exact absurd rfl hclean.2.1
  | joined hpc hfree => simp [rank, hpc, Dispatcher.rank]
  | lost n c v wa fs hrun hslot hlost => exact absurd rfl hclean.2.2
  | freed n c hrun hslot =>
      have hn := (h.placed.job n c _ hslot).1
      have hsum := sum_slotRank_update t.slots hn none
      have hone : Worker.finishing.rank = 1 := rfl
      rw [hslot, slotRank_none, slotRank_some, hone] at hsum
      simp only [rank, State.markFree]
      omega
  | move n c v v' wa fs conn flag hrun hslot hmove =>
      have hn := (h.placed.job n c v hslot).1
      have hlt := rank_move hdry (h.working.stated n c v hslot).2 hserves hmove
      have hsum := sum_slotRank_update t.slots hn (some (c, v'))
      rw [hslot, slotRank_some, slotRank_some] at hsum
      simp only [rank, State.setSlot]
      omega

/-! ## The last run does not stop early -/

/-- What the run has been told of the files still holds. -/
def Current (w : World backend) (es : List Event) : Prop :=
  ∀ i path answer, .stat i path answer ∈ es →
    ∃ fileInfo, answer = some fileInfo ∧ (w.files path).Stats fileInfo

lemma Serves.files_eq (h : Serves w a fs w') : w'.files = w.files := by
  cases h <;> rfl

lemma Current.step (h : Current w es) (hserves : Serves w a fs w') : Current w' (es ++ fs) := by
  intro i path answer hmem
  rw [hserves.files_eq]
  rcases List.mem_append.mp hmem with hmem | hmem
  · exact h i path answer hmem
  · cases hserves with
    | stat j p fileInfo hstats =>
        cases List.mem_singleton.mp hmem
        exact ⟨fileInfo, rfl, hstats⟩
    | _ => simp at hmem

lemma anyone_known : Known anyone := ⟨rfl, rfl⟩

/-- A thread can always go on. -/
lemma InProgress.worker_next (h : InProgress u pfx w files conn₀ es t)
    (hcurrent : Current w es) {v : Worker} (hrun : t.pc.running = true)
    (hslot : t.slots n = some (c, v)) : ∃ p, Next (u.step files pfx) Serves p (t, w) := by
  have hnext : ∀ (wa : WorkerAction) (t' : State) {fs : List Event} {w' : World backend},
      u.workerStep t n c v wa = some (t', fs) → Serves w (.worker n wa) fs w' →
      ∃ p, Next (u.step files pfx) Serves p (t, w) := by
    intro wa t' fs w' hs hserves
    exact ⟨(t', w'), .worker n wa, fs, by simp only [step, hrun, if_true, hslot, hs], hserves⟩
  have hknows := (h.working.stated n c v hslot).2
  cases v with
  | checking => exact hnext _ _ rfl (.read n c)
  | updatingMeta =>
      obtain ⟨tr, hgo, hok, -⟩ := backend.accepts []
      obtain ⟨request, hreq⟩ :
          ∃ request, u.updateMetaRequest c.path c.contentType c.fileInfo anyone = some request :=
        ⟨_, rfl⟩
      refine hnext (.updateMeta (.performed anyone (backend.answer [])))
        (t.setSlot n c (.storing c.storedMd5)) ?_ (.copy n c anyone request [] anyone_known)
      simp only [workerStep, Attempt.unopened, exchange, hreq, updateMeta, hgo, hok,
        Option.map_some, Bool.false_eq_true, if_false]
      rfl
  | uploading r =>
      obtain rfl : r = {} := hknows
      obtain ⟨request, hreq⟩ := request_built (u := u) c.realLocalPath c.path none c.contentType
        c.fileInfo
      obtain ⟨fileInfo, hinfo, hstats⟩ := hcurrent _ _ _ (h.placed.job n c _ hslot).2.2.stat
      obtain rfl := Option.some.inj hinfo
      obtain ⟨b, hb⟩ : ∃ b, b = (w.files c.realLocalPath).content.take c.fileInfo.size := ⟨_, rfl⟩
      have hmem : b ∈ backend.occurring := by
        rw [hb, hstats.size, List.take_length]
        exact (w.files c.realLocalPath).content_mem
      refine hnext (.upload (.performed anyone (backend.answer b)))
        (t.setSlot n c (afterUpload (.success 200 (backend.md5 b)))) ?_
        (.put n c anyone request b anyone_known hb hmem)
      simp only [workerStep, Attempt.unopened, exchange, hreq, next_answer, Option.map_some,
        Bool.false_and, Bool.false_eq_true, if_false]
      rfl
  | storing m => exact hnext _ _ rfl (.store n c _)
  | failing => exact absurd hknows id
  | finishing => exact hnext _ _ rfl (.markFree n)

/-- **A run that has not returned can go on.** -/
theorem InProgress.next (h : InProgress u pfx w files conn₀ es t) (hcurrent : Current w es)
    (hpc : ∀ success, t.pc ≠ .returned success) :
    ∃ p, Next (u.step files pfx) Serves p (t, w) := by
  have hnext : ∀ (a : Action) (t' : State) {fs : List Event} {w' : World backend},
      u.step files pfx t a = some (t', fs) → Serves w a fs w' →
      ∃ p, Next (u.step files pfx) Serves p (t, w) :=
    fun a t' {fs w'} hs hserves => ⟨(t', w'), a, fs, hs, hserves⟩
  rcases hpc' : t.pc with i | i | ⟨i, fileInfo⟩ | c | _ | success | _ | _
  case top =>
    by_cases hend : t.failed = true ∨ files.length ≤ i
    · refine hnext .check (t.goto .joining) ?_ .check
      simp only [step, hpc']
      exact if_pos hend
    · refine hnext .check (t.goto (.stating i)) ?_ .check
      simp only [step, hpc']
      exact if_neg hend
  case stating =>
    obtain ⟨file, hfile⟩ : ∃ file, files[i]? = some file :=
      ⟨_, List.getElem?_eq_getElem (h.placed.stating i hpc')⟩
    obtain ⟨fileInfo, hstats⟩ := (w.files (pathOf pfx file)).exists_stats
    refine hnext (.stat (some fileInfo)) (t.goto (.looking i fileInfo)) ?_
      (.stat i (pathOf pfx file) fileInfo hstats)
    simp only [step, hpc', hfile]
    refine if_neg (not_le.mpr ?_)
    rw [hstats.size]
    exact (w.files (pathOf pfx file)).size_lt
  case looking =>
    obtain ⟨file, hfile⟩ : ∃ file, files[i]? = some file :=
      ⟨_, List.getElem?_eq_getElem (h.placed.looking i fileInfo hpc').1⟩
    by_cases hup : UpToDate t.conn (u.keyOf file) fileInfo
    · refine hnext (.lookup noFaults) (t.goto (.top (i + 1))) ?_ .lookup
      simp only [step, hpc', hfile, lookup_noFaults]
      exact if_pos hup
    · refine hnext (.lookup noFaults) (t.goto (.sleeping (u.command pfx i file fileInfo
        (rowOf t.conn (u.keyOf file))))) ?_ .lookup
      simp only [step, hpc', hfile, lookup_noFaults]
      exact if_neg hup
  case sleeping =>
    rcases hslot : t.slots 0 with _ | ⟨d, v⟩
    · refine hnext (.dispatch 0 true)
        ((t.setSlot 0 c (u.enter c)).goto (.top (c.index + 1))) ?_ (.dispatch 0)
      simp only [step, hpc', u.uploadThreads_pos, hslot, Option.isNone_none, and_self, if_true]
    · exact h.worker_next hcurrent (by rw [hpc']; rfl) hslot
  case joining =>
    by_cases hfree : ∀ n < u.uploadThreads, (t.slots n).isNone
    · refine hnext .join (t.goto (.returned (!t.failed))) ?_ .join
      simp only [step, hpc']
      exact if_pos hfree
    · simp only [not_forall] at hfree
      obtain ⟨n, -, hn⟩ := hfree
      rcases hslot : t.slots n with _ | ⟨d, v⟩
      · simp [hslot] at hn
      · exact h.worker_next hcurrent (by rw [hpc']; rfl) hslot
  case returned => exact absurd hpc' (hpc success)
  case exited => exact absurd hpc' h.working.clean.2.1
  case crashed => exact absurd hpc' h.working.clean.2.2

/-! ## No edit is lost -/

/-- The present content of every listed file is in the bucket. -/
def BackedUp (u : Uploader) (pfx : Bytes) (w : World backend) (files : LocalFileList) : Prop :=
  ∀ file ∈ files, w.bucket (u.keyOf file) = some (w.files (pathOf pfx file)).content

/-- A run that has returned success over files that did not change has backed them up. -/
lemma InProgress.backedUp (h : InProgress u pfx w files conn₀ es t)
    (hcurrent : Current w es) (hpc : t.pc = .returned true) : BackedUp u pfx w files := by
  intro file hfile
  obtain ⟨i, hi⟩ := List.mem_iff_getElem?.mp hfile
  obtain ⟨answer, hstat, hcases⟩ := returned_account h.placed h.ledger hpc hi
  obtain ⟨fileInfo, rfl, hstats⟩ := hcurrent _ _ _ hstat
  have hsmall : fileInfo.size < MAX_S3_FILE_SIZE := by
    rw [hstats.size]
    exact (w.files (pathOf pfx file)).size_lt
  have hkept := (mtime_kept_iff fileInfo).mpr (by
    rw [hstats.mtime]
    exact ⟨(w.files (pathOf pfx file)).mtime_pos, (w.files (pathOf pfx file)).mtime_lt⟩)
  -- the row is there, with the present mtime
  have hrow : ∃ row, t.conn.view.lookup (u.keyOf file) = some row ∧
      row.mtime = fileInfo.mtime64 := by
    rcases hcases with ⟨hskip, -⟩ | ⟨st, hst, -, ⟨hup, hsame⟩ | ⟨-, md5, hnew⟩⟩
    · exact absurd (hskip fileInfo rfl) (not_le.mpr hsmall)
    · obtain rfl := Option.some.inj hst
      rcases hlook : conn₀.view.lookup (u.keyOf file) with _ | row
      · have hpos := hup.1
        rw [rowOf, hlook] at hpos
        simp at hpos
      · refine ⟨row, hsame.trans hlook, ?_⟩
        have heq := hup.2
        rw [rowOf, hlook] at heq
        exact heq
    · obtain rfl := Option.some.inj hst
      exact ⟨_, hnew, hkept.2⟩
  obtain ⟨row, hlook, hmtime⟩ := hrow
  obtain ⟨mtime, hrec, b, hb, -, -, hpresent⟩ := h.returned hpc (file.path.drop 1) row hlook
  have hnow : (w.files (pathOf pfx file)).mtime = mtime := by
    rw [← hstats.mtime]
    have hcolumn : fileInfo.mtime.toUInt64 = mtime.toUInt64 := hmtime.symm.trans hrec.eq
    rw [← Int64.toInt64_toUInt64 fileInfo.mtime, hcolumn, Int64.toInt64_toUInt64]
  rw [keyOf, hb, hpresent hnow]
  rfl

/-- **No edit is lost.**  After any session that began with an empty table, whatever the bucket
held, one more run during which no file is written ends, and ends with success and with the present
content of every listed file in the bucket. -/
theorem no_lost_edit {s : Session} {fs : List Event} (hdry : u.dryRun = false)
    (h : Run (sessionStep u pfx) Answers { conn := { committed := ∅ } } w fs s w')
    (hidle : s.run = none) (hnodup : files.paths.Nodup) (hrooted : files.Rooted) :
    Terminating (u.step files pfx) Serves { conn := s.conn } w' ∧
      ∀ es t w'', Run (u.step files pfx) Serves { conn := s.conn } w' es t w'' →
        (¬ ∃ p, Next (u.step files pfx) Serves p (t, w'')) →
        t.pc = .returned true ∧ w''.files = w'.files ∧ BackedUp u pfx w'' files := by
  have hsynced := synced_run hdry h (by
    refine ⟨rfl, fun relative row hrow => ?_⟩
    simp [Connection.view] at hrow)
  have hstart : InProgress u pfx w' files s.conn [] { conn := s.conn } := by
    simp only [Synced, hidle] at hsynced
    exact inProgress_start hsynced.1 hsynced.2 hnodup hrooted
  constructor
  · refine terminating_of_measure (I := fun t x => ∃ es, InProgress u pfx x files s.conn es t)
      (fun t _ => rank u files t) ?_ ⟨[], hstart⟩
    rintro t x a fs t' y ⟨es, hI⟩ hs henv
    exact ⟨⟨es ++ fs, hI.advance hdry hs henv⟩, rank_step hI hdry hs henv⟩
  · intro es t w'' hrun hstuck
    obtain ⟨hprogress, hcurrent, hfiles⟩ : InProgress u pfx w'' files s.conn es t ∧
        Current w'' es ∧ w''.files = w'.files := by
      refine hrun.invariant (I := fun es t x => InProgress u pfx x files s.conn es t ∧
        Current x es ∧ x.files = w'.files) ⟨hstart, ?_, rfl⟩ ?_
      · intro i path answer hmem
        cases hmem
      · intro es t x a fs t' y hI hs henv
        exact ⟨hI.1.advance hdry hs henv, hI.2.1.step henv, henv.files_eq.trans hI.2.2⟩
    have hreturned : t.pc = .returned true := by
      by_contra hne
      refine hstuck (hprogress.next hcurrent ?_)
      intro success hpc
      have hsuccess := (hprogress.placed.returned success hpc).1
      rw [hprogress.working.clean.1] at hsuccess
      subst hsuccess
      exact hne hpc
    exact ⟨hreturned, hfiles, hprogress.backedUp hcurrent hreturned⟩

/-! ### A session with an edit between the `lstat` and the PUT -/

/-- The digits of the MD5, with those of two contents written out. -/
def sampleDigest (b : Bytes) : Bytes :=
  if b = [] then ascii "d41d8cd98f00b204e9800998ecf8427e"
  else if b = ascii "abc" then ascii "900150983cd24fb0d6963f7d28e17f72"
  else hex (md5 b)

lemma sampleDigest_eq (b : Bytes) : sampleDigest b = hex (md5 b) := by
  unfold sampleDigest
  split_ifs with hempty habc
  · rw [hempty]
    decide +kernel
  · rw [habc]
    decide +kernel
  · rfl

/-- A server that computes the MD5 of what it gets. -/
def sampleBackend : Backend where
  md5 := sampleDigest
  md5_length b := by rw [sampleDigest_eq, length_hex, length_md5]
  occurring := {[], ascii "abc"}
  md5_injOn := by
    rintro a (rfl | rfl) b (rfl | rfl) h
    · rfl
    · exact absurd h (by decide)
    · exact absurd h (by decide)
    · rfl
  answer b :=
    { code := .ok
      responseCode := 200
      headers := ascii "HTTP/1.1 200 OK\r\nETag: \"" ++ sampleDigest b ++ ascii "\"\r\n\r\n" }
  accepts b := by
    have hname : OnOneLine (ascii "ETag", []) :=
      ⟨by decide, by decide, by decide, by decide⟩
    have hetag : ∀ h ∈ [(ascii "ETag", ascii "\"" ++ sampleDigest b ++ ascii "\"")],
        OnOneLine h := by
      obtain ⟨hcr, hlf, hnul⟩ := sampleDigest_eq b ▸ hex_plain (md5 b)
      have hquote : 13 ∉ ascii "\"" ∧ 10 ∉ ascii "\"" ∧ 0 ∉ ascii "\"" := by decide
      intro h hh
      obtain rfl := List.mem_singleton.mp hh
      exact ⟨hname.nameNonempty, hname.name, hname.noStatus, by simp [hcr, hquote],
        by simp [hlf, hquote], by simp [hnul, hquote]⟩
    have hstatus : ascii "HTTP/1" <+: ascii "HTTP/1.1 200 OK" := by decide
    have hparse := parseHeaders_lines hstatus (by decide) hetag
    have htext : ascii "HTTP/1.1 200 OK\r\nETag: \"" ++ sampleDigest b ++ ascii "\"\r\n\r\n" =
        ascii "HTTP/1.1 200 OK" ++ [13, 10] ++ HeaderText.write
          [(ascii "ETag", ascii "\"" ++ sampleDigest b ++ ascii "\"")] ++ [13, 10] := by
      have hstart : ascii "HTTP/1.1 200 OK\r\nETag: \"" =
          ascii "HTTP/1.1 200 OK" ++ [13, 10] ++ (ascii "ETag" ++ [58, 32] ++ ascii "\"") := by
        decide
      have hend : ascii "\"\r\n\r\n" = ascii "\"" ++ [13, 10] ++ [13, 10] := by decide
      rw [hstart, hend]
      simp [HeaderText.write, HeaderText.writeLine]
    rw [← htext] at hparse
    refine ⟨_, by rw [Response.go, hparse], rfl, ?_, rfl⟩
    dsimp only
    exact ite_self 200

/-- The file before the edit. -/
def sampleBefore : LocalCopy sampleBackend.occurring where
  content := ascii "abc"
  mtime := 1
  past := {1}
  mtime_mem := rfl
  mtime_pos := by decide
  mtime_lt := by decide
  content_mem := Or.inr rfl
  size_lt := by decide

/-- The file after the edit, which emptied it. -/
def sampleAfter : LocalCopy sampleBackend.occurring where
  content := []
  mtime := 2
  past := {2, 1}
  mtime_mem := Or.inl rfl
  mtime_pos := by decide
  mtime_lt := by decide
  content_mem := Or.inl rfl
  size_lt := by decide

/-- Every file as it is before the edit, and nothing in the bucket. -/
def sampleWorld : World sampleBackend := ⟨fun _ => sampleBefore, fun _ => none⟩

/-- The list of one file. -/
def sampleFiles : LocalFileList := [⟨ascii "/a", 3⟩]

/-- A run over `/a` that sees the file before the edit and sends it after it. -/
def sampleSession : List SessionAction :=
  [.start sampleFiles, .step .check, .step (.stat (some (sampleStat 1))),
    .step (.lookup noFaults), .step (.dispatch 0 true), .write (ascii "src/a") [] 2,
    .step (.worker 0 (.upload (.performed sampleSystem (sampleBackend.answer [])))),
    .step (.worker 0 (.store noFaults)), .step (.worker 0 .markFree), .step .check, .step .join,
    .finish]

lemma sampleBefore_stats : sampleBefore.Stats (sampleStat 1) :=
  ⟨show (0o100644 &&& 0xA000 == (0xA000 : UInt32)) = false by decide, by decide, rfl⟩

lemma sampleAfter_writes : Writes sampleBefore [] 2 sampleAfter :=
  ⟨show (2 : Int64) ∉ ({1} : Set Int64) by simp, rfl, rfl, rfl⟩

/-- The session can happen. -/
lemma sampleSession_run : ∃ s es w', s.run = none ∧
    Run (sessionStep (sampleUploader []) (ascii "src")) Answers { conn := { committed := ∅ } }
      sampleWorld es s w' := by
  obtain ⟨s, tr, hexec, hrun⟩ : ∃ s tr, exec (sessionStep (sampleUploader []) (ascii "src"))
      { conn := { committed := ∅ } } sampleSession = some (s, tr) ∧ s.run = none :=
    ⟨_, _, rfl, rfl⟩
  obtain ⟨w', haccepts⟩ : ∃ w', Accepts Answers sampleWorld tr w' := by
    cases hexec
    exact ⟨_, _, .start _ (by decide) (by decide), _, .step _ _ _ .check, _,
      .step _ _ _ (.stat 0 _ _ sampleBefore_stats), _, .step _ _ _ .lookup, _,
      .step _ _ _ (.dispatch _), _, .write _ _ _ _ sampleAfter_writes, _,
      .step _ _ _ (.put _ _ _ _ [] ⟨rfl, rfl⟩ rfl (Or.inl rfl)), _, .step _ _ _ (.store _ _ _), _,
      .step _ _ _ (.markFree _), _, .step _ _ _ .check, _, .step _ _ _ .join, _, .finish, rfl⟩
  exact ⟨s, shown tr, w', hrun, exec_run hexec haccepts⟩

/-- After such a session one more run makes up for the edit. -/
theorem no_lost_edit_sample : ∃ (s : Session) (w' : World sampleBackend),
    Terminating ((sampleUploader []).step sampleFiles (ascii "src")) Serves
        { conn := s.conn } w' ∧
      ∀ es t w'', Run ((sampleUploader []).step sampleFiles (ascii "src")) Serves
          { conn := s.conn } w' es t w'' →
        (¬ ∃ p, Next ((sampleUploader []).step sampleFiles (ascii "src")) Serves p (t, w'')) →
        t.pc = .returned true ∧ w''.files = w'.files ∧
          BackedUp (sampleUploader []) (ascii "src") w'' sampleFiles := by
  obtain ⟨s, es, w', hidle, hrun⟩ := sampleSession_run
  exact ⟨s, w', no_lost_edit rfl hrun hidle (by decide) (by decide)⟩

end Uploader

end Clarc
