import Clarc.Listing.RebuildDatabase
import Clarc.Listing.ResolveMtimes
import Clarc.Upload.SentRows

/-!
# The rows after a rebuild

A run stores a row for each file it sends; a rebuild makes the rows anew from what the bucket kept.
The md5 goes through two extractors, which agree on what is stored (`md5From_listed`).  The mtime
goes through a cast to 32 bits on the one way, and on the other through the text of an unsigned
number that is read as a signed one: `atoll` stops at the largest `long long`, where the times
before 1970 begin as unsigned numbers.

* `mtime_recovered_iff` — the two ways lead to the same value for the times from 1970 on, and for
  the earlier ones whose low 32 bits are all set;
* `rebuild_recovers_iff` — **a rebuild recovers the rows of the files that a run sent exactly when
  they have such times**.
-/

namespace Clarc

open Bytes Reactive Sqlite RemoteListOfFiles

namespace Uploader

/-! ## Both ways of an mtime -/

/-- **When the header gives back what the upload stored.** -/
theorem mtime_recovered_iff (fileInfo : Stat) :
    UInt32.ofInt (atoll (decimal fileInfo.mtime64.toNat)) = fileInfo.mtime32 ↔
      0 ≤ fileInfo.mtime ∨ fileInfo.mtime32 = 0xFFFFFFFF := by
  have hsign : (fileInfo.mtime.toInt = fileInfo.mtime64.toNat ∧
      fileInfo.mtime64.toNat < 2 ^ 63) ∨ (fileInfo.mtime.toInt < 0 ∧
        2 ^ 63 ≤ fileInfo.mtime64.toNat) := by
    have hcond : fileInfo.mtime.toInt = if 2 * fileInfo.mtime64.toNat < 2 ^ 64
        then (fileInfo.mtime64.toNat : ℤ) else (fileInfo.mtime64.toNat : ℤ) - (2 ^ 64 : ℕ) :=
      BitVec.toInt_eq_toNat_cond fileInfo.mtime.toBitVec
    have hlt := fileInfo.mtime64.toNat_lt
    split_ifs at hcond with h
    · exact Or.inl ⟨hcond, by omega⟩
    · exact Or.inr ⟨by omega, by omega⟩
  have hzero : (0 : Int64).toInt = 0 := by decide
  have hofNat : ∀ n : ℕ, UInt32.ofInt (n : ℤ) = UInt32.ofNat n := by
    intro n
    apply UInt32.toNat.inj
    simp only [UInt32.ofInt, UInt32.toNat_ofNat']
    omega
  rw [atoll_decimal, hofNat, Int64.le_iff_toInt_le, hzero]
  rcases hsign with ⟨hint, hlt⟩ | ⟨hint, hge⟩
  · -- the number is read as it was printed
    have hmin : min fileInfo.mtime64.toNat longLongMax = fileInfo.mtime64.toNat := by
      rw [longLongMax]
      omega
    rw [hmin]
    refine iff_of_true ?_ (Or.inl (by omega))
    rw [Stat.mtime32, ← Stat.mtime64, ← UInt64.toUInt32_ofNat', UInt64.ofNat_toNat]
  · have hmin : min fileInfo.mtime64.toNat longLongMax = longLongMax := by
      rw [longLongMax]
      omega
    rw [hmin]
    have hmax : UInt32.ofNat longLongMax = 0xFFFFFFFF := by decide
    rw [hmax]
    constructor
    · exact fun h => Or.inr h.symm
    · rintro (h | h)
      · omega
      · exact h.symm

/-! ## Both ways of an md5 -/

/-- The md5 that the listing has of an object whose upload was answered so. -/
def listedMd5 (response : Response) : Option Bytes :=
  response.go.bind fun t => extractMd5FromEtag (t.getHeader (ascii "etag"))

/-- **The listing's extractor gives the md5 that the upload stored.** -/
lemma md5From_listed {response : Response} {md5 : Bytes} (h : md5From response = some md5) :
    listedMd5 response = some md5 := by
  obtain ⟨t, hgo, ht⟩ := Option.bind_eq_some_iff.mp h
  split_ifs at ht
  obtain ⟨-, hlen, hmd5⟩ := md5ToStore_eq_some.mp ht
  rw [listedMd5, hgo, Option.bind_some]
  generalize t.getHeader (ascii "etag") = header at hlen hmd5
  rcases header with _ | etag
  · cases hlen
  · simp only [extractMD5FromETagHeaders] at hlen hmd5
    split_ifs at hlen hmd5 with h34 hquotes
    · have hetag : etag.length = 34 := not_not.mp h34
      rw [extractMd5FromEtag, if_neg (by omega), List.dropLast_eq_take, ← hmd5, List.length_drop,
        hetag]

/-! ## A rebuild -/

/-- The header in which the mtime travels. -/
def mtimeHeader : Bytes := ascii "x-amz-meta-mtime"

lemma mtimeHeader_mem {u : Uploader} {localPath remotePath contentType : Bytes} {url : Option Bytes}
    {fileInfo : Stat} {system : System} {request : Request}
    (h : u.uploadFileRequest localPath remotePath url contentType fileInfo system =
      some request) :
    (mtimeHeader, decimal fileInfo.mtime64.toNat) ∈ request.headers := by
  unfold uploadFileRequest at h
  split at h
  · obtain rfl := Option.some.inj h
    simp [statHeaders, mtimeHeader]
  · cases h

/-- The list has each sent file with the md5 of its response, and no path twice. -/
structure Listed (u : Uploader) (es : List Event) (remote : List RemoteFile) : Prop where
  nodup : (remote.map RemoteFile.path).Nodup
  listed : ∀ c request response md5, Sent u es c request response md5 →
    ∃ f ∈ remote, f.path = c.path ∧ listedMd5 response = some f.md5

/-- A completed HEAD of a sent file has the mtime header of the request that sent it. -/
def AnswersHead (u : Uploader) (es : List Event) : HeadEvent → Prop
  | .head remotePath _ response => ∀ c request response' md5, Sent u es c request response' md5 →
      c.path = remotePath → ∀ t, response.go = some t → t.res = .ok → t.httpStatusCode = 200 →
        ∀ value, (mtimeHeader, value) ∈ request.headers → t.getHeader mtimeHeader = some value

/-- The mtime of a path that sent files have is the one that their headers lead to. -/
def FromHeader (u : Uploader) (es : List Event) (path : Bytes) (mtime : UInt32) : Prop :=
  ∀ c request response md5, Sent u es c request response md5 → c.path = path →
    mtime = UInt32.ofInt (atoll (decimal c.fileInfo.mtime64.toNat))

lemma AnswersHead.tells {u : Uploader} {es : List Event} {e : HeadEvent} (h : AnswersHead u es e) :
    e.Tells (FromHeader u es) := by
  rcases e with ⟨remotePath, request', response'⟩
  intro t hgo hok h200 c request response md5 hsent hpath
  obtain ⟨url, system, hbuilt⟩ := hsent.built
  have hheader := h c request response md5 hsent hpath t hgo hok h200 _ (mtimeHeader_mem hbuilt)
  rw [mtimeHeader] at hheader
  rw [extractMtimeFromMicroCurl, hheader]

/-- A rebuild that succeeds leaves the rows of the list. -/
lemma rebuildDatabase_spec {truncateFails : Faults} {storeFails : ℕ → Faults}
    {remote : List RemoteFile} {conn conn' : Db}
    (h : (rebuildDatabase false truncateFails storeFails true true remote).runOn conn =
      (some (), conn')) :
    conn'.committed = FileListStorage.insertAll ∅ remote := by
  have hspec : (rebuildDatabase false truncateFails storeFails true true remote).wp
      (fun r c' => r ≠ none → c'.committed = FileListStorage.insertAll ∅ remote) conn := by
    rw [rebuildDatabase, if_neg (by decide), if_neg (by decide), if_neg (by decide),
      Script.wp_bind]
    refine Script.wp_mono _ (FileListStorage.truncate_spec truncateFails conn) ?_
    rintro (_ | _) c' hc'
    · exact fun hr => absurd rfl hr
    · obtain ⟨rfl, -⟩ := hc'
      exact FileListStorage.storeRemoteListOfFiles_spec storeFails remote _
  rw [Script.wp, h] at hspec
  exact hspec (by simp)

variable {u : Uploader} {files : LocalFileList} {pfx : Bytes} {conn₀ : Db} {es : List Event}
  {s : State}

/-- **When a rebuild recovers the rows.**  After a run that succeeded, and a listing and HEADs that
give back what the run sent, the rows of the files it sent are the ones they had exactly when each
of these files has an mtime from 1970 on, or one whose low 32 bits are all set. -/
theorem rebuild_recovers_iff {ω : Type} {env : Environment ω Action Event} {x x' : ω}
    {remote : List RemoteFile} {c : AmazonCredentials} {useSsl : Bool} {hs : List HeadEvent}
    {r : Resolve} {truncateFails : Faults} {storeFails : ℕ → Faults} {conn conn' : Db}
    (hkeys : KeysDistinct u files) (hdry : u.dryRun = false) (hconn : conn₀.Settled)
    (h : Run (u.step files pfx) env { conn := conn₀ } x es s x') (hpc : s.pc = .returned true)
    (hlisted : Listed u es remote)
    (hresolve : Run (resolveStep c useSsl) (always fun _ fs => ∀ e ∈ fs, AnswersHead u es e)
      (.start remote) () hs r ())
    (hresolved : r.pc = .returned true)
    (hrebuild : (rebuildDatabase false truncateFails storeFails true true r.files).runOn conn =
      (some (), conn')) :
    (∀ d request response md5, Sent u es d request response md5 →
      conn'.committed.lookup d.path = s.conn.committed.lookup d.path) ↔
    ∀ d request response md5, Sent u es d request response md5 →
      0 ≤ d.fileInfo.mtime ∨ d.fileInfo.mtime32 = 0xFFFFFFFF := by
  obtain ⟨hsame, hmtimes⟩ := resolved_run (P := FromHeader u es)
    (hresolve.mapEnv id fun hall e he => (hall e he).tells) hresolved
  -- the rebuilt row of a sent file
  have hrebuilt : ∀ d request response md5, Sent u es d request response md5 →
      conn'.committed.lookup d.path =
        some ⟨md5, (UInt32.ofInt (atoll (decimal d.fileInfo.mtime64.toNat))).toUInt64⟩ := by
    intro d request response md5 hsent
    obtain ⟨f, hf, hpath, hmd5⟩ := hlisted.listed d request response md5 hsent
    have hf' : (f.path, f.md5) ∈ r.files.map fun f => (f.path, f.md5) := by
      rw [hsame]
      exact List.mem_map_of_mem hf
    obtain ⟨g, hg, heq⟩ := List.mem_map.mp hf'
    obtain ⟨hgpath, hgmd5⟩ := Prod.mk.inj heq
    have hnodup : (r.files.map RemoteFile.path).Nodup := by
      have hpaths : r.files.map RemoteFile.path = remote.map RemoteFile.path := by
        simpa [Function.comp_def] using congrArg (List.map Prod.fst) hsame
      rw [hpaths]
      exact hlisted.nodup
    have hmtime : g.mtime = UInt32.ofInt (atoll (decimal d.fileInfo.mtime64.toNat)) :=
      hmtimes g hg d request response md5 hsent (hpath.symm.trans hgpath.symm)
    have hmd5' : g.md5 = md5 := by
      rw [md5From_listed hsent.answered] at hmd5
      exact hgmd5.trans (Option.some.inj hmd5).symm
    rw [rebuildDatabase_spec hrebuild, ← hpath, ← hgpath,
      FileListStorage.lookup_insertAll ∅ hg hnodup, hmtime, hmd5']
  have hstored : ∀ d request response md5, Sent u es d request response md5 →
      s.conn.committed.lookup d.path = some ⟨md5, d.fileInfo.mtime32.toUInt64⟩ :=
    fun _ _ _ _ hsent => sent_rows_run hkeys hdry hconn h hpc hsent
  -- the md5s agree, so the rows differ in their mtimes only
  have hrow : ∀ d request response md5, Sent u es d request response md5 →
      (conn'.committed.lookup d.path = s.conn.committed.lookup d.path ↔
        0 ≤ d.fileInfo.mtime ∨ d.fileInfo.mtime32 = 0xFFFFFFFF) := by
    intro d request response md5 hsent
    rw [hrebuilt d request response md5 hsent, hstored d request response md5 hsent,
      ← mtime_recovered_iff]
    constructor
    · intro heq
      have hmtime := congrArg Row.mtime (Option.some.inj heq)
      exact UInt32.toUInt64_inj.mp hmtime
    · intro heq
      rw [heq]
  constructor
  · intro hall d request response md5 hsent
    exact (hrow d request response md5 hsent).mp (hall d request response md5 hsent)
  · intro hall d request response md5 hsent
    exact (hrow d request response md5 hsent).mpr (hall d request response md5 hsent)

/-! ## One file, sent and listed -/

/-- The md5 that `sampleResponse` gives. -/
def sampleMd5 : Bytes := ascii "900150983cd24fb0d6963f7d28e17f72"

/-- The file is the one of `sampleActions`, and so are the request and the response. -/
def SampleSent (mtime : Int64) : Event → Prop
  | .put c request response => c.path = ascii "a" ∧ c.fileInfo = sampleStat mtime ∧
      md5From response = some sampleMd5 ∧
      (sampleUploader []).uploadFileRequest c.realLocalPath c.path none c.contentType c.fileInfo
        sampleSystem = some request ∧
      ∀ p ∈ request.headers, p.1 = mtimeHeader → p.2 = decimal (sampleStat mtime).mtime64.toNat
  | .stat _ _ _ | .read _ _ | .copy _ _ _ | .row _ _ => True

instance (mtime : Int64) (e : Event) : Decidable (SampleSent mtime e) :=
  match e with
  | .put _ _ _ => inferInstanceAs (Decidable (_ ∧ _))
  | .stat _ _ _ | .read _ _ | .copy _ _ _ | .row _ _ => inferInstanceAs (Decidable True)

/-- The event is a PUT. -/
def Event.isPut : Event → Bool
  | .put _ _ _ => true
  | .stat _ _ _ | .read _ _ | .copy _ _ _ | .row _ _ => false

/-- A HEAD of the file. -/
def sampleHead (mtime : Int64) : Response where
  code := .ok
  responseCode := 200
  headers := ascii "HTTP/1.1 200 OK\r\nX-Amz-Meta-Mtime: " ++
    decimal (sampleStat mtime).mtime64.toNat ++ ascii "\r\n\r\n"

/-- The response has the header. -/
def SampleHeaded (mtime : Int64) : HeadEvent → Prop
  | .head _ _ response => (response.go.bind fun t => t.getHeader mtimeHeader) =
      some (decimal (sampleStat mtime).mtime64.toNat)

instance (mtime : Int64) (e : HeadEvent) : Decidable (SampleHeaded mtime e) :=
  inferInstanceAs (Decidable (_ = _))

/-- The file, listed. -/
def sampleListed : List RemoteFile := [⟨ascii "a", sampleMd5, 0⟩]

/-- Its HEAD, by one thread. -/
def sampleHeads (mtime : Int64) : List ResolveAction :=
  [.check, .dispatch 0 true, .worker 0 .start, .worker 0 (.head (some (sampleHead mtime))),
    .worker 0 .markFree, .checkFailed, .check, .join]

lemma SampleSent.sent {mtime : Int64} (h : ∀ e ∈ es, SampleSent mtime e) {d : ThreadCommand}
    {request : Request} {response : Response} {md5 : Bytes}
    (hsent : Sent (sampleUploader []) es d request response md5) :
    d.path = ascii "a" ∧ d.fileInfo = sampleStat mtime ∧ md5 = sampleMd5 ∧
      ∀ p ∈ request.headers, p.1 = mtimeHeader →
        p.2 = decimal (sampleStat mtime).mtime64.toNat := by
  obtain ⟨hpath, hstat, hmd5, -, hheaders⟩ := h _ hsent.put
  refine ⟨hpath, hstat, ?_, hheaders⟩
  rw [hsent.answered] at hmd5
  exact Option.some.inj hmd5

lemma SampleSent.listed {mtime : Int64} (h : ∀ e ∈ es, SampleSent mtime e) :
    Listed (sampleUploader []) es sampleListed where
  nodup := by decide
  listed := by
    intro d request response md5 hsent
    obtain ⟨hpath, -, rfl, -⟩ := SampleSent.sent h hsent
    exact ⟨_, List.mem_singleton_self _, hpath.symm, md5From_listed hsent.answered⟩

lemma SampleSent.answersHead {mtime : Int64} (h : ∀ e ∈ es, SampleSent mtime e) {e : HeadEvent}
    (he : SampleHeaded mtime e) : AnswersHead (sampleUploader []) es e := by
  rcases e with ⟨remotePath, request', response'⟩
  intro d request response md5 hsent _ t hgo _ _ value hvalue
  obtain ⟨-, -, -, hheaders⟩ := SampleSent.sent h hsent
  rw [SampleHeaded, hgo, Option.bind_some] at he
  have hsame : value = decimal (sampleStat mtime).mtime64.toNat := hheaders _ hvalue rfl
  rw [he, hsame]

theorem rebuild_recovers_iff_sample :
    ∃ es s remote hs r conn', Run ((sampleUploader []).step [⟨ascii "/a", 3⟩] (ascii "/home"))
        anything { conn := { committed := ∅ } } () es s () ∧ s.pc = .returned true ∧
      Run (resolveStep (sampleUploader []).amazonCredentials true)
        (always fun _ fs => ∀ e ∈ fs, AnswersHead (sampleUploader []) es e) (.start remote) () hs
        r () ∧ r.pc = .returned true ∧
      (rebuildDatabase false noFaults (fun _ => noFaults) true true r.files).runOn
        { committed := ∅ } = (some (), conn') ∧
      ∀ d request response md5, Sent (sampleUploader []) es d request response md5 →
        conn'.committed.lookup d.path = s.conn.committed.lookup d.path := by
  obtain ⟨es, s, hrun, hpc, hes⟩ := run_of_exec
    ((sampleUploader []).step [⟨ascii "/a", 3⟩] (ascii "/home"))
    { conn := { committed := ∅ } } (sampleActions 1000) (fun _ _ => True)
    (fun es s => s.pc = .returned true ∧ ∀ e ∈ es, SampleSent 1000 e) (by decide +kernel)
  obtain ⟨hs, r, hresolve, hresolved, hfiles⟩ := run_of_exec
    (resolveStep (sampleUploader []).amazonCredentials true) (.start sampleListed)
    (sampleHeads 1000) (fun _ fs => ∀ e ∈ fs, SampleHeaded 1000 e)
    (fun _ r => r.pc = .returned true ∧ r.files = [⟨ascii "a", sampleMd5, 1000⟩])
    (by decide +kernel)
  have hresolve' : Run (resolveStep (sampleUploader []).amazonCredentials true)
      (always fun _ fs => ∀ e ∈ fs, AnswersHead (sampleUploader []) es e) (.start sampleListed) ()
      hs r () :=
    hresolve.mapEnv id fun hall e he => SampleSent.answersHead hes (hall e he)
  have hrebuild : (rebuildDatabase false noFaults (fun _ => noFaults) true true r.files).runOn
      { committed := ∅ } = (some (), { committed := FileListStorage.insertAll ∅ r.files }) := by
    rw [hfiles]
    rfl
  refine ⟨es, s, sampleListed, hs, r, _, hrun, hpc, hresolve', hresolved, hrebuild, ?_⟩
  refine (rebuild_recovers_iff (keysDistinct (by decide) (by decide)) rfl (opened_mk ∅).1 hrun hpc
    (SampleSent.listed hes) hresolve' hresolved hrebuild).mpr ?_
  intro d request response md5 hsent
  obtain ⟨-, hstat, -⟩ := SampleSent.sent hes hsent
  rw [hstat]
  left
  decide

/-- Two seconds before 1970 the rebuilt row is another one. -/
theorem rebuilt_row_differs :
    ∃ es s remote hs r conn', Run ((sampleUploader []).step [⟨ascii "/a", 3⟩] (ascii "/home"))
        anything { conn := { committed := ∅ } } () es s () ∧ s.pc = .returned true ∧
      Listed (sampleUploader []) es remote ∧
      Run (resolveStep (sampleUploader []).amazonCredentials true)
        (always fun _ fs => ∀ e ∈ fs, AnswersHead (sampleUploader []) es e) (.start remote) () hs
        r () ∧ r.pc = .returned true ∧
      (rebuildDatabase false noFaults (fun _ => noFaults) true true r.files).runOn
        { committed := ∅ } = (some (), conn') ∧
      ∃ d request response md5, Sent (sampleUploader []) es d request response md5 ∧
        conn'.committed.lookup d.path ≠ s.conn.committed.lookup d.path := by
  obtain ⟨es, s, hrun, hpc, hes, hput, hrow⟩ := run_of_exec
    ((sampleUploader []).step [⟨ascii "/a", 3⟩] (ascii "/home"))
    { conn := { committed := ∅ } } (sampleActions (-2)) (fun _ _ => True)
    (fun es s => s.pc = .returned true ∧ (∀ e ∈ es, SampleSent (-2) e) ∧
      (∃ e ∈ es, e.isPut = true) ∧
      s.conn.committed.lookup (ascii "a") = some ⟨sampleMd5, 0xFFFFFFFE⟩) (by decide +kernel)
  obtain ⟨hs, r, hresolve, hresolved, hfiles⟩ := run_of_exec
    (resolveStep (sampleUploader []).amazonCredentials true) (.start sampleListed)
    (sampleHeads (-2)) (fun _ fs => ∀ e ∈ fs, SampleHeaded (-2) e)
    (fun _ r => r.pc = .returned true ∧ r.files = [⟨ascii "a", sampleMd5, 0xFFFFFFFF⟩])
    (by decide +kernel)
  have hrebuild : (rebuildDatabase false noFaults (fun _ => noFaults) true true r.files).runOn
      { committed := ∅ } = (some (), { committed := FileListStorage.insertAll ∅ r.files }) := by
    rw [hfiles]
    rfl
  obtain ⟨e, he, hisPut⟩ := hput
  rcases e with _ | _ | _ | ⟨d, request, response⟩ | _ <;> try cases hisPut
  obtain ⟨hpath, -, hmd5, hbuilt, -⟩ := hes _ he
  refine ⟨es, s, sampleListed, hs, r, _, hrun, hpc, SampleSent.listed hes,
    hresolve.mapEnv id fun hall e he => SampleSent.answersHead hes (hall e he), hresolved,
    hrebuild, d, request, response, sampleMd5, ⟨he, ⟨none, sampleSystem, hbuilt⟩, hmd5⟩, ?_⟩
  rw [hpath, hrow, hfiles]
  decide

end Uploader

end Clarc
