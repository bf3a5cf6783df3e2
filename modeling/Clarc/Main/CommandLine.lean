import Clarc.Main.Main

/-!
# The command line: `parseCommandline` of `main.cc` and `destination.cc`

`getopt_long` hands over the options one after another and leaves the other arguments behind them.
What it does with the words of the command line — abbreviations, `=`, the arguments of options — is
the C library's; a `CommandLine` is what it returns.  `parseCommandline` goes through the options,
each of which sets one of the static variables or ends the process, and then looks at the source and
the destination.

* `parseCommandline_destination` — the bucket and the folder of the run are those of a valid
  destination, and the folder is never absent;
* `dryRun_of_mem` — **no option takes `--dryRun` back.**

The timeouts, the progress flag and the log level are checked here and used nowhere else in the
model, so their values are not kept, and neither are the keys.
-/

namespace Clarc

open Bytes

/-! ## The destination -/

/-- `Destination`, when it is valid. -/
structure Destination where
  bucket : Bytes
  folder : Bytes
  endPoint : Bytes
  deriving DecidableEq, Repr

namespace Destination

/-- The end points, in their order. -/
def endPoints : List Bytes :=
  [ascii "s3.amazonaws.com", ascii "s3-us-west-2.amazonaws.com", ascii "s3-us-west-1.amazonaws.com",
    ascii "s3-eu-west-1.amazonaws.com", ascii "s3-ap-southeast-1.amazonaws.com",
    ascii "s3-ap-northeast-1.amazonaws.com", ascii "s3-sa-east-1.amazonaws.com"]

/-- `strstr`: where the text occurs first. -/
def strstr (text : Bytes) : Bytes → Option ℕ
  | [] => if text = [] then some 0 else none
  | c :: rest =>
      if text <+: c :: rest then some 0 else (strstr text rest).map (· + 1)

/-- What the constructor and `isValid` make of a text; `corrupted` is the write in front of the
text when the host is an end point by itself. -/
inductive Parsed
  | invalid
  | corrupted
  | valid (d : Destination)
  deriving DecidableEq, Repr

/-- The loop over the end points. -/
def findEndPoint (path : Bytes) : List Bytes → Option (Bytes × ℕ)
  | [] => none
  | e :: rest =>
      match strstr e path with
      | some r => if r + e.length = path.length then some (e, r) else findEndPoint path rest
      | none => findEndPoint path rest

/-- The bucket and the end point of a host. -/
def ofHost (path folder : Bytes) : Parsed :=
  match findEndPoint path endPoints with
  | some (e, r) =>
      if r = 0 then .corrupted
      else
        let bucket := path.take (r - 1)
        if bucket = [] then .invalid else .valid ⟨bucket, folder, e⟩
  | none => if path = [] then .invalid else .valid ⟨path, folder, ascii "s3.amazonaws.com"⟩

/-- `Destination::parse`. -/
def parse (destination : Bytes) : Parsed :=
  if ascii "s3://" <+: destination then
    let path := destination.drop 5
    let behind := (path.dropWhile (· ≠ 47)).drop 1
    let folder := if behind.getLast? = some 47 then behind.dropLast else behind
    if 47 ∈ folder then .invalid else ofHost (path.takeWhile (· ≠ 47)) folder
  else .invalid

end Destination

namespace Main

/-! ## The options -/

/-- What `getopt_long` returns for an option; `other` is what it complains about itself. -/
inductive LongOption
  | accessKeyId (optarg : Bytes)
  | secretAccessKey (optarg : Bytes)
  | «public»
  | rrs
  | rss
  | skipSsl
  | insecureSsl
  | create (optarg : Bytes)
  | connectTimeout (optarg : Bytes)
  | networkTimeout (optarg : Bytes)
  | uploadThreads (optarg : Bytes)
  | dbPath (optarg : Bytes)
  | dbFilename (optarg : Bytes)
  | exclude (optarg : Bytes)
  | excludeFromFile (optarg : Bytes)
  | progress
  | logLevel (optarg : Bytes)
  | dryRun
  | delete
  | rebuild
  | rebuildOnly
  | version
  | help
  | other
  deriving DecidableEq, Repr

/-- A command line as `getopt_long` reads it. -/
structure CommandLine where
  argc : ℕ
  options : List LongOption
  arguments : List Bytes

/-- What the system answers while the command line is read. -/
structure Host where
  re : Re2
  getenv : Bytes → Option Bytes
  realpath : Bytes → Option Bytes
  /-- The lines of a file, without the character that ends them. -/
  fgets : Bytes → Option (List Bytes)
  lstat : Bytes → Option Stat
  base64Md5 : Bytes → Bytes

/-- The number of upload threads that the command line admits. -/
structure UploadThreads where
  count : ℕ
  pos : 0 < count
  lt : count < 100

/-- The static variables of `main.cc`. -/
structure Settings where
  accessKeyId : Bool := false
  secretAccessKey : Bool := false
  databasePath : Option Bytes := none
  databaseFilename : Bytes := ascii ".clarc.sqlite3"
  autoCreateBucketRegion : Option Bytes := none
  performRebuild : Bool := false
  performUpload : Bool := true
  performDelete : Bool := false
  makeAllPublic : Bool := false
  useRrs : Bool := false
  skipSsl : Bool := false
  dryRun : Bool := false
  uploadThreads : UploadThreads := ⟨4, defaultThreads_pos, defaultThreads_lt⟩
  excludeFilePattern : FilePattern := []

/-- How the process ends while the command line is read. -/
inductive Ending
  | exited (status : ℕ)
  | crashed
  deriving DecidableEq, Repr

/-- `atoi`: `strtol`, cut to 32 bits. -/
def atoi (s : Bytes) : ℤ := (atoll s).bmod (2 ^ 32)

/-- `AmazonCredentials::isValidRegionForBucketCreate`. -/
def isValidRegionForBucketCreate (region : Bytes) : Bool :=
  [ascii "us-east-2", ascii "us-east-1", ascii "us-west-2", ascii "us-west-1",
    ascii "ca-central-1", ascii "ap-south-1", ascii "ap-northeast-2", ascii "ap-northeast-3",
    ascii "ap-southeast-1", ascii "ap-southeast-2", ascii "ap-northeast-1", ascii "cn-north-1",
    ascii "eu-central-1", ascii "eu-west-1", ascii "eu-west-2", ascii "eu-west-3",
    ascii "sa-east-1"].contains region

/-- A number the code checks and keeps for objects outside the model. -/
def Settings.checked (s : Settings) (valid : Bool) : Except Ending Settings :=
  if valid then .ok s else .error (.exited 1)

/-- `FilePattern::readFile` on the lines of the file. -/
def readFile (re : Re2) : FilePattern → List Bytes → Option FilePattern
  | patterns, [] => some patterns
  | patterns, line :: rest =>
      if re.ok line then readFile re (patterns.add re line) rest else none

/-- One turn of the loop over the options. -/
def Settings.set (host : Host) (s : Settings) : LongOption → Except Ending Settings
  | .accessKeyId _ => .ok { s with accessKeyId := true }
  | .secretAccessKey _ => .ok { s with secretAccessKey := true }
  | .«public» => .ok { s with makeAllPublic := true }
  | .rrs | .rss => .ok { s with useRrs := true }
  | .skipSsl => .ok { s with skipSsl := true }
  | .insecureSsl => .ok s
  | .create optarg =>
      if isValidRegionForBucketCreate optarg then
        .ok { s with autoCreateBucketRegion := some optarg }
      else .error (.exited 1)
  | .connectTimeout optarg | .networkTimeout optarg =>
      s.checked (0 < atoi optarg && atoi optarg < 600)
  | .uploadThreads optarg =>
      if h : 0 < atoi optarg ∧ atoi optarg < 100 then
        .ok { s with uploadThreads := ⟨(atoi optarg).toNat, by omega, by omega⟩ }
      else .error (.exited 1)
  | .dbPath optarg => .ok { s with databasePath := some optarg }
  | .dbFilename optarg => .ok { s with databaseFilename := optarg }
  | .exclude optarg =>
      if host.re.ok optarg then
        .ok { s with excludeFilePattern := s.excludeFilePattern.add host.re optarg }
      else .error (.exited 1)
  | .excludeFromFile optarg =>
      match (host.fgets optarg).bind (readFile host.re s.excludeFilePattern) with
      | some patterns => .ok { s with excludeFilePattern := patterns }
      | none => .error (.exited 1)
  | .progress => .ok s
  | .logLevel optarg => s.checked (0 < atoi optarg && atoi optarg ≤ 5)
  | .dryRun => .ok { s with dryRun := true }
  | .delete => .ok { s with performDelete := true }
  | .rebuild => .ok { s with performRebuild := true }
  | .rebuildOnly => .ok { s with performRebuild := true, performUpload := false }
  | .version | .help => .error (.exited 0)
  | .other => .ok s

/-- The loop over the options. -/
def setAll (host : Host) (s : Settings) : List LongOption → Except Ending Settings
  | [] => .ok s
  | option :: rest =>
      match s.set host option with
      | .error ending => .error ending
      | .ok s' => setAll host s' rest

/-! ## Source and destination -/

/-- A path without the slashes at its end. -/
def cutSlashes (path : Bytes) : Bytes := path.rdropWhile (· == 47)

/-- `verifySource`. -/
def verifySource (host : Host) (source : Bytes) : Bool :=
  match host.lstat source with
  | some fileInfo => fileInfo.mode &&& 0x4000 != 0
  | none => false

/-- The source folder, relative ones completed. -/
def realSource (host : Host) (source : Bytes) : Option Bytes :=
  if source.head? = some 47 then some source else host.realpath source

/-- A key is on the command line or in the environment. -/
def Settings.hasKeys (s : Settings) (host : Host) : Bool :=
  (s.accessKeyId || (host.getenv (ascii "S3_ACCESSKEYID")).isSome) &&
    (s.secretAccessKey || (host.getenv (ascii "S3_SECRETACCESSKEY")).isSome)

/-- What `main` hands to the objects it makes. -/
def Settings.options (s : Settings) (host : Host) (source : Bytes) (d : Destination) : Options where
  uploader := {
    amazonCredentials := ⟨d.bucket, d.endPoint⟩
    destinationFolder := some d.folder
    useRrs := s.useRrs
    makeAllPublic := s.makeAllPublic
    useSsl := !s.skipSsl
    dryRun := s.dryRun
    uploadThreads := s.uploadThreads.count
    uploadThreads_pos := s.uploadThreads.pos
    uploadThreads_lt := s.uploadThreads.lt }
  re := host.re
  excludeFilePattern := s.excludeFilePattern
  source := cutSlashes source
  databasePath := cutSlashes (s.databasePath.getD source)
  databaseFilename := s.databaseFilename
  autoCreateBucket := s.autoCreateBucketRegion
  performRebuild := s.performRebuild
  performUpload := s.performUpload
  performDelete := s.performDelete
  base64Md5 := host.base64Md5

/-- `main` up to the check of the source folder: `parseCommandline` and `verifySource`. -/
def parseCommandline (host : Host) (line : CommandLine) : Except Ending Options :=
  if line.argc = 1 then .error (.exited 0)
  else
    match setAll host {} line.options with
    | .error ending => .error ending
    | .ok s =>
        match line.arguments with
        | [source, destination] =>
            match Destination.parse destination, realSource host source with
            | .corrupted, _ => .error .crashed
            | .invalid, _ | _, none => .error (.exited 1)
            | .valid d, some source =>
                if !s.hasKeys host || (s.performDelete && !s.performUpload) then
                  .error (.exited 1)
                else if verifySource host (cutSlashes source) then .ok (s.options host source d)
                else .error (.exited 1)
        | _ => .error (.exited 1)

/-! ## What the options come from -/

variable {host : Host} {line : CommandLine} {o : Options} {s s' : Settings}

/-- The options of a run come from its settings and from a valid destination. -/
lemma parseCommandline_cases (h : parseCommandline host line = .ok o) :
    ∃ s source destination d, setAll host {} line.options = .ok s ∧
      line.arguments = [source, destination] ∧ Destination.parse destination = .valid d ∧
      (s.performDelete = true → s.performUpload = true) ∧ ∃ path, o = s.options host path d := by
  unfold parseCommandline at h
  split_ifs at h
  split at h
  · cases h
  next s hset =>
    split at h
    next source destination hargs =>
      split at h
      · cases h
      · cases h
      · cases h
      next d path hparse hpath =>
        split_ifs at h with hrefused
        cases h
        refine ⟨s, source, destination, d, hset, hargs, hparse, ?_, path, rfl⟩
        intro hdelete
        simpa [hdelete] using (not_or.mp (mt (Bool.or_eq_true _ _).mpr hrefused)).2
    · cases h

/-- **The folder of a run is that of a valid destination**, and so is its bucket. -/
theorem parseCommandline_destination (h : parseCommandline host line = .ok o) :
    ∃ destination d, Destination.parse destination = .valid d ∧
      o.uploader.destinationFolder = some d.folder ∧
      o.uploader.amazonCredentials = ⟨d.bucket, d.endPoint⟩ := by
  obtain ⟨s, source, destination, d, -, -, hparse, -, path, rfl⟩ := parseCommandline_cases h
  exact ⟨destination, d, hparse, rfl, rfl⟩

lemma Settings.checked_eq {valid : Bool} (h : s.checked valid = .ok s') : s' = s := by
  unfold Settings.checked at h
  split_ifs at h
  exact (Except.ok.inj h).symm

/-- `--delete` is refused without an upload. -/
lemma parseCommandline_performUpload (h : parseCommandline host line = .ok o)
    (hdelete : o.performDelete = true) : o.performUpload = true := by
  obtain ⟨s, _, _, d, -, -, -, hupload, path, rfl⟩ := parseCommandline_cases h
  exact hupload hdelete

/-- A turn of the loop sets `dryRun` or leaves it. -/
lemma Settings.set_dryRun {option : LongOption} (h : s.set host option = .ok s') :
    s'.dryRun = (s.dryRun || option == .dryRun) := by
  have hleft : ∀ b : Bool, b = (b || false) := by decide
  cases option <;> simp only [Settings.set] at h
  case dryRun =>
    cases h
    simp
  case connectTimeout | networkTimeout | logLevel =>
    rw [Settings.checked_eq h]
    exact hleft _
  case create | uploadThreads | exclude =>
    split_ifs at h
    cases h
    exact hleft _
  case excludeFromFile =>
    split at h
    · cases h
      exact hleft _
    · cases h
  case version | help => cases h
  all_goals
    cases h
    exact hleft _

/-- **No option takes `--dryRun` back.** -/
theorem dryRun_of_mem {options : List LongOption} (hmem : s.dryRun = true ∨ .dryRun ∈ options)
    (h : setAll host s options = .ok s') : s'.dryRun = true := by
  induction options generalizing s with
  | nil =>
      cases h
      exact hmem.resolve_right List.not_mem_nil
  | cons option rest ih =>
      rw [setAll] at h
      split at h
      · cases h
      next s₁ hset =>
        refine ih ?_ h
        rw [Settings.set_dryRun hset]
        rcases hmem with hdry | hmem
        · simp [hdry]
        · rcases List.mem_cons.mp hmem with rfl | hmem
          · simp
          · exact Or.inr hmem

/-- A system with a folder `/home` and keys in the environment. -/
def sampleHost : Host where
  re := ⟨fun _ => true, fun pattern path => pattern == path⟩
  getenv := fun _ => some (ascii "key")
  realpath := fun _ => none
  fgets := fun _ => none
  lstat := fun path => if path = ascii "/home" then some ⟨0x41ED, 0, 0, 0, 0⟩ else none
  base64Md5 := fun _ => ascii "gFy73g21HKqAvefFGfFvTg=="

end Main

end Clarc
