import Pgpod.Core.Manifest
import Mathlib.Algebra.Group.Nat.Defs

/-!
# `pgbackrest.conf`: from destinations to repositories

The agent translates the destinations of the manifest inside the container, with a
grammar of URLs of its own.  `PgBackRestConfig.new` succeeds on an accepted manifest
exactly when every destination is one that both grammars read alike.
-/

namespace Pgpod

/-! ## Reading text -/

def trimMatches (s : String) (c : Char) : String :=
  String.ofList (((s.toList.dropWhile (· = c)).reverse.dropWhile (· = c)).reverse)

/-! ## Repositories -/

inductive BackupError
  | destination (url detail : String)
  | noDestinations
  | tooManyRepositories (max given : Nat)
  | invalid (why : String)
deriving DecidableEq, Repr

def BackupError.toString : BackupError → String
  | destination url detail => "backup destination " ++ Text.debug url ++ ": " ++ detail
  | noDestinations => "no backup destination is configured"
  | tooManyRepositories max given => "pgBackRest supports at most " ++ ToString.toString max ++
      " repositories, but " ++ ToString.toString given ++ " destinations are configured"
  | invalid why => why

def MAX_REPOSITORIES : Nat := 4

/-- Which object store a destination names. -/
inductive RepoKind
  | posix
  | s3 (bucket : String) (endpoint region : Option String)
  | gcs (bucket : String)
  | azure (container : String) (account : Option String)
deriving DecidableEq, Repr

structure Repository where
  kind : RepoKind
  path : String
  port : Option Nat
  verifyTls : Bool
  extra : List (String × String)
deriving DecidableEq, Repr

/-- An endpoint is a bare host, with the port as a separate option. -/
def splitEndpoint (endpoint : Option String) :
    Except BackupError (Option String × Option Nat) :=
  match endpoint with
  | none => .ok (none, none)
  | some raw =>
    let raw := Text.trim raw
    if Text.contains raw "://" then
      .error (.destination raw ("endpoint must be a host, not a URL — pgBackRest always uses " ++
        "TLS, so the scheme has no meaning. Write \x60garage.internal\x60 and set a port if it " ++
        "is not 443"))
    else match rsplitOnce raw ':' with
      | none => .ok (some raw, none)
      | some (host, port) =>
        match parseUnsigned 65536 port with
        | some n => .ok (some host, some n)
        | none => .error (.destination raw (Text.debug port ++ " is not a port"))

namespace Repository

/-- The first component of what follows the scheme, and the rest. -/
def headTail (rest : String) : String × String :=
  (Text.splitOnce rest "/").getD (rest, "")

def bucketKind (scheme head : String) (dest : Destination) (endpoint : Option String) :
    RepoKind :=
  if scheme = "gs" then .gcs head
  else if scheme = "s3" ∨ scheme = "s3a" then .s3 head endpoint dest.region
  else .azure head dest.region

/-- What a bucket URL without a bucket lacks. -/
def bucketWord (scheme : String) : String :=
  if scheme = "az" ∨ scheme = "abfs" ∨ scheme = "abfss" then "names no container"
  else "names no bucket"

def BUCKET_SCHEMES : List String := ["s3", "s3a", "gs", "az", "abfs", "abfss"]

/-- A path in the container: the URL's host must be empty. -/
def ofFile (dest : Destination) (url head tail : String) : Except BackupError Repository :=
  if head.isEmpty && tail.isEmpty then .error (.destination url "names no path")
  else if !head.isEmpty then .error (.destination url
    "a file:// URL must have an empty host — write file:///path")
  else .ok
    { kind := .posix
      path := "/" ++ trimMatches tail '/'
      port := none
      verifyTls := true
      extra := dest.options.entries }

/-- A prefix in a bucket. -/
def ofBucket (dest : Destination) (url scheme head tail : String) :
    Except BackupError Repository :=
  if head.isEmpty then .error (.destination url (bucketWord scheme))
  else do
    let (endpoint, port) ← splitEndpoint dest.endpoint
    return {
      kind := bucketKind scheme head dest endpoint
      path := "/" ++ trimMatches tail '/'
      port
      verifyTls := dest.verifyTls
      extra := dest.options.entries }

/-- Translate a manifest destination into a pgBackRest repository. -/
def fromDestination (dest : Destination) : Except BackupError Repository :=
  let url := Text.trim dest.url
  match Text.splitOnce url "://" with
  | none => .error (.destination url "expected something like gs://bucket/prefix")
  | some (scheme, rest) =>
    let (head, tail) := headTail rest
    if scheme = "file" then ofFile dest url head tail
    else if BUCKET_SCHEMES.contains scheme then ofBucket dest url scheme head tail
    else .error (.destination url ("unsupported scheme " ++ Text.debug scheme ++
      " — pgBackRest handles file, s3, gs, az"))

end Repository

/-! ## The configuration -/

/-- Parse `14d` into days. -/
def parseDays (window : String) : Except BackupError Nat :=
  let w := Text.trim window
  match w.toList.dropWhile Char.isDigit with
  | [] => .error (.invalid (Text.debug w ++ " has no unit — try 14d"))
  | unit =>
    match parseUnsigned (2 ^ 32) (String.ofList (w.toList.takeWhile Char.isDigit)) with
    | none => .error (.invalid (Text.debug w ++ " does not start with a number"))
    | some 0 => .error (.invalid (Text.debug w ++ " is not a positive duration"))
    | some n =>
      if unit = ['d'] then .ok n
      else .error (.invalid ("unknown unit " ++ Text.debug (String.ofList unit) ++ " in " ++
        Text.debug w ++ " — pgBackRest's time-based retention counts whole days, so only " ++
        "\x60d\x60 is accepted"))

structure PgBackRestConfig where
  stanza : String
  repositories : List Repository
  retentionDays : Option Nat
  compressLevel : Nat
  recoveryStanza : Option String
deriving DecidableEq, Repr

namespace PgBackRestConfig

def translateEach : List Destination → Except BackupError (List Repository)
  | [] => .ok []
  | dest :: rest => do
    let repo ← Repository.fromDestination dest
    let repos ← translateEach rest
    return repo :: repos

/-- Retention is only configured once the operator has opted into enforcement. -/
def retentionDaysOf (retention : Option String) (mode : RetentionMode) :
    Except BackupError (Option Nat) :=
  match mode, retention with
  | .report, _ => .ok none
  | .enforce, none => .ok none
  | .enforce, some r => (parseDays r).map some

/-- Build from a cluster's manifest backup spec. -/
def new (stanza : String) (destinations : List Destination) (retention : Option String)
    (mode : RetentionMode) : Except BackupError PgBackRestConfig := do
  if destinations.isEmpty then throw .noDestinations
  if destinations.length > MAX_REPOSITORIES then
    throw (.tooManyRepositories MAX_REPOSITORIES destinations.length)
  let repositories ← translateEach destinations
  let retentionDays ← retentionDaysOf retention mode
  return { stanza, repositories, retentionDays, compressLevel := 3, recoveryStanza := none }

end PgBackRestConfig

/-! ## Which accepted manifests it takes -/

/-- A bare host, or a host and a port. -/
def endpointOk (endpoint : Option String) : Bool :=
  endpoint.all fun raw =>
    !Text.contains (Text.trim raw) "://" &&
      (rsplitOnce (Text.trim raw) ':').all fun hostPort => (parseUnsigned 65536 hostPort.2).isSome

/-- A file URL with an empty host, or a bucket URL with a bucket and a plain endpoint. -/
def translatable (dest : Destination) : Bool :=
  match Text.splitOnce (Text.trim dest.url) "://" with
  | none => false
  | some (scheme, rest) =>
    if scheme = "file" then Text.startsWith rest "/"
    else scheme ≠ "memory" && !Text.startsWith rest "/" && endpointOk dest.endpoint

/-- A positive number of days. -/
def wholeDays (window : String) : Bool :=
  let cs := (Text.trim window).toList
  cs.dropWhile Char.isDigit == ['d'] &&
    (parseUnsigned (2 ^ 32) (String.ofList (cs.takeWhile Char.isDigit))).any (· ≠ 0)

def retentionOk (backup : BackupSpec) : Bool :=
  backup.retentionMode == .report || backup.retention.all wholeDays

theorem splitEndpoint_isOk {endpoint : Option String} :
    (∃ split, splitEndpoint endpoint = .ok split) ↔ endpointOk endpoint = true := by
  cases endpoint with
  | none => simp [splitEndpoint, endpointOk]
  | some raw =>
    simp only [splitEndpoint, endpointOk, Option.all_some]
    by_cases hurl : Text.contains (Text.trim raw) "://" = true
    · simp [hurl]
    · rw [if_neg hurl, eq_false_of_ne_true hurl]
      cases rsplitOnce (Text.trim raw) ':' with
      | none => simp
      | some hostPort =>
        obtain ⟨host, port⟩ := hostPort
        cases hport : parseUnsigned 65536 port <;> simp [hport]

theorem parseDays_isOk {window : String} :
    (∃ n, parseDays window = .ok n) ↔ wholeDays window = true := by
  unfold parseDays wholeDays
  simp only [Bool.and_eq_true, beq_iff_eq]
  cases (Text.trim window).toList.dropWhile Char.isDigit with
  | nil => simp
  | cons c cs =>
    cases parseUnsigned (2 ^ 32)
        (String.ofList ((Text.trim window).toList.takeWhile Char.isDigit)) with
    | none => simp
    | some n =>
      cases n with
      | zero => simp
      | succ n =>
        by_cases hunit : c :: cs = ['d']
        · simp [hunit]
        · simp [hunit]

theorem retentionDaysOf_isOk {backup : BackupSpec} :
    (∃ days, PgBackRestConfig.retentionDaysOf backup.retention backup.retentionMode = .ok days) ↔
      retentionOk backup = true := by
  unfold PgBackRestConfig.retentionDaysOf retentionOk
  cases backup.retentionMode with
  | report => simp
  | enforce =>
    cases backup.retention with
    | none => simp
    | some window =>
      have hparse : (∃ n, parseDays window = .ok n) ↔ wholeDays window = true := parseDays_isOk
      cases hdays : parseDays window with
      | error e => simp [hdays] at hparse; simp [hdays, Except.map, hparse]
      | ok n => simp [hdays] at hparse; simp [hdays, Except.map, hparse]

/-- With a bucket, only the endpoint is left to refuse. -/
theorem ofBucket_isOk {dest : Destination} {url scheme head tail : String}
    (hhead : head.isEmpty = false) :
    (∃ repo, Repository.ofBucket dest url scheme head tail = .ok repo) ↔
      endpointOk dest.endpoint = true := by
  rw [← splitEndpoint_isOk, Repository.ofBucket, hhead]
  cases splitEndpoint dest.endpoint with
  | error e => simp [bind, Except.bind]
  | ok split => simp [bind, Except.bind, pure, Except.pure]

/-- A path after an empty host, or a bucket with a plain endpoint. -/
def translates (dest : Destination) : Bool :=
  match Text.splitOnce (Text.trim dest.url) "://" with
  | none => false
  | some (scheme, rest) =>
    let (head, tail) := Repository.headTail rest
    if scheme = "file" then head.isEmpty && !tail.isEmpty
    else Repository.BUCKET_SCHEMES.contains scheme && !head.isEmpty && endpointOk dest.endpoint

/-- What of a destination the agent takes, whoever has looked at it before. -/
theorem fromDestination_isOk_iff {dest : Destination} :
    (∃ repo, Repository.fromDestination dest = .ok repo) ↔ translates dest = true := by
  cases hsplit : Text.splitOnce (Text.trim dest.url) "://" with
  | none => simp [Repository.fromDestination, translates, hsplit]
  | some pair =>
    obtain ⟨scheme, rest⟩ := pair
    obtain ⟨head, tail, hpair⟩ : ∃ head tail, Repository.headTail rest = (head, tail) := ⟨_, _, rfl⟩
    simp only [Repository.fromDestination, translates, hsplit, hpair]
    by_cases hfile : scheme = "file"
    · rw [if_pos hfile, if_pos hfile, Repository.ofFile]
      cases head.isEmpty <;> cases tail.isEmpty <;> simp
    · rw [if_neg hfile, if_neg hfile]
      cases hbucket : Repository.BUCKET_SCHEMES.contains scheme with
      | false => simp
      | true =>
        cases hhead : head.isEmpty with
        | true => simp [Repository.ofBucket, hhead]
        | false => simpa using ofBucket_isOk hhead

theorem translateEach_isOk {dests : List Destination} :
    (∃ repos, PgBackRestConfig.translateEach dests = .ok repos) ↔
      ∀ d ∈ dests, ∃ repo, Repository.fromDestination d = .ok repo := by
  induction dests with
  | nil => simp [PgBackRestConfig.translateEach]
  | cons d rest ih =>
    rw [List.forall_mem_cons, ← ih]
    simp only [PgBackRestConfig.translateEach, bind, Except.bind, pure, Except.pure]
    cases Repository.fromDestination d with
    | error e => simp
    | ok repo => cases PgBackRestConfig.translateEach rest <;> simp

theorem fromDestination_sanitized (d : Destination) :
    Repository.fromDestination d.sanitized = Repository.fromDestination d := by
  simp only [Repository.fromDestination, Repository.ofFile, Repository.ofBucket,
    Repository.bucketKind, Destination.sanitized]

/-! ### One destination -/

/-- What the manifest's own check leaves of a destination. -/
theorem validateDestination_ok {backup : BackupSpec} {dest : Destination}
    (h : ClusterManifest.validateDestination backup dest = .ok ()) :
    ∃ scheme rest, Text.splitOnce (Text.trim dest.url) "://" = some (scheme, rest) ∧
      (Text.trimStartMatches rest '/').isEmpty = false ∧ scheme ∈ KNOWN := by
  unfold ClusterManifest.validateDestination at h
  cases hsplit : Text.splitOnce (Text.trim dest.url) "://" with
  | none => simp [hsplit] at h
  | some pair =>
    obtain ⟨scheme, rest⟩ := pair
    simp only [hsplit] at h
    split at h
    · cases h
    · next hrest =>
      split at h
      · cases h
      · next hknown =>
        refine ⟨scheme, rest, rfl, by simpa using hrest, ?_⟩
        simpa using hknown

theorem validateEach_ok {backup : BackupSpec} {dests : List Destination}
    (h : ClusterManifest.validateEach backup dests = .ok ()) :
    ∀ d ∈ dests, ClusterManifest.validateDestination backup d = .ok () := by
  induction dests with
  | nil => simp
  | cons d rest ih =>
    simp only [ClusterManifest.validateEach, bind, Except.bind] at h
    cases hd : ClusterManifest.validateDestination backup d with
    | error e => simp [hd] at h
    | ok u =>
      simp only [hd] at h
      rw [List.forall_mem_cons]
      exact ⟨hd, ih h⟩

theorem startsWith_slash_iff {rest : String} :
    Text.startsWith rest "/" = true ↔ ∃ cs, rest.toList = '/' :: cs := by
  simp only [Text.startsWith, decide_eq_true_eq]
  constructor
  · rintro ⟨cs, hcs⟩
    exact ⟨cs, hcs.symm⟩
  · rintro ⟨cs, hcs⟩
    exact ⟨cs, hcs.symm⟩

theorem isEmpty_ofList {cs : List Char} : (String.ofList cs).isEmpty = cs.isEmpty := by
  cases cs with
  | nil => rfl
  | cons c cs =>
    rw [List.isEmpty_cons, String.isEmpty_eq_false_iff]
    intro h
    have := congrArg String.toList h
    simp at this

/-- After a slash comes the path, and there is some. -/
theorem headTail_of_slash {rest : String} (h : (Text.trimStartMatches rest '/').isEmpty = false)
    (hslash : Text.startsWith rest "/" = true) :
    ∃ tail, Repository.headTail rest = ("", tail) ∧ tail.isEmpty = false := by
  obtain ⟨cs, hcs⟩ := startsWith_slash_iff.1 hslash
  refine ⟨String.ofList cs, ?_, ?_⟩
  · have hsplit : Text.splitOnceChars "/".toList ('/' :: cs) = some ([], cs) := by
      simp [Text.splitOnceChars]
    rw [Repository.headTail, Text.splitOnce, hcs, hsplit]
    rfl
  · rw [isEmpty_ofList]
    rw [Text.trimStartMatches, isEmpty_ofList, hcs] at h
    cases cs with
    | nil => simp at h
    | cons c cs => rfl

/-- Without a slash at its start, the first component is not empty. -/
theorem headTail_of_not_slash {rest : String}
    (h : (Text.trimStartMatches rest '/').isEmpty = false)
    (hslash : ¬ Text.startsWith rest "/" = true) :
    (Repository.headTail rest).1.isEmpty = false := by
  rw [startsWith_slash_iff] at hslash
  rw [Text.trimStartMatches, isEmpty_ofList] at h
  rw [Repository.headTail, Text.splitOnce]
  cases hcs : rest.toList with
  | nil => rw [hcs] at h; simp at h
  | cons c cs =>
    have hc : c ≠ '/' := by
      rintro rfl
      exact hslash ⟨cs, hcs⟩
    have hsplit : Text.splitOnceChars "/".toList (c :: cs) =
        (Text.splitOnceChars "/".toList cs).map fun p => (c :: p.1, p.2) := by
      simp [Text.splitOnceChars, Ne.symm hc]
    rw [hsplit]
    cases Text.splitOnceChars "/".toList cs with
    | none =>
      rw [String.isEmpty_eq_false_iff]
      rintro rfl
      simp at hcs
    | some pair => exact isEmpty_ofList

/-- On a destination the manifest accepts, the two grammars agree exactly when it is
translatable. -/
theorem fromDestination_isOk {backup : BackupSpec} {dest : Destination}
    (h : ClusterManifest.validateDestination backup dest = .ok ()) :
    (∃ repo, Repository.fromDestination dest = .ok repo) ↔ translatable dest = true := by
  obtain ⟨scheme, rest, hsplit, hrest, hknown⟩ := validateDestination_ok h
  obtain ⟨head, tail, hpair⟩ : ∃ head tail, Repository.headTail rest = (head, tail) := ⟨_, _, rfl⟩
  have hslashed (hslash : Text.startsWith rest "/" = true) : head = "" ∧ tail.isEmpty = false := by
    obtain ⟨tail', hpair', htail⟩ := headTail_of_slash hrest hslash
    rw [hpair] at hpair'
    cases hpair'
    exact ⟨rfl, htail⟩
  have hbare (hslash : ¬ Text.startsWith rest "/" = true) : head.isEmpty = false := by
    have hhead := headTail_of_not_slash hrest hslash
    rwa [hpair] at hhead
  simp only [Repository.fromDestination, translatable, hsplit, hpair]
  by_cases hfile : scheme = "file"
  · rw [if_pos hfile, if_pos hfile]
    by_cases hslash : Text.startsWith rest "/" = true
    · obtain ⟨rfl, htail⟩ := hslashed hslash
      simp [Repository.ofFile, htail, hslash]
    · simp [Repository.ofFile, hbare hslash, hslash]
  · rw [if_neg hfile, if_neg hfile]
    by_cases hmemory : scheme = "memory"
    · subst hmemory
      simp [Repository.BUCKET_SCHEMES]
    · have hbucket : Repository.BUCKET_SCHEMES.contains scheme = true := by
        simp only [KNOWN, List.mem_cons, List.not_mem_nil, or_false] at hknown
        rcases hknown with h | h | h | h | h | h | h | h
        · exact absurd h hfile
        · rw [h]; decide
        · rw [h]; decide
        · rw [h]; decide
        · rw [h]; decide
        · rw [h]; decide
        · rw [h]; decide
        · exact absurd h hmemory
      rw [if_pos hbucket]
      by_cases hslash : Text.startsWith rest "/" = true
      · obtain ⟨rfl, -⟩ := hslashed hslash
        simp [Repository.ofBucket, hslash]
      · rw [ofBucket_isOk (hbare hslash)]
        simp [hslash, hmemory]

theorem validateDestination_of_validate {m : ClusterManifest} (h : m.validate = .ok ()) :
    ∀ d ∈ m.spec.backup.destinations,
      ClusterManifest.validateDestination m.spec.backup d = .ok () := by
  have hdests := (ClusterManifest.of_validate h).2
  unfold ClusterManifest.validateDestinations at hdests
  simp only [bind, Except.bind] at hdests
  apply validateEach_ok
  cases heach : ClusterManifest.validateEach m.spec.backup m.spec.backup.destinations with
  | error e => rw [heach] at hdests; cases hdests
  | ok u => rfl

/-- Without destinations nothing is configured; else there are at most four, each is one of the
agent's, and an enforced retention is a whole number of days. -/
def pgbackrestOk (destinations : List Destination) (backup : BackupSpec) : Bool :=
  destinations.isEmpty || (destinations.length ≤ MAX_REPOSITORIES &&
    destinations.all translates && retentionOk backup)

/-- Which configurations are built at all. -/
theorem builds_iff {destinations : List Destination} (hsome : destinations.isEmpty = false)
    (stanza : String) (backup : BackupSpec) :
    (∃ config, PgBackRestConfig.new stanza destinations backup.retention backup.retentionMode =
        .ok config) ↔ pgbackrestOk destinations backup = true := by
  have htranslate : (∃ repos, PgBackRestConfig.translateEach destinations = .ok repos) ↔
      destinations.all translates = true := by
    rw [translateEach_isOk, List.all_eq_true]
    exact forall₂_congr fun d _ => fromDestination_isOk_iff
  simp only [pgbackrestOk, hsome, Bool.false_or, Bool.and_eq_true, decide_eq_true_eq, and_assoc]
  rw [← htranslate, ← retentionDaysOf_isOk]
  unfold PgBackRestConfig.new
  rw [hsome]
  by_cases hlength : destinations.length ≤ MAX_REPOSITORIES
  · rw [if_neg (Nat.not_lt.2 hlength)]
    simp only [hlength, bind, Except.bind, pure, Except.pure]
    cases PgBackRestConfig.translateEach destinations with
    | error e => simp
    | ok repos =>
      cases PgBackRestConfig.retentionDaysOf backup.retention backup.retentionMode <;> simp
  · rw [if_pos (Nat.lt_of_not_le hlength)]
    simp [hlength, bind, Except.bind, throw, throwThe, MonadExceptOf.throw]

/-- **On an accepted manifest with a destination, the configuration is built exactly when there are
at most four of them, both grammars read each of them alike, and an enforced retention is a whole
number of days.** -/
theorem pgBackRestConfig_isOk {m : ClusterManifest} (h : m.validate = .ok ())
    (hsome : m.spec.backup.destinations ≠ []) (stanza : String) :
    (∃ config, PgBackRestConfig.new stanza (m.spec.backup.destinations.map Destination.sanitized)
        m.spec.backup.retention m.spec.backup.retentionMode = .ok config) ↔
      m.spec.backup.destinations.length ≤ MAX_REPOSITORIES ∧
        (∀ d ∈ m.spec.backup.destinations, translatable d = true) ∧
        retentionOk m.spec.backup = true := by
  have heach := validateDestination_of_validate h
  have hempty : (m.spec.backup.destinations.map Destination.sanitized).isEmpty = false := by
    cases hdests : m.spec.backup.destinations with
    | nil => exact absurd hdests hsome
    | cons d rest => rfl
  have hall : (m.spec.backup.destinations.map Destination.sanitized).all translates = true ↔
      ∀ d ∈ m.spec.backup.destinations, translatable d = true := by
    rw [List.all_map, List.all_eq_true]
    refine forall₂_congr fun d hd => ?_
    rw [Function.comp_apply, ← fromDestination_isOk_iff, fromDestination_sanitized]
    exact fromDestination_isOk (heach d hd)
  rw [builds_iff hempty, pgbackrestOk, hempty, Bool.false_or, Bool.and_eq_true, Bool.and_eq_true,
    hall, List.length_map, decide_eq_true_eq, and_assoc]

namespace Sample

/-- A cluster that archives to the given URL, with a volume if the URL is a path. -/
def archivingTo (url : String) (volume : Option String) : ClusterManifest where
  apiVersion := "pgpod/v1"
  kind := "Cluster"
  metadata := ⟨"mydb"⟩
  spec :=
    { imageName := "docker.io/library/postgres:18"
      backup := { destinations := [{ url }], volume } }

/-- The manifest reads the host of this URL as the first component of a path, the agent as a
host. -/
theorem file_host_refused_by_agent :
    (archivingTo "file://archive/demo" (some "mydb-archive")).validate = .ok () ∧
      PgBackRestConfig.new "mydb" ([{ url := "file://archive/demo" }].map Destination.sanitized)
          none .report =
        .error (.destination "file://archive/demo"
          "a file:// URL must have an empty host — write file:///path") := by
  decide +kernel

theorem bucket_accepted : ∃ config, PgBackRestConfig.new "mydb"
    ((archivingTo "gs://backups/pg" none).spec.backup.destinations.map Destination.sanitized)
      none .report = .ok config :=
  (pgBackRestConfig_isOk (m := archivingTo "gs://backups/pg" none) (by decide +kernel)
    (by decide) "mydb").2 ⟨by decide, by decide +kernel, by decide⟩

end Sample

end Pgpod
