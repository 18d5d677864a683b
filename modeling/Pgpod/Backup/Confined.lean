import Pgpod.Backup.Render
import Pgpod.Core.Path

/-!
# Where a `file://` destination puts the backups

The manifest compares the text of the path with the mount; the agent renders the
path as it stands, an explicit option after it, and the file system resolves what
pgBackRest reads.
-/

namespace Pgpod

/-- The path that the manifest's check looks at, for what follows `file://`. -/
def checkedPath (rest : String) : String := "/" ++ Text.trimStartMatches rest '/'

def SamePath (p q : String) : Prop := Path.components p.toList = Path.components q.toList

def Absolute (p : String) : Prop := p.toList.head? = some '/'

/-- The path is the archive mount, or below it, once `.` and `..` are resolved. -/
def InMount (p : String) : Prop :=
  Absolute p ∧ Path.resolve (Path.components Container.ARCHIVE_MOUNT.toList) <+:
    Path.resolve (Path.components p.toList)

def ARCHIVE : List Char := ['a', 'r', 'c', 'h', 'i', 'v', 'e']

theorem inMount_iff {p : String} :
    InMount p ↔ Absolute p ∧ [ARCHIVE] <+: Path.resolve (Path.components p.toList) := by
  have hmount : Path.resolve (Path.components Container.ARCHIVE_MOUNT.toList) = [ARCHIVE] := by
    decide +kernel
  rw [InMount, hmount]

theorem components_checkedPath (rest : String) :
    Path.components (checkedPath rest).toList = Path.components rest.toList := by
  have hlist : (checkedPath rest).toList = '/' :: rest.toList.dropWhile (· == '/') := by
    simp [checkedPath, Text.trimStartMatches, String.toList_append]
  have hbeq : rest.toList.dropWhile (· == '/') = rest.toList.dropWhile (· = '/') := rfl
  rw [hlist, Path.components_slash, hbeq, Path.components_dropWhile]

theorem splitOnceChars_slash_nil {cs tail : List Char}
    (h : Text.splitOnceChars ['/'] cs = some ([], tail)) : cs = '/' :: tail := by
  cases cs with
  | nil => simp [Text.splitOnceChars] at h
  | cons c cs =>
    by_cases hc : c = '/'
    · subst hc
      simp only [Text.splitOnceChars, List.isPrefixOf_cons_cons_self, List.isPrefixOf_nil_left, if_true,
        List.length_singleton, List.drop_one, List.tail_cons, Option.some.injEq, Prod.mk.injEq,
        true_and] at h
      rw [h]
    · have hfront : ['/'].isPrefixOf (c :: cs) = false := by
        simp only [List.isPrefixOf, beq_eq_false_iff_ne.mpr (Ne.symm hc), Bool.false_and]
      rw [Text.splitOnceChars, hfront, if_neg Bool.false_ne_true] at h
      obtain ⟨pair, -, hpair⟩ := Option.map_eq_some_iff.mp h
      cases hpair

/-- An empty host, and what follows it. -/
theorem rest_of_headTail {rest head tail : String} (h : Repository.headTail rest = (head, tail))
    (hhead : head.isEmpty = true) (htail : tail.isEmpty = false) : rest.toList = '/' :: tail.toList := by
  rw [String.isEmpty_iff] at hhead
  subst hhead
  unfold Repository.headTail Text.splitOnce at h
  cases hsplit : Text.splitOnceChars "/".toList rest.toList with
  | none =>
    rw [hsplit] at h
    obtain ⟨-, rfl⟩ := Prod.mk.inj h
    exact absurd htail (by decide)
  | some pair =>
    obtain ⟨front, back⟩ := pair
    rw [hsplit] at h
    obtain ⟨hfront, rfl⟩ := Prod.mk.inj h
    have hnil : front = [] := by
      rw [← String.toList_ofList (l := front)]
      exact congrArg String.toList hfront
    subst hnil
    simpa using splitOnceChars_slash_nil hsplit

/-- What the agent renders has the components of the URL. -/
theorem components_of_fromDestination {dest : Destination} {rest : String} {repo : Repository}
    (hurl : Text.splitOnce (Text.trim dest.url) "://" = some ("file", rest))
    (hrepo : Repository.fromDestination dest = .ok repo) :
    Path.components repo.path.toList = Path.components rest.toList := by
  obtain ⟨head, tail, hpair⟩ : ∃ head tail, Repository.headTail rest = (head, tail) := ⟨_, _, rfl⟩
  simp only [Repository.fromDestination, hurl, hpair, if_true, Repository.ofFile] at hrepo
  split at hrepo
  · cases hrepo
  next hnames =>
  split at hrepo
  · cases hrepo
  next hhost =>
  have hhead : head.isEmpty = true := by simpa using hhost
  have htail : tail.isEmpty = false := by simpa [hhead] using hnames
  obtain rfl := Except.ok.inj hrepo
  have hpath : ("/" ++ trimMatches tail '/').toList =
      '/' :: (((tail.toList.dropWhile (· = '/')).reverse.dropWhile (· = '/')).reverse) := by
    simp [trimMatches, String.toList_append]
  rw [hpath, Path.components_slash, Path.components_dropWhile_reverse, Path.components_dropWhile,
    rest_of_headTail hpair hhead htail, Path.components_slash]

/-! ## What pgBackRest reads -/

/-- Repository `n` is a directory of the container, in the archive, and the one that was checked. -/
structure InArchive (entries : List Ini.Entry) (n : Nat) (rest : String) : Prop where
  type : Ini.effective entries "global" (Repository.key n "type") = some "posix"
  host : Ini.effective entries "global" (Repository.key n "host") = none
  path : ∃ p, Ini.effective entries "global" (Repository.key n "path") = some p ∧
    InMount p ∧ SamePath (checkedPath rest) p

/-- The options leave the repository where the URL puts it. -/
structure KeepsPath (options : List (String × String)) (rest : String) : Prop where
  type : ∀ kind, Ini.last options "type" = some kind → kind = "posix"
  host : Ini.last options "host" = none
  path : ∀ p, Ini.last options "path" = some p → Absolute p ∧ SamePath (checkedPath rest) p

/-- The path enters the archive at the root, and no `..` leads out of it again. -/
def Confined (rest : String) : Prop :=
  ∃ front below, Path.components rest.toList = front ++ ARCHIVE :: below ∧
    Path.resolve front = [] ∧ Path.StaysIn 0 below

theorem SamePath.inMount_iff {rest p : String} (h : SamePath (checkedPath rest) p) :
    InMount p ↔ Absolute p ∧ Confined rest := by
  have hcomponents : Path.components p.toList = Path.components rest.toList :=
    h.symm.trans (components_checkedPath rest)
  rw [Pgpod.inMount_iff, hcomponents, Confined, Path.resolve_below_iff (by decide) (by decide)]

/-- The path of a `file://` destination, and what is derived from it. -/
theorem derived_of_file {dest : Destination} {rest : String} {repo : Repository}
    (hurl : Text.splitOnce (Text.trim dest.url) "://" = some ("file", rest))
    (hrepo : Repository.fromDestination dest = .ok repo) :
    repo.derived = [("type", "posix"), ("path", repo.path)] ∧ Absolute repo.path := by
  obtain ⟨head, tail, hpair⟩ : ∃ head tail, Repository.headTail rest = (head, tail) := ⟨_, _, rfl⟩
  simp only [Repository.fromDestination, hurl, hpair, if_true, Repository.ofFile] at hrepo
  split at hrepo
  · cases hrepo
  split at hrepo
  · cases hrepo
  rw [← Except.ok.inj hrepo]
  exact ⟨rfl, by simp [Absolute, String.toList_append]⟩

/-- **A `file://` destination is confined to the archive** exactly when no option moves it elsewhere
and its path enters `archive` at the root and never leaves it again by `..`; and then the path that
pgBackRest reads is the one that was checked. -/
theorem file_destination_confined_iff {stanza : String} {dests : List Destination}
    {retention : Option String} {mode : RetentionMode} {base : PgBackRestConfig}
    (hnew : PgBackRestConfig.new stanza dests retention mode = .ok base)
    (creds : List (List (String × String))) (recovery : Option String) {i : Nat}
    {dest : Destination} {rest : String} (hdest : dests[i]? = some dest)
    (hurl : Text.splitOnce (Text.trim dest.url) "://" = some ("file", rest))
    (hlines : ((base.withCredentials creds).withRecoveryStanza recovery).OneLine
      (PgBackRestConfig.givenTo dests creds)) :
    (∃ entries,
      Ini.read ((base.withCredentials creds).withRecoveryStanza recovery).render = some entries ∧
        InArchive entries (i + 1) rest) ↔
      KeepsPath (PgBackRestConfig.givenTo dests creds i) rest ∧ Confined rest := by
  obtain ⟨repo, hrepo, hbuilt⟩ := PgBackRestConfig.exists_repository hnew creds recovery hdest
  have hgiven := PgBackRestConfig.extra_eq_given hnew creds recovery
  generalize (base.withCredentials creds).withRecoveryStanza recovery = built at *
  have hread := hlines.read hgiven
  obtain ⟨hderived, habsolute⟩ := derived_of_file hurl hrepo
  have hsame : SamePath (checkedPath rest) repo.path :=
    (components_checkedPath rest).trans (components_of_fromDestination hurl hrepo).symm
  have heffective : ∀ k ∉ ["retention-full-type", "retention-full"],
      Ini.effective (built.items.flatMap Ini.Item.entries) "global" (Repository.key (i + 1) k) =
        (Ini.last (PgBackRestConfig.givenTo dests creds i) k).or
          (Ini.last [("type", "posix"), ("path", repo.path)] k) := by
    intro k hk
    rw [PgBackRestConfig.effective_key hgiven i _ hbuilt,
      PgBackRestConfig.last_enforced_eq_none hk, ite_self, Option.none_or, ← hderived]
    rfl
  have htype := heffective "type" (by decide)
  have hhost := heffective "host" (by decide)
  have hpath := heffective "path" (by decide)
  constructor
  · rintro ⟨entries, hentries, hin⟩
    obtain rfl := Option.some.inj (hread.symm.trans hentries)
    obtain ⟨p, hp, hmount, hpsame⟩ := hin.path
    have hkeeps : KeepsPath (PgBackRestConfig.givenTo dests creds i) rest := by
      refine ⟨fun kind hkind => ?_, ?_, fun q hq => ?_⟩
      · rw [hkind, Option.some_or] at htype
        exact Option.some.inj (htype.symm.trans hin.type)
      · exact (Option.or_eq_none_iff.mp (hhost.symm.trans hin.host)).1
      · rw [hq, Option.some_or] at hpath
        rw [Option.some.inj (hpath.symm.trans hp)]
        exact ⟨hmount.1, hpsame⟩
    exact ⟨hkeeps, (hpsame.inMount_iff.mp hmount).2⟩
  · rintro ⟨hkeeps, hconfined⟩
    refine ⟨_, hread, ?_, ?_, ?_⟩
    · rw [htype]
      cases hkind : Ini.last (PgBackRestConfig.givenTo dests creds i) "type" with
      | none => rfl
      | some kind => rw [hkeeps.type kind hkind, Option.some_or]
    · rw [hhost, hkeeps.host]
      rfl
    · cases hoption : Ini.last (PgBackRestConfig.givenTo dests creds i) "path" with
      | none =>
        rw [hoption] at hpath
        exact ⟨repo.path, hpath, hsame.inMount_iff.mpr ⟨habsolute, hconfined⟩, hsame⟩
      | some p =>
        rw [hoption] at hpath
        obtain ⟨hslash, hoptionSame⟩ := hkeeps.path p hoption
        exact ⟨p, hpath, hoptionSame.inMount_iff.mpr ⟨hslash, hconfined⟩, hoptionSame⟩

/-- What passed the manifest's check names the mount first. -/
theorem components_of_validate {m : ClusterManifest} (h : m.validate = .ok ()) {dest : Destination}
    (hdest : dest ∈ m.spec.backup.destinations) {rest : String}
    (hurl : Text.splitOnce (Text.trim dest.url) "://" = some ("file", rest)) :
    ∃ below, Path.components rest.toList = ARCHIVE :: below := by
  have hcheck := validateDestination_of_validate h dest hdest
  simp only [ClusterManifest.validateDestination, hurl] at hcheck
  split at hcheck
  · cases hcheck
  split at hcheck
  · cases hcheck
  rw [if_pos trivial, ClusterManifest.validateFileDestination] at hcheck
  split at hcheck
  · cases hcheck
  dsimp only at hcheck
  split at hcheck
  · cases hcheck
  next hinside =>
  rw [← components_checkedPath]
  by_cases hmount : checkedPath rest = Container.ARCHIVE_MOUNT
  · rw [hmount]
    exact ⟨[], by decide +kernel⟩
  · have hbelow : Text.startsWith (checkedPath rest) (Container.ARCHIVE_MOUNT ++ "/") = true := by
      have himp : checkedPath rest ≠ Container.ARCHIVE_MOUNT →
          Text.startsWith (checkedPath rest) (Container.ARCHIVE_MOUNT ++ "/") = true := by
        simpa [checkedPath] using hinside
      exact himp hmount
    obtain ⟨cs, hcs⟩ := of_decide_eq_true hbelow
    have hlist : (checkedPath rest).toList = ('/' :: ARCHIVE) ++ '/' :: cs := by
      rw [← hcs]
      rfl
    have hname : Path.components ('/' :: ARCHIVE) = [ARCHIVE] := by decide +kernel
    rw [hlist, Path.components_append, hname]
    exact ⟨_, rfl⟩

/-- Without `..` in its URL, an accepted destination is confined. -/
theorem confined_of_no_dotdot {m : ClusterManifest} (h : m.validate = .ok ()) {dest : Destination}
    (hdest : dest ∈ m.spec.backup.destinations) {rest : String}
    (hurl : Text.splitOnce (Text.trim dest.url) "://" = some ("file", rest))
    (hdots : ['.', '.'] ∉ Path.components rest.toList) : Confined rest := by
  obtain ⟨below, hbelow⟩ := components_of_validate h hdest hurl
  refine ⟨[], below, hbelow, rfl, ?_⟩
  rw [hbelow, List.mem_cons, not_or] at hdots
  exact Path.staysIn_of_not_mem hdots.2

namespace Sample

/-- The instance's own volume, by way of the archive. -/
def sideways : Destination := { url := "file:///archive/../pgdata/backups" }

def archivedTo (path : String) : Repository where
  kind := .posix
  path := path
  port := none
  verifyTls := true
  extra := []

/-- **An accepted destination leaves the archive**: the check sees a path that starts with the
mount, and the file system puts the backups on the instance's volume. -/
theorem file_destination_escapes :
    (archivingTo sideways.url (some "mydb-archive")).validate = .ok () ∧
    sideways ∈ (archivingTo sideways.url (some "mydb-archive")).spec.backup.destinations ∧
    Repository.fromDestination sideways = .ok (archivedTo "/archive/../pgdata/backups") ∧
    ¬ InMount "/archive/../pgdata/backups" ∧
    Path.resolve (Path.components Container.VOLUME_MOUNT.toList) <+:
      Path.resolve (Path.components "/archive/../pgdata/backups".toList) := by
  refine ⟨by decide +kernel, by decide +kernel, by decide +kernel, ?_, by decide +kernel⟩
  rw [inMount_iff, Absolute]
  decide +kernel

/-- Below the archive, with a bucket before it, and an option that repeats the path. -/
def belowArchive : List Destination :=
  [{ url := "gs://far/pg" },
   { url := "file:///archive/./prod//../demo/", options := .single "path" "/archive/./prod/../demo" }]

def belowArchiveConfig : PgBackRestConfig where
  stanza := "mydb"
  repositories :=
    [{ kind := .gcs "far", path := "/pg", port := none, verifyTls := true, extra := [] },
     { archivedTo "/archive/./prod//../demo" with extra := [("path", "/archive/./prod/../demo")] }]
  retentionDays := none
  compressLevel := 3
  recoveryStanza := none

theorem file_destination_confined_below :
    ∃ entries, Ini.read ((belowArchiveConfig.withCredentials []).withRecoveryStanza none).render =
        some entries ∧ InArchive entries 2 "/archive/./prod//../demo/" := by
  have hnew : PgBackRestConfig.new "mydb" belowArchive none .report = .ok belowArchiveConfig := by
    decide +kernel
  have hurl : Text.splitOnce (Text.trim "file:///archive/./prod//../demo/") "://" =
      some ("file", "/archive/./prod//../demo/") := by decide +kernel
  have hlines : ((belowArchiveConfig.withCredentials []).withRecoveryStanza none).OneLine
      (PgBackRestConfig.givenTo belowArchive []) := by
    constructor <;> decide +kernel
  have hlast : Ini.last (PgBackRestConfig.givenTo belowArchive [] 1) "path" =
      some "/archive/./prod/../demo" := by decide +kernel
  refine (file_destination_confined_iff hnew [] none (i := 1) rfl hurl hlines).mpr ⟨⟨?_, ?_, ?_⟩,
    [], [['.'], "prod".toList, ['.', '.'], "demo".toList], ?_, rfl, ?_⟩
  · intro kind hkind
    cases hkind
  · decide +kernel
  · intro p hp
    obtain rfl := Option.some.inj (hlast.symm.trans hp)
    unfold Absolute SamePath
    decide +kernel
  · decide +kernel
  · decide +kernel

end Sample

end Pgpod
