import Pgpod.Backup.Config
import Pgpod.Core.Ini

/-!
# The text of `pgbackrest.conf`

What the agent writes, and what pgBackRest reads back.  Options are pasted into
the file as they are; retention is written after the options of every repository
and for the first one only.
-/

namespace Pgpod

namespace Container

def PGBACKREST_CA_FILE : String := "/opt/pgpod/share/ca-bundle.crt"

end Container

namespace Repository

/-- The options that follow from the destination itself. -/
def derived (repo : Repository) : List (String × String) :=
  (match repo.kind with
    | .posix => [("type", "posix")]
    | .s3 bucket endpoint region =>
      [("type", "s3"), ("s3-bucket", bucket)] ++
        (endpoint.map fun e => ("s3-endpoint", e)).toList ++
        (region.map fun r => ("s3-region", r)).toList ++ [("s3-uri-style", "path")]
    | .gcs bucket => [("type", "gcs"), ("gcs-bucket", bucket), ("gcs-key-type", "auto")]
    | .azure container account =>
      [("type", "azure"), ("azure-container", container)] ++
        (account.map fun a => ("azure-account", a)).toList) ++
  [("path", repo.path)] ++
  (repo.port.map fun port => ("storage-port", toString port)).toList ++
  (if repo.verifyTls then [] else [("storage-verify-tls", "n")]) ++
  (if repo.kind = .posix then [] else [("storage-ca-file", Container.PGBACKREST_CA_FILE)])

/-- The key of an option of the `n`th repository. -/
def key (n : Nat) (option : String) : String := "repo" ++ toString n ++ "-" ++ option

/-- The `repoN-*` settings: an explicit option comes after the derived ones. -/
def settings (n : Nat) (repo : Repository) : List (String × String) :=
  (repo.derived ++ repo.extra).map fun kv => (key n kv.1, kv.2)

end Repository

namespace PgBackRestConfig

/-- Attach the credentials of each repository, in the order of the destinations. -/
def withCredentials (c : PgBackRestConfig) (perRepo : List (List (String × String))) :
    PgBackRestConfig :=
  let rec attach : List Repository → List (List (String × String)) → List Repository
    | repo :: rest, creds :: more => { repo with extra := repo.extra ++ creds } :: attach rest more
    | repos, [] => repos
    | [], _ => []
  { c with repositories := attach c.repositories perRepo }

/-- Also define `stanza`, so that `restore_command` can name it. -/
def withRecoveryStanza (c : PgBackRestConfig) (stanza : Option String) : PgBackRestConfig :=
  { c with recoveryStanza := stanza.filter fun s => s ≠ c.stanza }

def stanzas (c : PgBackRestConfig) : List String := c.stanza :: c.recoveryStanza.toList

def reinvokeItems : List Ini.Item :=
  [.blank,
   .comment " --- how pgBackRest re-invokes itself ---",
   .comment " pgBackRest forks worker processes by re-executing its own",
   .comment " binary, which it finds via /proc/self/exe — the *real* binary,",
   .comment " not the wrapper that set the library path. Without this the",
   .comment " parent runs fine and every worker dies with",
   .comment " \x60libssh2.so.1: cannot open shared object file\x60 (ADR 04 §2).",
   .setting "cmd" Container.PGBACKREST_BIN]

def compressionItems (level : Nat) : List Ini.Item :=
  [.blank,
   .comment " --- compression ---",
   .comment " pgBackRest spells it \x60zst\x60, not \x60zstd\x60, and rejects the latter",
   .comment " outright: allowed values are none, bz2, gz, lz4, zst.",
   .setting "compress-type" "zst"] ++ [.setting "compress-level" (toString level)]

def pathItems : List Ini.Item :=
  [.blank,
   .comment " --- paths ---",
   .comment " All inside the volume: the container's rootfs is read-only, so",
   .comment " pgBackRest's own defaults under /var and /etc are not writable",
   .comment " (ADR 04 §3).",
   .setting "lock-path" Container.SOCKET_DIR,
   .setting "spool-path" Container.SPOOL_DIR,
   .setting "log-path" Container.LOG_DIR]

def loggingItems : List Ini.Item :=
  [.blank,
   .comment " --- logging ---",
   .comment " To the container stream, which is where every other pgpod log",
   .comment " line goes and what \x60pgpod logs\x60 reads.",
   .setting "log-level-console" "info",
   .setting "log-level-file" "off"]

def archivingItems : List Ini.Item :=
  [.blank,
   .comment " --- archiving ---",
   .comment " Synchronous, deliberately. With archive-async the command can",
   .comment " return before the segment is durable, and \x60archive_command\x60",
   .comment " returning 0 is PostgreSQL's signal that pg_wal may recycle it",
   .comment " (ADR 01 §1, kept by ADR 04 §4).",
   .comment "",
   .comment " archive-push-queue-max is deliberately absent: it makes",
   .comment " pgBackRest *drop* WAL to keep the primary running, which turns",
   .comment " a loud, recoverable outage into a silent gap in the archive.",
   .setting "archive-async" "n"]

/-- What is set for all repositories. -/
def commonItems (c : PgBackRestConfig) : List Ini.Item :=
  reinvokeItems ++ compressionItems c.compressLevel ++ pathItems ++ loggingItems ++ archivingItems

def retentionItems : Option Nat → List Ini.Item
  | none => []
  | some days =>
    [.blank,
     .comment " Retention. Only present when spec.backup.retentionMode",
     .comment " is \x60enforce\x60 — unset means pgBackRest keeps everything.",
     .setting "repo1-retention-full-type" "time"] ++
      [.setting "repo1-retention-full" (toString days)]

def stanzaSettings : List (String × String) :=
  [("pg1-path", Container.PGDATA), ("pg1-port", "5432"), ("pg1-socket-path", Container.SOCKET_DIR)]

def stanzaItems (stanza : String) : List Ini.Item :=
  [.blank, .header stanza] ++ stanzaSettings.map fun kv => .setting kv.1 kv.2

def repositorySettings (c : PgBackRestConfig) : List (String × String) :=
  (c.repositories.zipIdx 1).flatMap fun repo => repo.1.settings repo.2

def items (c : PgBackRestConfig) : List Ini.Item :=
  [.comment " Managed by pgpod. Rewritten on every instance start.",
   .comment " Edits here are lost; change spec.backup in the cluster manifest.",
   .blank,
   .header "global"] ++
  (c.repositorySettings.map fun kv => .setting kv.1 kv.2) ++
  retentionItems c.retentionDays ++ c.commonItems ++ c.stanzas.flatMap stanzaItems

/-- Render the file. -/
def render (c : PgBackRestConfig) : String := Ini.write c.items

/-! ## What is read back -/

/-- The time-based retention, as options of a repository. -/
def enforced : Option Nat → List (String × String)
  | none => []
  | some days => [("retention-full-type", "time"), ("retention-full", toString days)]

/-- The keys that are set for all repositories. -/
def COMMON_KEYS : List String :=
  ["cmd", "compress-type", "compress-level", "lock-path", "spool-path", "log-path",
   "log-level-console", "log-level-file", "archive-async"]

/-- The entries of the file say what was asked for: `given i` are the options and the credentials
of the destination at `i`. -/
structure ReadsBack (c : PgBackRestConfig) (given : Nat → List (String × String))
    (entries : List Ini.Entry) : Prop where
  explicit : ∀ i repo, c.repositories[i]? = some repo → ∀ kv ∈ given i,
    Ini.effective entries "global" (Repository.key (i + 1) kv.1) = some kv.2
  derived : ∀ i repo, c.repositories[i]? = some repo → ∀ k ∉ (given i).map Prod.fst,
    Ini.effective entries "global" (Repository.key (i + 1) k) =
      Ini.last (repo.derived ++ enforced c.retentionDays) k
  sections : Ini.headers entries = "global" :: c.stanzas
  distinct : (Ini.headers entries).Nodup
  noOther : ∀ kv ∈ Ini.assigned "global" false entries, kv.1 ∈ COMMON_KEYS ∨
    ∃ i repo k, c.repositories[i]? = some repo ∧ kv.1 = Repository.key (i + 1) k ∧
      k ∈ (given i ++ repo.derived ++ enforced c.retentionDays).map Prod.fst
  stanzaKeys : ∀ stanza ∈ c.stanzas, ∀ kv ∈ Ini.assigned stanza false entries,
    kv.1 ∈ stanzaSettings.map Prod.fst

/-- What the operator wrote can be pasted into the file: values on one line, options without a `=`
in their names and each with one value, stanzas that are not `global`; and an enforced retention
is the business of the first repository alone. -/
structure Pastes (c : PgBackRestConfig) (given : Nat → List (String × String)) : Prop where
  derived : ∀ repo ∈ c.repositories, ∀ kv ∈ repo.derived, '\n' ∉ kv.2.toList
  explicit : ∀ i < c.repositories.length, ∀ kv ∈ given i, (Ini.Entry.assign kv.1 kv.2).Plain
  once : ∀ i < c.repositories.length, ∀ kv ∈ given i, ∀ kv' ∈ given i, kv.1 = kv'.1 → kv.2 = kv'.2
  stanzas : ∀ stanza ∈ c.stanzas, '\n' ∉ stanza.toList ∧ stanza ≠ "global"
  first : ∀ kv ∈ given 0, ∀ kv' ∈ enforced c.retentionDays, kv.1 = kv'.1 → kv.2 = kv'.2
  others : ∀ i < c.repositories.length, i ≠ 0 →
    ∀ kv ∈ enforced c.retentionDays, kv.1 ∈ (given i).map Prod.fst

/-- Whatever is pasted into the file is of one line, and no option has a `=` in its name. -/
structure OneLine (c : PgBackRestConfig) (given : Nat → List (String × String)) : Prop where
  derived : ∀ repo ∈ c.repositories, ∀ kv ∈ repo.derived, '\n' ∉ kv.2.toList
  explicit : ∀ i < c.repositories.length, ∀ kv ∈ given i, (Ini.Entry.assign kv.1 kv.2).Plain
  stanzas : ∀ stanza ∈ c.stanzas, '\n' ∉ stanza.toList

end PgBackRestConfig

/-! ## Keys -/

namespace Repository

theorem toList_key (n : Nat) (k : String) :
    (key n k).toList = ['r', 'e', 'p', 'o'] ++ (Nat.toDigits 10 n ++ '-' :: k.toList) := by
  simp [key, String.toList_append]

theorem dash_not_mem_toDigits (n : Nat) : '-' ∉ Nat.toDigits 10 n := fun h =>
  absurd (Nat.isDigit_of_mem_toDigits (by omega) (by omega) h) (by decide)

/-- Keys of different repositories or options are different. -/
theorem key_inj {n n' : Nat} {k k' : String} (h : key n k = key n' k') : n = n' ∧ k = k' := by
  have hlist := congrArg String.toList h
  rw [toList_key, toList_key, List.append_cancel_left_eq] at hlist
  have hsplit := congrArg (List.splitOn '-') hlist
  rw [List.splitOn_append_cons_self_of_not_mem (dash_not_mem_toDigits n),
    List.splitOn_append_cons_self_of_not_mem (dash_not_mem_toDigits n')] at hsplit
  have hdigits := (List.cons.inj hsplit).1
  rw [hdigits, List.append_cancel_left_eq] at hlist
  refine ⟨?_, String.toList_injective (List.cons.inj hlist).2⟩
  rw [← Nat.ofDigitChars_toDigits (b := 10) (n := n) (by omega) (by omega), hdigits,
    Nat.ofDigitChars_toDigits (by omega) (by omega)]

theorem key_ne_of_front {n : Nat} {k name : String}
    (h : name.toList.take 4 ≠ ['r', 'e', 'p', 'o']) : key n k ≠ name := by
  rintro rfl
  rw [toList_key] at h
  exact h rfl

/-! ## The settings of the repositories -/

theorem last_settings (n : Nat) (repo : Repository) (k : String) :
    Ini.last (repo.settings n) (key n k) = (Ini.last repo.extra k).or (Ini.last repo.derived k) := by
  have hinj : Function.Injective (key n) := fun _ _ h => (key_inj h).2
  rw [settings, Ini.last_map hinj, Ini.last_append]

theorem last_settings_ne {n m : Nat} (h : n ≠ m) (repo : Repository) (k : String) :
    Ini.last (repo.settings n) (key m k) = none := by
  rw [Ini.last_eq_none_iff]
  intro hmem
  obtain ⟨kv, hkv, hkey⟩ := List.mem_map.mp hmem
  obtain ⟨kv, -, rfl⟩ := List.mem_map.mp hkv
  exact h (key_inj hkey).1

/-- Only a repository's own settings are under its index. -/
theorem last_zipIdx {repos : List Repository} {i s : Nat} {repo : Repository}
    (h : repos[i]? = some repo) (k : String) :
    Ini.last ((repos.zipIdx s).flatMap fun r => r.1.settings r.2) (key (s + i) k) =
      (Ini.last repo.extra k).or (Ini.last repo.derived k) := by
  have hlater : ∀ (repos : List Repository) (s m : Nat), m < s →
      Ini.last ((repos.zipIdx s).flatMap fun r => r.1.settings r.2) (key m k) = none := by
    intro repos s m hm
    induction repos generalizing s with
    | nil => rfl
    | cons r rest ih =>
      rw [List.zipIdx_cons, List.flatMap_cons, Ini.last_append, ih (s + 1) (by omega),
        last_settings_ne (by omega)]
      rfl
  induction repos generalizing i s with
  | nil => simp at h
  | cons r rest ih =>
    rw [List.zipIdx_cons, List.flatMap_cons, Ini.last_append]
    cases i with
    | zero =>
      obtain rfl : r = repo := by simpa using h
      rw [hlater rest (s + 1) (s + 0) (by omega)]
      exact last_settings s r k
    | succ i =>
      have hnext : s + (i + 1) = s + 1 + i := by omega
      rw [hnext, ih (by simpa using h), last_settings_ne (by omega), Option.or_none]

end Repository

namespace PgBackRestConfig

variable {c : PgBackRestConfig}

/-- What is assigned in the section `global`, in the order of the file. -/
def globals (c : PgBackRestConfig) : List (String × String) :=
  c.repositorySettings ++ (enforced c.retentionDays).map fun kv => (Repository.key 1 kv.1, kv.2)

/-- The values set for all repositories. -/
def commonSettings (c : PgBackRestConfig) : List (String × String) :=
  [("cmd", Container.PGBACKREST_BIN), ("compress-type", "zst"),
   ("compress-level", toString c.compressLevel), ("lock-path", Container.SOCKET_DIR),
   ("spool-path", Container.SPOOL_DIR), ("log-path", Container.LOG_DIR),
   ("log-level-console", "info"), ("log-level-file", "off"), ("archive-async", "n")]

/-- The value in effect for an option of a repository. -/
theorem last_globals {i : Nat} {repo : Repository} (h : c.repositories[i]? = some repo)
    (k : String) :
    Ini.last (c.globals ++ c.commonSettings) (Repository.key (i + 1) k) =
      (if i = 0 then Ini.last (enforced c.retentionDays) k else none).or
        ((Ini.last repo.extra k).or (Ini.last repo.derived k)) := by
  have hcommon : Ini.last c.commonSettings (Repository.key (i + 1) k) = none := by
    have hfront : ∀ name ∈ COMMON_KEYS, name.toList.take 4 ≠ ['r', 'e', 'p', 'o'] := by decide
    rw [Ini.last_eq_none_iff]
    exact fun hmem => Repository.key_ne_of_front (hfront _ hmem) rfl
  have hrepo := Repository.last_zipIdx (s := 1) h k
  rw [Nat.add_comm 1 i] at hrepo
  rw [Ini.last_append, hcommon, Option.none_or, globals, Ini.last_append, repositorySettings, hrepo]
  congr 1
  by_cases hi : i = 0
  · have hinj : Function.Injective (Repository.key 1) := fun _ _ h => (Repository.key_inj h).2
    rw [hi, if_pos rfl, Ini.last_map hinj]
  · rw [if_neg hi, Ini.last_eq_none_iff]
    intro hmem
    obtain ⟨kv, hkv, hkey⟩ := List.mem_map.mp hmem
    obtain ⟨kv, -, rfl⟩ := List.mem_map.mp hkv
    have hone := (Repository.key_inj hkey).1
    omega

/-! ## The entries of the file -/

def assigns (pairs : List (String × String)) : List Ini.Entry :=
  pairs.map fun kv => .assign kv.1 kv.2

theorem entries_settings (pairs : List (String × String)) :
    (pairs.map fun kv => Ini.Item.setting kv.1 kv.2).flatMap Ini.Item.entries = assigns pairs := by
  induction pairs with
  | nil => rfl
  | cons kv rest ih =>
    rw [List.map_cons, List.flatMap_cons, ih]
    rfl

theorem entries_items (c : PgBackRestConfig) :
    c.items.flatMap Ini.Item.entries =
      .header "global" :: (assigns (c.globals ++ c.commonSettings) ++
        c.stanzas.flatMap fun stanza => .header stanza :: assigns stanzaSettings) := by
  have hretention : (retentionItems c.retentionDays).flatMap Ini.Item.entries =
      assigns ((enforced c.retentionDays).map fun kv => (Repository.key 1 kv.1, kv.2)) := by
    cases c.retentionDays with
    | none => rfl
    | some days =>
      have htype : Repository.key 1 "retention-full-type" = "repo1-retention-full-type" := by
        decide
      have hfull : Repository.key 1 "retention-full" = "repo1-retention-full" := by decide
      simp only [enforced, List.map_cons, List.map_nil, htype, hfull]
      rfl
  have hstanzas : (c.stanzas.flatMap stanzaItems).flatMap Ini.Item.entries =
      c.stanzas.flatMap fun stanza => .header stanza :: assigns stanzaSettings := by
    rw [List.flatMap_assoc]
    rfl
  rw [items, List.flatMap_append, List.flatMap_append, List.flatMap_append, List.flatMap_append,
    entries_settings, hretention, hstanzas]
  have hcommon : c.commonItems.flatMap Ini.Item.entries = assigns c.commonSettings := rfl
  have hglobals : assigns (c.globals ++ c.commonSettings) = assigns c.repositorySettings ++
      assigns ((enforced c.retentionDays).map fun kv => (Repository.key 1 kv.1, kv.2)) ++
        assigns c.commonSettings := by
    simp only [assigns, globals, List.map_append]
  rw [hcommon, hglobals]
  simp [Ini.Item.entries]

theorem headers_assigns (pairs : List (String × String)) (entries : List Ini.Entry) :
    Ini.headers (assigns pairs ++ entries) = Ini.headers entries := by
  induction pairs with
  | nil => rfl
  | cons kv rest ih => exact ih

theorem headers_entries (c : PgBackRestConfig) :
    Ini.headers (c.items.flatMap Ini.Item.entries) = "global" :: c.stanzas := by
  have hstanzas : ∀ stanzas : List String,
      Ini.headers (stanzas.flatMap fun stanza => .header stanza :: assigns stanzaSettings) =
        stanzas := by
    intro stanzas
    induction stanzas with
    | nil => rfl
    | cons stanza rest ih =>
      rw [List.flatMap_cons, List.cons_append]
      change stanza :: Ini.headers (assigns stanzaSettings ++ _) = _
      rw [headers_assigns, ih]
  rw [entries_items]
  change "global" :: Ini.headers (assigns _ ++ _) = _
  rw [headers_assigns, hstanzas]

/-- In the sections of stanzas there is what a stanza has. -/
theorem mem_stanzaSettings {name : String} {inside : Bool} {stanzas : List String}
    {kv : String × String}
    (h : kv ∈ Ini.assigned name inside
      (stanzas.flatMap fun stanza => .header stanza :: assigns stanzaSettings)) :
    kv ∈ stanzaSettings ∧ name ∈ stanzas := by
  induction stanzas generalizing inside with
  | nil => cases inside <;> exact absurd h List.not_mem_nil
  | cons stanza rest ih =>
    have hassigned : Ini.assigned name inside
        ((stanza :: rest).flatMap fun stanza => .header stanza :: assigns stanzaSettings) =
        (if decide (stanza = name) then stanzaSettings else []) ++
          Ini.assigned name (stanza = name)
            (rest.flatMap fun stanza => .header stanza :: assigns stanzaSettings) := by
      rw [List.flatMap_cons, List.cons_append]
      cases inside <;> exact Ini.assigned_settings name _ stanzaSettings _
    rw [hassigned, List.mem_append] at h
    rcases h with hown | hlater
    · by_cases hname : stanza = name
      · rw [if_pos (decide_eq_true hname)] at hown
        exact ⟨hown, hname ▸ List.mem_cons_self⟩
      · rw [if_neg (by simpa using hname)] at hown
        exact absurd hown List.not_mem_nil
    · exact ⟨(ih hlater).1, List.mem_cons_of_mem _ (ih hlater).2⟩

theorem assigned_global (h : "global" ∉ c.stanzas) :
    Ini.assigned "global" false (c.items.flatMap Ini.Item.entries) =
      c.globals ++ c.commonSettings := by
  rw [entries_items]
  change Ini.assigned "global" true (assigns _ ++ _) = _
  have hrest : Ini.assigned "global" true
      (c.stanzas.flatMap fun stanza => .header stanza :: assigns stanzaSettings) = [] :=
    List.eq_nil_iff_forall_not_mem.mpr fun kv hkv => h (mem_stanzaSettings hkv).2
  rw [assigns, Ini.assigned_settings, hrest, if_pos rfl, List.append_nil]

theorem assigned_stanza {stanza : String} (h : stanza ≠ "global") {kv : String × String}
    (hkv : kv ∈ Ini.assigned stanza false (c.items.flatMap Ini.Item.entries)) :
    kv ∈ stanzaSettings := by
  rw [entries_items] at hkv
  have hclosed : Ini.assigned stanza false
      (.header "global" :: (assigns (c.globals ++ c.commonSettings) ++
        c.stanzas.flatMap fun stanza => .header stanza :: assigns stanzaSettings)) =
      Ini.assigned stanza false
        (c.stanzas.flatMap fun stanza => .header stanza :: assigns stanzaSettings) := by
    rw [Ini.assigned, decide_eq_false (Ne.symm h), assigns, Ini.assigned_settings]
    rfl
  rw [hclosed] at hkv
  exact (mem_stanzaSettings hkv).1

/-! ## Pasting -/

/-- The derived options have the names of options. -/
def DERIVED_KEYS : List String :=
  ["type", "s3-bucket", "s3-endpoint", "s3-region", "s3-uri-style", "gcs-bucket", "gcs-key-type",
   "azure-container", "azure-account", "path", "storage-port", "storage-verify-tls",
   "storage-ca-file"]

theorem derived_keys_sublist (repo : Repository) : (repo.derived.map Prod.fst).Sublist DERIVED_KEYS := by
  have hkind : ((match repo.kind with
      | .posix => [("type", "posix")]
      | .s3 bucket endpoint region =>
        [("type", "s3"), ("s3-bucket", bucket)] ++
          (endpoint.map fun e => ("s3-endpoint", e)).toList ++
          (region.map fun r => ("s3-region", r)).toList ++ [("s3-uri-style", "path")]
      | .gcs bucket => [("type", "gcs"), ("gcs-bucket", bucket), ("gcs-key-type", "auto")]
      | .azure container account =>
        [("type", "azure"), ("azure-container", container)] ++
          (account.map fun a => ("azure-account", a)).toList).map Prod.fst).Sublist
      (DERIVED_KEYS.take 9) := by
    cases repo.kind with
    | posix => simp only [List.map_cons, List.map_nil]; decide
    | s3 bucket endpoint region =>
      cases endpoint <;> cases region <;>
        simp only [Option.map, Option.toList, List.map_append, List.map_cons, List.map_nil] <;> decide
    | gcs bucket => simp only [List.map_cons, List.map_nil]; decide
    | azure container account =>
      cases account <;>
        simp only [Option.map, Option.toList, List.map_append, List.map_cons, List.map_nil] <;> decide
  have hport : ((repo.port.map fun port => ("storage-port", toString port)).toList.map
      Prod.fst).Sublist ["storage-port"] := by
    cases repo.port <;> simp
  have htls : ((if repo.verifyTls then [] else [("storage-verify-tls", "n")]).map
      Prod.fst).Sublist ["storage-verify-tls"] := by
    cases repo.verifyTls <;> simp
  have hca : ((if repo.kind = .posix then []
      else [("storage-ca-file", Container.PGBACKREST_CA_FILE)]).map Prod.fst).Sublist
        ["storage-ca-file"] := by
    split <;> simp
  simp only [Repository.derived, List.map_append]
  exact ((((hkind.append (List.Sublist.refl ["path"])).append hport).append htls).append hca)

theorem derived_keys_subset (repo : Repository) :
    repo.derived.map Prod.fst ⊆ DERIVED_KEYS :=
  (derived_keys_sublist repo).subset

theorem mem_derived_keys {repo : Repository} {kv : String × String} (h : kv ∈ repo.derived) :
    kv.1 ∈ DERIVED_KEYS :=
  derived_keys_subset repo (List.mem_map_of_mem h)

/-- A setting whose key is made of plain parts is a plain line. -/
theorem plain_setting {n : Nat} {kv : String × String} (h : (Ini.Entry.assign kv.1 kv.2).Plain) :
    (Ini.Item.setting (Repository.key n kv.1) kv.2).Plain := by
  obtain ⟨hline, heq, hvalue⟩ := h
  have hdigit : ∀ d ∈ Nat.toDigits 10 n, d.isDigit = true := fun _ hd =>
    Nat.isDigit_of_mem_toDigits (by omega) (by omega) hd
  have hkey := Repository.toList_key n kv.1
  refine ⟨⟨?_, ?_, hvalue⟩, by rw [hkey]; rfl⟩
  · rw [hkey]
    simp only [List.mem_append, List.mem_cons, not_or]
    exact ⟨by decide, fun hd => absurd (hdigit _ hd) (by decide), by decide, hline⟩
  · rw [hkey]
    simp only [List.mem_append, List.mem_cons, not_or]
    exact ⟨by decide, fun hd => absurd (hdigit _ hd) (by decide), by decide, heq⟩

theorem newline_not_mem_toString (n : Nat) : '\n' ∉ (toString n).toList := by
  intro h
  rw [Nat.toString_eq_ofList_toDigits, String.toList_ofList] at h
  exact absurd (Nat.isDigit_of_mem_toDigits (by omega) (by omega) h) (by decide)

theorem plain_commonItems (c : PgBackRestConfig) : ∀ i ∈ c.commonItems, i.Plain := by
  have hlevel : (Ini.Item.setting "compress-level" (toString c.compressLevel)).Plain :=
    ⟨⟨by decide, by decide, newline_not_mem_toString _⟩, by decide⟩
  simp only [commonItems, reinvokeItems, compressionItems, pathItems, loggingItems, archivingItems,
    List.cons_append, List.nil_append]
  repeat' refine List.forall_mem_cons.2 ⟨?_, ?_⟩
  all_goals first
    | exact trivial
    | exact List.forall_mem_nil _
    | exact Ini.Item.plain_comment (by decide)
    | exact Ini.Item.plain_setting (by decide) (by decide) (by decide)
    | exact hlevel

/-- With plain values and names, every line of the file is what it was written as. -/
theorem plain_items
    (hderived : ∀ repo ∈ c.repositories, ∀ kv ∈ repo.derived, '\n' ∉ kv.2.toList)
    (hextra : ∀ repo ∈ c.repositories, ∀ kv ∈ repo.extra, (Ini.Entry.assign kv.1 kv.2).Plain)
    (hstanzas : ∀ stanza ∈ c.stanzas, '\n' ∉ stanza.toList) : ∀ i ∈ c.items, i.Plain := by
  have hkeys : ∀ k ∈ DERIVED_KEYS, '\n' ∉ k.toList ∧ '=' ∉ k.toList := by decide
  have hsettings : ∀ i ∈ c.repositorySettings.map fun kv => Ini.Item.setting kv.1 kv.2, i.Plain := by
    intro i hi
    obtain ⟨setting, hsetting, rfl⟩ := List.mem_map.mp hi
    obtain ⟨⟨repo, n⟩, hindex, hsetting⟩ := List.mem_flatMap.mp hsetting
    have hrepo : repo ∈ c.repositories := List.fst_mem_of_mem_zipIdx hindex
    obtain ⟨kv, hkv, rfl⟩ := List.mem_map.mp hsetting
    rcases List.mem_append.mp hkv with hkv | hkv
    · obtain ⟨hline, heq⟩ := hkeys _ (mem_derived_keys hkv)
      exact plain_setting ⟨hline, heq, hderived repo hrepo kv hkv⟩
    · exact plain_setting (hextra repo hrepo kv hkv)
  have hretention : ∀ i ∈ retentionItems c.retentionDays, i.Plain := by
    cases c.retentionDays with
    | none => exact fun _ h => absurd h List.not_mem_nil
    | some days =>
      have hdays : (Ini.Item.setting "repo1-retention-full" (toString days)).Plain :=
        ⟨⟨by decide, by decide, newline_not_mem_toString _⟩, by decide⟩
      simp only [retentionItems, List.cons_append, List.nil_append, List.forall_mem_cons]
      exact ⟨trivial, Ini.Item.plain_comment (by decide), Ini.Item.plain_comment (by decide),
        Ini.Item.plain_setting (by decide) (by decide) (by decide), hdays, List.forall_mem_nil _⟩
  have hsections : ∀ i ∈ c.stanzas.flatMap stanzaItems, i.Plain := by
    intro i hi
    obtain ⟨stanza, hstanza, hitem⟩ := List.mem_flatMap.mp hi
    have hsettings : ∀ i ∈ stanzaSettings.map fun kv => Ini.Item.setting kv.1 kv.2, i.Plain := by
      decide
    rcases List.mem_append.mp hitem with hitem | hitem
    · rcases List.mem_cons.mp hitem with rfl | hitem
      · exact trivial
      · rw [List.mem_singleton.mp hitem]
        exact hstanzas stanza hstanza
    · exact hsettings i hitem
  have hheader : ∀ i ∈ [Ini.Item.comment " Managed by pgpod. Rewritten on every instance start.",
      .comment " Edits here are lost; change spec.backup in the cluster manifest.",
      .blank, .header "global"], i.Plain := by
    simp only [List.forall_mem_cons]
    exact ⟨Ini.Item.plain_comment (by decide), Ini.Item.plain_comment (by decide), trivial,
      by decide, List.forall_mem_nil _⟩
  simp only [items, List.forall_mem_append]
  exact ⟨⟨⟨⟨hheader, hsettings⟩, hretention⟩, plain_commonItems c⟩, hsections⟩

/-! ## Reading back -/

section ReadsBack

variable {given : Nat → List (String × String)}
  (hgiven : ∀ i repo, c.repositories[i]? = some repo → repo.extra = given i)

/-- No derived option is one of retention. -/
theorem last_derived_enforced {repo : Repository} {kv : String × String}
    (h : kv ∈ enforced c.retentionDays) : Ini.last repo.derived kv.1 = none := by
  have hkey : kv.1 ∉ DERIVED_KEYS := by
    cases hdays : c.retentionDays with
    | none => rw [hdays] at h; exact absurd h List.not_mem_nil
    | some days =>
      rw [hdays] at h
      have htype : "retention-full-type" ∉ DERIVED_KEYS := by decide
      have hfull : "retention-full" ∉ DERIVED_KEYS := by decide
      rcases List.mem_cons.mp h with rfl | h
      · exact htype
      · rw [List.mem_singleton.mp h]
        exact hfull
  rw [Ini.last_eq_none_iff]
  exact fun hmem => hkey (derived_keys_subset repo hmem)

/-- A repository derives an option once. -/
theorem last_derived {repo : Repository} {kv : String × String} (h : kv ∈ repo.derived) :
    Ini.last repo.derived kv.1 = some kv.2 := by
  have hkeys : DERIVED_KEYS.Nodup := by decide
  exact Ini.last_of_nodup ((derived_keys_sublist repo).nodup hkeys) h

theorem last_enforced {kv : String × String} (h : kv ∈ enforced c.retentionDays) :
    Ini.last (enforced c.retentionDays) kv.1 = some kv.2 := by
  cases hdays : c.retentionDays with
  | none => rw [hdays] at h; exact absurd h List.not_mem_nil
  | some days =>
    rw [hdays] at h
    rcases List.mem_cons.mp h with rfl | h
    · rfl
    · rw [List.mem_singleton.mp h]
      rfl

theorem last_enforced_eq_none {days : Option Nat} {k : String}
    (h : k ∉ ["retention-full-type", "retention-full"]) : Ini.last (enforced days) k = none := by
  rw [Ini.last_eq_none_iff]
  cases days with
  | none => exact List.not_mem_nil
  | some n => exact h

theorem lt_of_getElem? {i : Nat} {repo : Repository} (h : c.repositories[i]? = some repo) :
    i < c.repositories.length :=
  (List.getElem?_eq_some_iff.mp h).1

include hgiven

/-- The value in effect for an option of a repository, whatever the stanzas are called. -/
theorem effective_key (i : Nat) (repo : Repository) (hrepo : c.repositories[i]? = some repo)
    (k : String) :
    Ini.effective (c.items.flatMap Ini.Item.entries) "global" (Repository.key (i + 1) k) =
      (if i = 0 then Ini.last (enforced c.retentionDays) k else none).or
        ((Ini.last (given i) k).or (Ini.last repo.derived k)) := by
  have hstanzas : Ini.last (Ini.assigned "global" true
      (c.stanzas.flatMap fun stanza => .header stanza :: assigns stanzaSettings))
        (Repository.key (i + 1) k) = none := by
    have hfront : ∀ kv ∈ stanzaSettings, kv.1.toList.take 4 ≠ ['r', 'e', 'p', 'o'] := by decide
    rw [Ini.last_eq_none_iff]
    intro hmem
    obtain ⟨kv, hkv, hkey⟩ := List.mem_map.mp hmem
    exact Repository.key_ne_of_front (hfront kv (mem_stanzaSettings hkv).1) hkey.symm
  rw [Ini.effective, entries_items]
  change Ini.last (Ini.assigned "global" true (assigns _ ++ _)) _ = _
  rw [assigns, Ini.assigned_settings, Ini.last_append, hstanzas, Option.none_or, if_pos rfl,
    last_globals hrepo, hgiven i repo hrepo]

/-- What is pasted is read back. -/
theorem readsBack_of_pastes (hsome : c.repositories ≠ []) (hnodup : c.stanzas.Nodup)
    (h : c.Pastes given) :
    c.ReadsBack given (c.items.flatMap Ini.Item.entries) := by
  have hglobal : "global" ∉ c.stanzas := fun hmem => (h.stanzas _ hmem).2 rfl
  have heffective := effective_key hgiven
  constructor
  · intro i repo hrepo kv hkv
    rw [heffective i repo hrepo]
    have hlt := lt_of_getElem? hrepo
    have hlast : Ini.last (given i) kv.1 = some kv.2 := by
      cases hlast : Ini.last (given i) kv.1 with
      | none => exact absurd (List.mem_map_of_mem hkv) (Ini.last_eq_none_iff.mp hlast)
      | some v => rw [h.once i hlt kv hkv _ (Ini.mem_of_last hlast) rfl]
    rw [hlast, Option.some_or]
    by_cases hi : i = 0
    · subst hi
      rw [if_pos rfl]
      cases henforced : Ini.last (enforced c.retentionDays) kv.1 with
      | none => rfl
      | some v =>
        rw [h.first kv hkv _ (Ini.mem_of_last henforced) rfl]
        rfl
    · rw [if_neg hi]
      rfl
  · intro i repo hrepo k hk
    rw [heffective i repo hrepo, Ini.last_append]
    have hnone : Ini.last (given i) k = none := Ini.last_eq_none_iff.mpr hk
    rw [hnone, Option.none_or]
    by_cases hi : i = 0
    · rw [if_pos hi]
    · rw [if_neg hi]
      cases henforced : Ini.last (enforced c.retentionDays) k with
      | none => rfl
      | some v => exact absurd (h.others i (lt_of_getElem? hrepo) hi _ (Ini.mem_of_last henforced)) hk
  · exact headers_entries c
  · rw [headers_entries]
    exact List.nodup_cons.mpr ⟨hglobal, hnodup⟩
  · intro kv hkv
    rw [assigned_global hglobal, globals, List.mem_append, List.mem_append] at hkv
    rcases hkv with (hkv | hkv) | hkv
    · obtain ⟨⟨repo, n⟩, hindex, hsetting⟩ := List.mem_flatMap.mp hkv
      obtain ⟨i, hi, hrepo⟩ : ∃ i, n = i + 1 ∧ c.repositories[i]? = some repo := by
        obtain ⟨hle, hget⟩ := List.mk_mem_zipIdx_iff_le_and_getElem?_sub.mp hindex
        exact ⟨n - 1, by omega, hget⟩
      obtain ⟨option, hoption, rfl⟩ := List.mem_map.mp hsetting
      refine .inr ⟨i, repo, option.1, hrepo, by rw [← hi], ?_⟩
      rw [← hgiven i repo hrepo]
      apply List.mem_map_of_mem
      rw [List.mem_append] at hoption
      rcases hoption with hoption | hoption
      · exact List.mem_append_left _ (List.mem_append_right _ hoption)
      · exact List.mem_append_left _ (List.mem_append_left _ hoption)
    · obtain ⟨option, hoption, rfl⟩ := List.mem_map.mp hkv
      obtain ⟨repo, rest, hrepos⟩ := List.exists_cons_of_ne_nil hsome
      refine .inr ⟨0, repo, option.1, by rw [hrepos]; rfl, rfl, ?_⟩
      exact List.mem_map_of_mem (List.mem_append_right _ hoption)
    · exact .inl (List.mem_map_of_mem (f := Prod.fst) hkv)
  · exact fun stanza hstanza kv hkv =>
      List.mem_map_of_mem (assigned_stanza (h.stanzas stanza hstanza).2 hkv)

omit hgiven in
theorem Pastes.oneLine (h : c.Pastes given) : c.OneLine given where
  derived := h.derived
  explicit := h.explicit
  stanzas := fun stanza hstanza => (h.stanzas stanza hstanza).1

/-- Every line of such a file is what it was written as. -/
theorem OneLine.read (h : c.OneLine given) :
    Ini.read c.render = some (c.items.flatMap Ini.Item.entries) := by
  refine Ini.read_write (plain_items h.derived (fun repo hrepo kv hkv => ?_) h.stanzas)
  obtain ⟨i, hi, rfl⟩ := List.getElem_of_mem hrepo
  rw [hgiven i _ (List.getElem?_eq_getElem hi)] at hkv
  exact h.explicit i hi kv hkv

omit hgiven in
theorem plain_of_key {n : Nat} {kv : String × String}
    (h : (Ini.Entry.assign (Repository.key n kv.1) kv.2).Plain) :
    (Ini.Entry.assign kv.1 kv.2).Plain := by
  have hsub : ∀ d ∈ kv.1.toList, d ∈ (Repository.key n kv.1).toList := by
    intro d hd
    rw [Repository.toList_key]
    exact List.mem_append_right _ (List.mem_append_right _ (List.mem_cons_of_mem _ hd))
  exact ⟨fun hd => h.1 (hsub _ hd), fun hd => h.2.1 (hsub _ hd), h.2.2⟩

/-- What is read back was pasted. -/
theorem pastes_of_readsBack (hsome : c.repositories ≠ [])
    (hoverridden : ∀ i repo, c.repositories[i]? = some repo → ∀ kv ∈ repo.derived,
      kv.1 ∈ (given i).map Prod.fst → '\n' ∉ kv.2.toList)
    {entries : List Ini.Entry} (hread : Ini.read c.render = some entries)
    (h : c.ReadsBack given entries) : c.Pastes given := by
  have hderived : ∀ repo ∈ c.repositories, ∀ kv ∈ repo.derived, '\n' ∉ kv.2.toList := by
    intro repo hrepo kv hkv
    obtain ⟨i, hi, rfl⟩ := List.getElem_of_mem hrepo
    by_cases hmem : kv.1 ∈ (given i).map Prod.fst
    · exact hoverridden i _ (List.getElem?_eq_getElem hi) kv hkv hmem
    · have heff := h.derived i _ (List.getElem?_eq_getElem hi) kv.1 hmem
      have henforced : Ini.last (enforced c.retentionDays) kv.1 = none := by
        cases hlast : Ini.last (enforced c.retentionDays) kv.1 with
        | none => rfl
        | some v =>
          have hpair : (kv.1, v) ∈ enforced c.retentionDays := Ini.mem_of_last hlast
          have hnone : Ini.last c.repositories[i].derived (kv.1, v).1 = none :=
            last_derived_enforced hpair
          exact absurd (List.mem_map_of_mem hkv) (Ini.last_eq_none_iff.mp hnone)
      rw [Ini.last_append, henforced, Option.none_or, last_derived hkv] at heff
      exact (Ini.plain_of_effective hread heff).2.2
  have hexplicit : ∀ i < c.repositories.length, ∀ kv ∈ given i,
      (Ini.Entry.assign kv.1 kv.2).Plain := by
    intro i hi kv hkv
    have heff := h.explicit i _ (List.getElem?_eq_getElem hi) kv hkv
    exact plain_of_key (Ini.plain_of_effective hread heff)
  have hstanzas : ∀ stanza ∈ c.stanzas, '\n' ∉ stanza.toList ∧ stanza ≠ "global" := by
    intro stanza hstanza
    constructor
    · have hheader : stanza ∈ Ini.headers entries := by
        rw [h.sections]
        exact List.mem_cons_of_mem _ hstanza
      exact Ini.plain_of_read hread _ (Ini.mem_headers.mp hheader)
    · rintro rfl
      have hnodup := h.distinct
      rw [h.sections] at hnodup
      exact (List.nodup_cons.mp hnodup).1 hstanza
  -- every line is what it was written as, so the entries are those of the items
  have hplain : ∀ i ∈ c.items, i.Plain := by
    refine plain_items hderived (fun repo hrepo kv hkv => ?_) fun stanza hs => (hstanzas stanza hs).1
    obtain ⟨i, hi, rfl⟩ := List.getElem_of_mem hrepo
    rw [hgiven i _ (List.getElem?_eq_getElem hi)] at hkv
    exact hexplicit i hi kv hkv
  obtain rfl : c.items.flatMap Ini.Item.entries = entries :=
    Option.some.inj ((Ini.read_write hplain).symm.trans hread)
  have hglobal : "global" ∉ c.stanzas := fun hmem => (hstanzas _ hmem).2 rfl
  refine ⟨hderived, hexplicit, fun i hi kv hkv kv' hkv' heq => ?_, hstanzas, fun kv hkv kv' hkv' heq => ?_,
    fun i hi hne kv hkv => ?_⟩
  · have heff := h.explicit i _ (List.getElem?_eq_getElem hi) kv hkv
    have heff' := h.explicit i _ (List.getElem?_eq_getElem hi) kv' hkv'
    rw [heq] at heff
    exact Option.some.inj (heff.symm.trans heff')
  · have hrepo := List.getElem?_eq_getElem (List.length_pos_iff.mpr hsome)
    have heff := h.explicit 0 _ hrepo kv hkv
    rw [heq, Ini.effective, assigned_global hglobal, last_globals hrepo, if_pos rfl,
      last_enforced hkv'] at heff
    exact (Option.some.inj heff).symm
  · by_contra hmissing
    have hrepo := List.getElem?_eq_getElem hi
    have heff := h.derived i _ hrepo kv.1 hmissing
    have hnone : Ini.last (given i) kv.1 = none := Ini.last_eq_none_iff.mpr hmissing
    rw [Ini.effective, assigned_global hglobal, last_globals hrepo, if_neg hne, hgiven i _ hrepo,
      hnone, Ini.last_append, last_derived_enforced hkv, last_enforced hkv] at heff
    cases heff

end ReadsBack

/-! ## Configurations that are built -/

/-- The options and the credentials of the destination at `i`. -/
def givenTo (dests : List Destination) (creds : List (List (String × String))) (i : Nat) :
    List (String × String) :=
  (dests[i]?.map fun d => d.options.entries).getD [] ++ creds[i]?.getD []

theorem attach_getElem? (repos : List Repository) (creds : List (List (String × String))) (i : Nat) :
    (withCredentials.attach repos creds)[i]? =
      repos[i]?.map fun repo => { repo with extra := repo.extra ++ creds[i]?.getD [] } := by
  induction repos generalizing creds i with
  | nil => cases creds <;> rfl
  | cons repo rest ih =>
    cases creds with
    | nil =>
      rw [withCredentials.attach]
      cases (repo :: rest)[i]? <;> simp
    | cons pairs more =>
      cases i with
      | zero => rfl
      | succ i => exact ih more i

theorem fromDestination_extra {dest : Destination} {repo : Repository}
    (h : Repository.fromDestination dest = .ok repo) : repo.extra = dest.options.entries := by
  unfold Repository.fromDestination at h
  cases hsplit : Text.splitOnce (Text.trim dest.url) "://" with
  | none => simp [hsplit] at h
  | some parts =>
    obtain ⟨scheme, rest⟩ := parts
    simp only [hsplit] at h
    split at h
    · simp only [Repository.ofFile] at h
      split at h
      · cases h
      · split at h
        · cases h
        · rw [← Except.ok.inj h]
    · split at h
      · simp only [Repository.ofBucket] at h
        split at h
        · cases h
        · cases hendpoint : splitEndpoint dest.endpoint with
          | error e => simp [hendpoint, bind, Except.bind] at h
          | ok parts =>
            simp only [hendpoint, bind, Except.bind, pure, Except.pure, Except.ok.injEq] at h
            rw [← h]
      · cases h

theorem translateEach_getElem? {dests : List Destination} {repos : List Repository}
    (h : translateEach dests = .ok repos) (i : Nat) :
    dests[i]?.map Repository.fromDestination = repos[i]?.map .ok := by
  induction dests generalizing repos i with
  | nil =>
    obtain rfl := Except.ok.inj h
    rfl
  | cons d rest ih =>
    simp only [translateEach, bind, Except.bind, pure, Except.pure] at h
    cases hd : Repository.fromDestination d with
    | error e => simp [hd] at h
    | ok first =>
      cases hrest : translateEach rest with
      | error e => simp [hd, hrest] at h
      | ok more =>
        simp only [hd, hrest, Except.ok.injEq] at h
        subst h
        cases i with
        | zero => exact congrArg some hd
        | succ i => exact ih hrest i

theorem repositories_of_new {stanza : String} {dests : List Destination} {retention : Option String}
    {mode : RetentionMode} {base : PgBackRestConfig}
    (h : new stanza dests retention mode = .ok base) :
    translateEach dests = .ok base.repositories ∧ dests ≠ [] := by
  simp only [new, bind, Except.bind, pure, Except.pure, throw, throwThe, MonadExceptOf.throw] at h
  split at h
  · cases h
  next hsome =>
  split at h
  · cases h
  split at h
  · cases h
  next repos hrepos =>
  split at h
  · cases h
  obtain rfl := Except.ok.inj h
  exact ⟨hrepos, by simpa using hsome⟩

theorem translateEach_ne_nil {dests : List Destination} {repos : List Repository}
    (h : translateEach dests = .ok repos) (hsome : dests ≠ []) : repos ≠ [] := by
  obtain ⟨d, rest, rfl⟩ := List.exists_cons_of_ne_nil hsome
  simp only [translateEach, bind, Except.bind, pure, Except.pure] at h
  split at h
  · cases h
  split at h
  · cases h
  obtain rfl := Except.ok.inj h
  exact List.cons_ne_nil _ _

/-- The repository at `i` carries the options and the credentials of the destination at `i`. -/
theorem extra_eq_given {stanza : String} {dests : List Destination} {retention : Option String}
    {mode : RetentionMode} {base : PgBackRestConfig}
    (hnew : new stanza dests retention mode = .ok base) (creds : List (List (String × String)))
    (recovery : Option String) (i : Nat) (repo : Repository)
    (hrepo : ((base.withCredentials creds).withRecoveryStanza recovery).repositories[i]? =
      some repo) : repo.extra = givenTo dests creds i := by
  rw [show ((base.withCredentials creds).withRecoveryStanza recovery).repositories =
    withCredentials.attach base.repositories creds from rfl, attach_getElem?] at hrepo
  obtain ⟨repo₀, hbase, rfl⟩ := Option.map_eq_some_iff.mp hrepo
  have htranslated := translateEach_getElem? (repositories_of_new hnew).1 i
  rw [hbase] at htranslated
  obtain ⟨d, hd, hfrom⟩ := Option.map_eq_some_iff.mp htranslated
  change repo₀.extra ++ _ = _ ++ _
  rw [fromDestination_extra hfrom, hd]
  rfl

/-- What the destination at `i` becomes. -/
theorem exists_repository {stanza : String} {dests : List Destination} {retention : Option String}
    {mode : RetentionMode} {base : PgBackRestConfig}
    (hnew : new stanza dests retention mode = .ok base) (creds : List (List (String × String)))
    (recovery : Option String) {i : Nat} {dest : Destination} (hdest : dests[i]? = some dest) :
    ∃ repo, Repository.fromDestination dest = .ok repo ∧
      ((base.withCredentials creds).withRecoveryStanza recovery).repositories[i]? =
        some { repo with extra := repo.extra ++ creds[i]?.getD [] } := by
  have htranslated := translateEach_getElem? (repositories_of_new hnew).1 i
  rw [hdest] at htranslated
  obtain ⟨repo, hbase, hfrom⟩ := Option.map_eq_some_iff.mp htranslated.symm
  refine ⟨repo, hfrom.symm, ?_⟩
  change (withCredentials.attach base.repositories creds)[i]? = _
  rw [attach_getElem?, hbase]
  rfl

/-- **The file reads back as what was asked for** when that can be pasted; and only then, unless an
option overrides a derived value of several lines. -/
theorem render_reads_back_iff {stanza : String} {dests : List Destination}
    {retention : Option String} {mode : RetentionMode} {base : PgBackRestConfig}
    (hnew : new stanza dests retention mode = .ok base) (creds : List (List (String × String)))
    (recovery : Option String) :
    let built := (base.withCredentials creds).withRecoveryStanza recovery
    let given := givenTo dests creds
    (built.Pastes given → ∃ entries, Ini.read built.render = some entries ∧
      built.ReadsBack given entries) ∧
    ((∃ entries, Ini.read built.render = some entries ∧ built.ReadsBack given entries) →
      (∀ i repo, built.repositories[i]? = some repo → ∀ kv ∈ repo.derived,
        kv.1 ∈ (given i).map Prod.fst → '\n' ∉ kv.2.toList) → built.Pastes given) := by
  intro built given
  have hrepos : built.repositories = withCredentials.attach base.repositories creds := rfl
  have hgiven := extra_eq_given hnew creds recovery
  have hsome : built.repositories ≠ [] := by
    intro hnil
    obtain ⟨htranslate, hdests⟩ := repositories_of_new hnew
    have hlength := congrArg (fun repos => repos[0]?) hnil
    simp only [hrepos, attach_getElem?, List.getElem?_nil, Option.map_eq_none_iff,
      List.getElem?_eq_none_iff] at hlength
    exact translateEach_ne_nil htranslate hdests (List.length_eq_zero_iff.mp (by omega))
  have hnodup : built.stanzas.Nodup := by
    have hother : ∀ s, recovery.filter (fun s => s ≠ base.stanza) = some s → s ≠ base.stanza := by
      intro s hs
      simpa using (Option.filter_eq_some_iff.mp hs).2
    change (base.stanza :: (recovery.filter fun s => s ≠ base.stanza).toList).Nodup
    cases hrecovery : recovery.filter fun s => s ≠ base.stanza with
    | none => simp
    | some s => simpa using (hother s hrecovery).symm
  refine ⟨fun h => ?_, fun ⟨entries, hread, hback⟩ hoverridden =>
    pastes_of_readsBack hgiven hsome hoverridden hread hback⟩
  exact ⟨_, h.oneLine.read hgiven, readsBack_of_pastes hgiven hsome hnodup h⟩

namespace Sample

/-- Two buckets; the first one is to keep 30 days of backups. -/
def twoBuckets : List Destination :=
  [{ url := "gs://near/pg", options := .single "retention-full" "30" },
   { url := "gs://far/pg" }]

def twoBucketsConfig : PgBackRestConfig where
  stanza := "mydb"
  repositories :=
    [{ kind := .gcs "near", path := "/pg", port := none, verifyTls := true,
       extra := [("retention-full", "30")] },
     { kind := .gcs "far", path := "/pg", port := none, verifyTls := true, extra := [] }]
  retentionDays := some 14
  compressLevel := 3
  recoveryStanza := none

/-- The explicit 30 days are overruled by the enforced 14, which the second bucket never gets. -/
theorem enforced_retention_overrules :
    new "mydb" twoBuckets (some "14d") .enforce = .ok twoBucketsConfig ∧
      ¬∃ entries, Ini.read twoBucketsConfig.render = some entries ∧
        twoBucketsConfig.ReadsBack (givenTo twoBuckets []) entries := by
  constructor
  · decide +kernel
  rintro ⟨entries, hread, hback⟩
  have hgiven : ∀ i repo, twoBucketsConfig.repositories[i]? = some repo →
      repo.extra = givenTo twoBuckets [] i := by
    intro i repo hrepo
    match i with
    | 0 => rw [← Option.some.inj hrepo]; rfl
    | 1 => rw [← Option.some.inj hrepo]; rfl
    | i + 2 => cases hrepo
  have hoverridden : ∀ i repo, twoBucketsConfig.repositories[i]? = some repo →
      ∀ kv ∈ repo.derived, kv.1 ∈ (givenTo twoBuckets [] i).map Prod.fst → '\n' ∉ kv.2.toList := by
    intro i repo hrepo
    match i with
    | 0 => rw [← Option.some.inj hrepo]; decide +kernel
    | 1 => rw [← Option.some.inj hrepo]; decide +kernel
    | i + 2 => cases hrepo
  have hpastes := pastes_of_readsBack hgiven (List.cons_ne_nil _ _) hoverridden hread hback
  have hsame : "30" = "14" :=
    hpastes.first ("retention-full", "30") (by decide +kernel) ("retention-full", "14")
      (by decide +kernel) rfl
  exact absurd hsame (by decide)

/-- Without enforcing, the same destinations read back, with a credential for the second. -/
theorem reported_retention_reads_back :
    let base := { twoBucketsConfig with retentionDays := none }
    let creds := [[], [("gcs-key", "/run/secrets/key")]]
    let built := (base.withCredentials creds).withRecoveryStanza (some "olddb")
    ∃ entries, Ini.read built.render = some entries ∧
      built.ReadsBack (givenTo twoBuckets creds) entries := by
  intro base creds built
  have hnew : new "mydb" twoBuckets (some "14d") .report = .ok base := by decide +kernel
  apply (render_reads_back_iff hnew creds (some "olddb")).1
  constructor <;> decide +kernel

end Sample

end PgBackRestConfig

end Pgpod
