import Pgpod.Core.Spec
import Mathlib.Tactic.Common

/-!
# What `validate` keeps out of the environment

An instance spec names destinations twice: those it archives to and those it is
restored from.  `validate` looks at the first list only.
-/

namespace Pgpod

/-- The destination names no secret of the host, and no option of it reads as a credential. -/
structure Destination.Clean (d : Destination) : Prop where
  credentials : d.credentials = none
  options : ∀ k ∈ d.options.keys, looksLikeCredential k = false

namespace InstanceSpec

/-- The destinations the spec is restored from. -/
def recoveryDestinations (s : InstanceSpec) : List Destination :=
  match s.bootstrap with
  | .initdb _ => []
  | .recovery r => r.destinations

/-- Every destination the encoded spec carries. -/
def allDestinations (s : InstanceSpec) : List Destination :=
  s.backup.destinations ++ s.recoveryDestinations

theorem validate_eq_ok {crates : Crates} {s : InstanceSpec} :
    s.validate crates = .ok () ↔ s.validateArchive = .ok () ∧ s.validateRecovery crates = .ok () ∧
      ∀ d ∈ s.backup.destinations, d.Clean := by
  have hkeys : (∀ k ∈ s.backup.destinations.flatMap fun d => d.options.keys,
      looksLikeCredential k = false) ↔
      ∀ d ∈ s.backup.destinations, ∀ k ∈ d.options.keys, looksLikeCredential k = false := by
    simp only [List.mem_flatMap, forall_exists_index, and_imp]
    exact ⟨fun h d hd k hk => h k d hd hk, fun h k d hd hk => h d hd k hk⟩
  have hbind : ∀ {x : Except SpecError Unit} {f : Except SpecError Unit},
      (x >>= fun _ => f) = .ok () ↔ x = .ok () ∧ f = .ok () := by
    intro x f
    cases x with
    | error e => exact ⟨nofun, fun h => nomatch h.1⟩
    | ok u => exact ⟨fun h => ⟨rfl, h⟩, fun h => h.2⟩
  unfold validate
  rw [hbind, hbind, hbind, validateCredentials_eq_ok, validateOptionKeys_eq_ok, hkeys]
  refine and_congr_right fun _ => and_congr_right fun _ => ?_
  exact ⟨fun h d hd => ⟨h.1 d hd, h.2 d hd⟩,
    fun h => ⟨fun d hd => (h d hd).credentials, fun d hd => (h d hd).options⟩⟩

theorem toEnvValue_validates {crates : Crates} {s : InstanceSpec} {json : String}
    (h : s.toEnvValue crates = .ok json) : s.validate crates = .ok () := by
  cases hvalid : s.validate crates with
  | ok u => rfl
  | error e =>
    unfold toEnvValue at h
    rw [hvalid] at h
    cases h

/-- **An accepted spec is clean throughout exactly when the destinations it is restored from
are.** -/
theorem toEnvValue_clean_iff (crates : Crates) (s : InstanceSpec) (json : String)
    (h : s.toEnvValue crates = .ok json) :
    (∀ d ∈ s.allDestinations, d.Clean) ↔ ∀ d ∈ s.recoveryDestinations, d.Clean := by
  obtain ⟨-, -, hbackup⟩ := validate_eq_ok.mp (toEnvValue_validates h)
  constructor
  · intro hall d hd
    exact hall d (List.mem_append_right _ hd)
  · intro hrecovery d hd
    rcases List.mem_append.mp hd with hd | hd
    · exact hbackup d hd
    · exact hrecovery d hd

namespace CredentialSample

def crates : Crates where
  isRfc3339 _ := false
  instanceSpecToJson _ := "\x7b\x7d"
  instanceSpecFromJson _ := .error ""

def source : Destination where
  url := "s3://backups/pg"
  credentials := some "mydb-s3"
  options := .single "aws_secret_access_key" "hunter2"

/-- An instance that archives nowhere and is restored from `d`. -/
def restored (d : Destination) : InstanceSpec where
  inst := ⟨⟨"mydb", mydb_valid⟩, 1⟩
  port := 5432
  bootstrap := .recovery
    { sourceStanza := "source", backupLabel := none, targetTime := none, destinations := [d] }
  parameters := []
  sharedPreloadLibraries := []
  networkCidr := none
  archiveCommand := none
  backup := {}

/-- **A credential reaches the environment** through the destinations of a restore. -/
theorem credential_of_restore_accepted : (restored source).toEnvValue crates = .ok "\x7b\x7d" ∧
    ¬ ∀ d ∈ (restored source).allDestinations, d.Clean := by
  refine ⟨rfl, fun h => ?_⟩
  have hclean := h source List.mem_cons_self
  exact absurd hclean.credentials (by decide)

theorem toEnvValue_clean_file :
    (restored { url := "file:///srv/backups" }).toEnvValue crates = .ok "\x7b\x7d" ∧
      ∀ d ∈ (restored { url := "file:///srv/backups" }).allDestinations, d.Clean := by
  have hfile : ∀ d ∈ (restored { url := "file:///srv/backups" }).recoveryDestinations, d.Clean := by
    intro d hd
    obtain rfl := List.mem_singleton.mp hd
    exact ⟨rfl, fun k hk => nomatch hk⟩
  refine ⟨rfl, ?_⟩
  exact (toEnvValue_clean_iff crates (restored { url := "file:///srv/backups" }) "\x7b\x7d" rfl).mpr
    hfile

end CredentialSample

end InstanceSpec

end Pgpod
