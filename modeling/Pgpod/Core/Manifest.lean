import Pgpod.Core.Spec

/-!
# The cluster manifest

What `pgpod apply` reads.  `ClusterManifest.validate` is the check that
`from_yaml` makes after parsing; an `AcceptedManifest` is one that passed it, so
everything downstream starts from its proof.
-/

namespace Pgpod

def API_VERSION : String := "pgpod/v1"
def KIND : String := "Cluster"

structure Metadata where
  name : String
deriving DecidableEq

structure BootstrapSpec where
  initdb : InitdbBootstrap := {}
deriving DecidableEq

structure PostgresqlSpec where
  parameters : StringMap := .empty
  sharedPreloadLibraries : List String := []
deriving DecidableEq

structure StorageSpec where
  size : Option String := none
deriving DecidableEq

structure ClusterSpec where
  instances : UInt32 := 1
  imageName : String
  bootstrap : BootstrapSpec := {}
  postgresql : PostgresqlSpec := {}
  storage : StorageSpec := {}
  backup : BackupSpec := {}
  postgresUid : UInt32 := Container.DEFAULT_POSTGRES_UID
  postgresGid : UInt32 := Container.DEFAULT_POSTGRES_UID
deriving DecidableEq

structure ClusterManifest where
  apiVersion : String
  kind : String
  metadata : Metadata
  spec : ClusterSpec
deriving DecidableEq

inductive ManifestError
  | parse (why : String)
  | apiVersion (found : String)
  | kind (found : String)
  | name (why : ParseInstanceIdError)
  | instances (why : String)
  | imageName
  | pooler (why : String)
  | destination (why : String)
deriving DecidableEq

namespace ManifestError

def toString : ManifestError → String
  | parse why => "could not parse the manifest: " ++ why
  | apiVersion found =>
    "unsupported apiVersion " ++ Text.debug found ++ " — expected " ++ Text.debug API_VERSION
  | kind found => "unsupported kind " ++ Text.debug found ++ " — expected " ++ Text.debug KIND
  | name why => "metadata.name: " ++ why.toString
  | instances why => "spec.instances: " ++ why
  | imageName => "spec.imageName is required"
  | pooler why => why
  | destination why => "spec.backup.destinations: " ++ why

end ManifestError

/-- The URL schemes a destination may use. -/
def KNOWN : List String := ["file", "s3", "s3a", "gs", "az", "abfs", "abfss", "memory"]

namespace ClusterManifest

def clusterId (m : ClusterManifest) : Except ManifestError ClusterId :=
  (ClusterId.new m.metadata.name).mapError .name

/-- A `file://` URL must point into the mounted archive volume. -/
def validateFileDestination (backup : BackupSpec) (url rest : String) :
    Except ManifestError Unit :=
  if backup.volume.isNone then .error (.destination
    (Text.debug url ++ " is a local path, so spec.backup.volume must name a podman volume for " ++
      "pgpod to mount at " ++ Container.ARCHIVE_MOUNT))
  else
    let path := "/" ++ Text.trimStartMatches rest '/'
    if path != Container.ARCHIVE_MOUNT &&
        !Text.startsWith path (Container.ARCHIVE_MOUNT ++ "/") then
      .error (.destination (Text.debug url ++ " is outside " ++ Container.ARCHIVE_MOUNT ++
        ", where spec.backup.volume is mounted — nothing else in the container is writable"))
    else .ok ()

def validateDestination (backup : BackupSpec) (dest : Destination) :
    Except ManifestError Unit :=
  let url := Text.trim dest.url
  match Text.splitOnce url "://" with
  | none => .error (.destination
      (Text.debug url ++ " is not a URL — expected something like gs://bucket/prefix"))
  | some (scheme, rest) =>
    if (Text.trimStartMatches rest '/').isEmpty then
      .error (.destination (Text.debug url ++ " names no bucket or path"))
    else if !KNOWN.contains scheme then
      .error (.destination (Text.debug url ++ " uses an unsupported scheme " ++ Text.debug scheme ++
        " — pgpod supports " ++ ", ".intercalate KNOWN))
    else if scheme = "file" then validateFileDestination backup url rest
    else .ok ()

def validateEach (backup : BackupSpec) : List Destination → Except ManifestError Unit
  | [] => .ok ()
  | dest :: rest => do
    validateDestination backup dest
    validateEach backup rest

/-- Catch a malformed destination here, rather than at the first `archive_command`. -/
def validateDestinations (backup : BackupSpec) : Except ManifestError Unit := do
  validateEach backup backup.destinations
  if backup.volume.isSome &&
      !backup.destinations.any (fun d => Text.startsWith (Text.trim d.url) "file://") then
    .error (.destination "spec.backup.volume is set but no destination is a file:// URL")
  else .ok ()

def validate (m : ClusterManifest) : Except ManifestError Unit := do
  if m.apiVersion ≠ API_VERSION then throw (.apiVersion m.apiVersion)
  if m.kind ≠ KIND then throw (.kind m.kind)
  let _ ← m.clusterId
  if m.spec.instances = 0 then throw (.instances "instances must be at least 1")
  if m.spec.instances > 1 then
    throw (.instances ("instances: " ++ toString m.spec.instances.toNat ++
      " — replicas land in Phase 3; pgpod currently supports a single instance"))
  if (Text.trim m.spec.imageName).isEmpty then throw .imageName
  validateDestinations m.spec.backup

/-- `spec.postgresql.parameters` as the ordered pairs the renderer wants. -/
def parameters (m : ClusterManifest) : List (String × String) :=
  m.spec.postgresql.parameters.entries

theorem clusterId_eq_ok {m : ClusterManifest} {c : ClusterId} :
    m.clusterId = .ok c ↔ c.name = m.metadata.name := by
  rw [← ClusterId.new_eq_ok]
  unfold clusterId
  cases ClusterId.new m.metadata.name <;> simp [Except.mapError]

theorem clusterId_of_validate {m : ClusterManifest} (h : m.validate = .ok ()) :
    ∃ c, m.clusterId = .ok c ∧ c.name = m.metadata.name := by
  cases hc : m.clusterId with
  | error e =>
    simp only [validate, hc, bind, Except.bind] at h
    split at h
    · cases h
    · split at h
      · cases h
      · cases h
  | ok c => exact ⟨c, rfl, clusterId_eq_ok.mp hc⟩

/-- What passed asks for one instance, and its destinations passed their own check. -/
theorem of_validate {m : ClusterManifest} (h : m.validate = .ok ()) :
    m.spec.instances = 1 ∧ validateDestinations m.spec.backup = .ok () := by
  obtain ⟨c, hc, -⟩ := clusterId_of_validate h
  simp only [validate, hc, bind, Except.bind] at h
  split at h
  · cases h
  split at h
  · cases h
  split at h
  · cases h
  next hzero =>
  split at h
  · cases h
  next hone =>
  split at h
  · cases h
  refine ⟨UInt32.toNat_inj.mp ?_, h⟩
  have hpos : m.spec.instances.toNat ≠ 0 := fun hz => hzero (UInt32.toNat_inj.mp hz)
  have hle : ¬ 1 < m.spec.instances.toNat := fun hz => hone (UInt32.lt_iff_toNat_lt.mpr hz)
  have hval : (1 : UInt32).toNat = 1 := rfl
  omega

end ClusterManifest

/-- A manifest that passed the checks `from_yaml` makes after parsing. -/
structure AcceptedManifest where
  manifest : ClusterManifest
  accepted : manifest.validate = .ok ()

namespace AcceptedManifest

/-- The cluster an accepted manifest names. -/
def cluster (m : AcceptedManifest) : ClusterId :=
  if h : validClusterName m.manifest.metadata.name = true then ⟨_, h⟩
  else ⟨"a", by decide⟩

theorem clusterId_eq (m : AcceptedManifest) : m.manifest.clusterId = .ok m.cluster := by
  obtain ⟨c, hc, hname⟩ := ClusterManifest.clusterId_of_validate m.accepted
  have hvalid : validClusterName m.manifest.metadata.name = true := hname ▸ c.valid
  rw [hc, cluster, dif_pos hvalid]
  exact congrArg Except.ok (ClusterId.ext hname)

theorem instances_eq (m : AcceptedManifest) : m.manifest.spec.instances = 1 :=
  (ClusterManifest.of_validate m.accepted).1

end AcceptedManifest

/-! ## Parameters pgpod manages itself -/

def RESERVED_PARAMETERS : List String :=
  ["archive_command", "archive_mode", "hot_standby", "listen_addresses",
   "max_replication_slots", "max_wal_senders", "port", "primary_conninfo",
   "primary_slot_name", "recovery_target", "recovery_target_action", "recovery_target_lsn",
   "recovery_target_name", "recovery_target_time", "recovery_target_timeline",
   "recovery_target_xid", "restore_command", "unix_socket_directories", "wal_level",
   "wal_log_hints"]

/-- The first reserved parameter of a list, normalised. -/
def reservedParameter : List (String × String) → Option String
  | [] => none
  | (key, _) :: rest =>
    let normalized := Text.toAsciiLowercase (Text.trim key)
    if RESERVED_PARAMETERS.contains normalized then some normalized
    else reservedParameter rest

/-- `archive_command`, as PostgreSQL runs it. -/
def archiveCommand (stanza : String) : String :=
  Container.PGBACKREST_BIN ++ " --config=" ++ Container.PGBACKREST_CONF ++
    " --stanza=" ++ stanza ++ " archive-push %p"

end Pgpod
