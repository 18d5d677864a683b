import Pgpod.Control.Error
import Pgpod.Runtime.Container

/-!
# From a manifest to a container

`instanceSpec` is what the agent will act on, `containerSpec` the container that
carries it, and `refuseIfDiverged` the comparison by which `apply` decides
whether a container that exists may be adopted.
-/

namespace Pgpod

/-! ## Names -/

namespace Names

def LABEL_CLUSTER : String := "pgpod.cluster"
def LABEL_INSTANCE : String := "pgpod.instance"

def instanceLabels (i : InstanceId) : List (String × String) :=
  [(LABEL_CLUSTER, i.cluster.name), (LABEL_INSTANCE, i.toText)]

end Names

/-- Podman secret names for one cluster. -/
structure SecretNames where
  superuser : String
  replication : String
  monitor : String
  appOwner : String
deriving DecidableEq

namespace SecretNames

def forCluster (c : ClusterId) : SecretNames where
  superuser := "pgpod-" ++ c.name ++ "-superuser"
  replication := "pgpod-" ++ c.name ++ "-replication"
  monitor := "pgpod-" ++ c.name ++ "-monitor"
  appOwner := "pgpod-" ++ c.name ++ "-app-owner"

def all (s : SecretNames) : List String := [s.superuser, s.replication, s.monitor, s.appOwner]

/-- A cluster's secrets paired with the same role's on another. -/
def paired (s source : SecretNames) : List (String × String) :=
  [(s.superuser, source.superuser), (s.replication, source.replication),
   (s.monitor, source.monitor), (s.appOwner, source.appOwner)]

end SecretNames

/-- What the host fixes: the third-party crates, and the files installed beside pgpod. -/
structure Host where
  crates : Crates
  agentBinary : String
  pgbackrestBundle : String
  bundleInstalled : Bool

/-- The things every instance of one `apply` shares. -/
structure ApplyContext where
  bootstrap : Bootstrap
  networkCidr : Option String
  secrets : SecretNames
  agent : String
  recreate : Bool
  desiredImageId : Option String

namespace Control

def pgbackrestBundle (host : Host) : Except Error String :=
  if host.bundleInstalled then .ok host.pgbackrestBundle
  else .error (.pgBackRestMissing host.pgbackrestBundle)

/-- The backup section that crosses into the container. -/
def sanitizedBackup (m : ClusterManifest) : BackupSpec :=
  { m.spec.backup with destinations := m.spec.backup.destinations.map Destination.sanitized }

/-- The spec before its validation. -/
def buildInstanceSpec (m : ClusterManifest) (inst : InstanceId) (ctx : ApplyContext) :
    InstanceSpec where
  inst := inst
  port := 5432
  bootstrap := ctx.bootstrap
  parameters := m.parameters
  sharedPreloadLibraries := m.spec.postgresql.sharedPreloadLibraries
  networkCidr := ctx.networkCidr
  archiveCommand :=
    if (sanitizedBackup m).isEnabled then some (archiveCommand inst.cluster.asStr) else none
  backup := sanitizedBackup m

/-- The spec the agent will act on. -/
def instanceSpec (host : Host) (m : ClusterManifest) (inst : InstanceId) (ctx : ApplyContext) :
    Except Error InstanceSpec :=
  let spec := buildInstanceSpec m inst ctx
  match spec.validate host.crates with
  | .ok () => .ok spec
  | .error e => .error (.spec e)

/-- The volume of a `file://` archive. -/
def archiveVolume (m : ClusterManifest) : Option String := m.spec.backup.volume

/-- pgBackRest and its archive, for a cluster that archives or is being restored. -/
def addBackupMounts (host : Host) (m : ClusterManifest) (spec : InstanceSpec)
    (c : ContainerSpec) : Except Error ContainerSpec := do
  let c ←
    if spec.backup.isEnabled || spec.recovery.isSome then do
      let bundle ← pgbackrestBundle host
      pure (c.addMount (.bindReadOnly bundle Container.PGBACKREST_BUNDLE))
    else pure c
  match archiveVolume m with
  | some volume => pure (c.addMount (.volume volume Container.ARCHIVE_MOUNT false))
  | none => pure c

/-- The roles' secrets and where the agent reads them. -/
def roleMounts (m : ClusterManifest) (secrets : SecretNames) : List (String × String) :=
  [(secrets.superuser, Container.SECRET_SUPERUSER),
   (secrets.replication, Container.SECRET_REPLICATION),
   (secrets.monitor, Container.SECRET_MONITOR)] ++
  if m.spec.bootstrap.initdb.database.isSome then
    [(secrets.appOwner, Container.SECRET_APP_OWNER)]
  else []

/-- The credentials of the destinations that have any, addressed by index. -/
def credentialMounts : Nat → List Destination → List (String × String)
  | _, [] => []
  | index, dest :: rest =>
    match dest.credentials with
    | some secret => (secret, Destination.credentialsPath index) :: credentialMounts (index + 1) rest
    | none => credentialMounts (index + 1) rest

def secretMount (uid gid : UInt32) (nt : String × String) : SecretMount where
  name := nt.1
  target := nt.2
  mode := 0o400
  uid := uid
  gid := gid

def containerSpec (host : Host) (m : ClusterManifest) (inst : InstanceId) (ctx : ApplyContext)
    (hostPort : UInt16) : Except Error ContainerSpec := do
  let spec ← instanceSpec host m inst ctx
  let uid := m.spec.postgresUid
  let gid := m.spec.postgresGid
  let env ← (spec.toEnvValue host.crates).mapError Error.spec
  let c := ((((((((ContainerSpec.hardened m.spec.imageName).withName inst.containerName
    ).withHostname inst.containerName
    ).withUser (toString uid.toNat ++ ":" ++ toString gid.toNat)
    ).withEntrypoint [Container.AGENT_BIN, "instance", "run"]
    ).addEnv SPEC_ENV env
    ).addNetwork inst.cluster.networkName
    ).publish (.loopback hostPort 5432)
    ).addMount (.volume inst.volumeName Container.VOLUME_MOUNT false)
    |>.addMount (.bindReadOnly ctx.agent Container.AGENT_BIN)
  let c ← addBackupMounts host m spec c
  let mounts := roleMounts m ctx.secrets ++ credentialMounts 0 m.spec.backup.destinations
  let c := mounts.foldl (fun c nt => c.addSecret (secretMount uid gid nt)) c
  pure ((Names.instanceLabels inst).foldl ContainerSpec.addLabel c)

/-! ## Divergence -/

/-- An image ID, shortened the way podman prints one. -/
def shortId (id : String) : String :=
  let rec strip (fuel : Nat) (s : String) : String :=
    match fuel, Text.stripPrefix s "sha256:" with
    | fuel + 1, some rest => strip fuel rest
    | _, _ => s
  String.ofList ((strip id.length id).toList.take 12)

/-- The image of the container and the one the manifest asks for, when both are known and
they differ. -/
def imageChange (m : ClusterManifest) (ctx : ApplyContext) (probe : ContainerProbe) :
    Option (String × String) :=
  match ctx.desiredImageId, probe.imageId with
  | some desired, some running =>
    if desired ≠ running then some (probe.imageName.getD (shortId running), m.spec.imageName)
    else none
  | _, _ => none

def archiveModeOf (s : InstanceSpec) : String := if s.archiveCommand.isSome then "on" else "off"

def destinationUrls (s : InstanceSpec) : String :=
  if s.backup.destinations.isEmpty then "none"
  else ", ".intercalate (s.backup.destinations.map Destination.url)

def debugParameters (s : InstanceSpec) : String :=
  Text.debugList (s.parameters.map Text.debugPair)

def debugLibraries (s : InstanceSpec) : String :=
  Text.debugList (s.sharedPreloadLibraries.map Text.debug)

def debugRetention (s : InstanceSpec) : String :=
  Text.debugOption s.backup.retention ++ " (" ++ s.backup.retentionMode.debug ++ ")"

/-- Name what changed between two specs. -/
def differences (running desired : InstanceSpec)
    (image : Option (String × String)) : List String :=
  let fields := image.toList.map (fun (a, b) => ("image", a, b)) ++
    [("bootstrap", running.bootstrap.debug, desired.bootstrap.debug),
     ("parameters", debugParameters running, debugParameters desired),
     ("sharedPreloadLibraries", debugLibraries running, debugLibraries desired),
     ("archive_mode", archiveModeOf running, archiveModeOf desired),
     ("backup.destinations", destinationUrls running, destinationUrls desired),
     ("backup.retention", debugRetention running, debugRetention desired)]
  let out := (fields.filter fun (_, a, b) => a ≠ b).map
    fun (field, a, b) => "  " ++ field ++ ": " ++ a ++ " -> " ++ b
  if out.isEmpty then ["  (a field this diff does not yet name)"] else out

/-- Refuse to adopt a container that is running an older manifest. -/
def refuseIfDiverged (host : Host) (m : ClusterManifest) (inst : InstanceId)
    (ctx : ApplyContext) (probe : ContainerProbe) : Except Error Unit :=
  match probe.envVar SPEC_ENV with
  | none => .error (.diverged inst.toText ("the running container has no " ++ SPEC_ENV))
  | some raw => do
    let desired ← instanceSpec host m inst ctx
    let running ← (host.crates.instanceSpecFromJson raw).mapError fun e => .spec (.malformed e)
    let change := imageChange m ctx probe
    if running = desired && change.isNone then .ok ()
    else .error (.diverged inst.toText ("\n".intercalate (differences running desired change)))

end Control

end Pgpod
