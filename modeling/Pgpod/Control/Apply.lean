import Pgpod.Control.UpgradeJobs

/-!
# `apply`: create or converge a cluster

The read-only checks, then the half that runs once the cluster is recorded as
`applying`: network, secrets, the instance containers, readiness, and the
rotation of roles whose passwords came out of a backup.  `restore` is an apply
whose PGDATA comes from a repository.
-/

namespace Pgpod

open Effect

namespace Control

/-! ## Secrets -/

/-- The secrets of a cluster, and the roles left to rotate: SQL role and which secret. -/
structure EnsuredSecrets where
  names : SecretNames
  rotate : List (String × String)

/-- Which role a secret name belongs to. -/
def roleOf (secret : String) (cluster : ClusterId) : String :=
  (Text.stripPrefix secret ("pgpod-" ++ cluster.name ++ "-")).getD secret

/-- The cluster a bootstrap restores from. -/
def recoverySource : Bootstrap → Except Error (Option ClusterId)
  | .recovery r => match ClusterId.new r.sourceStanza with
    | .ok c => .ok (some c)
    | .error e => .error (.invalid ("recovery source: " ++ e.toString))
  | .initdb _ => .ok none

/-- Create one secret if it does not exist: from the source's, or generated.  Answers whether a
restored role was left with a password nobody here knows. -/
def ensureSecret (restoring : Bool) (name source : String) : CtlTask Bool := do
  let there ← podman (.secretExists name)
  if there then pure false
  else do
    let adopted ← if restoring then podman (.secretValue source) else pure none
    match adopted with
    | some value => do
      podman (.putSecret name value)
      pure false
    | none => do
      let generated ← Task.perform (.host .generatePassword)
      podman (.putSecret name generated)
      pure restoring

/-- The secrets in order; answers the roles to rotate. -/
def ensureEach (cluster : ClusterId) (restoring wantsApp : Bool) (appOwner : String) :
    List (String × String) → CtlTask (List String)
  | [] => pure []
  | (name, source) :: rest => do
    if name = appOwner && !wantsApp then ensureEach cluster restoring wantsApp appOwner rest
    else do
      let unavailable ← ensureSecret restoring name source
      let others ← ensureEach cluster restoring wantsApp appOwner rest
      pure (if unavailable then roleOf name cluster :: others else others)

/-- The SQL role behind a secret's role. -/
def sqlRole (m : ClusterManifest) (which : String) : Option String :=
  if which = "superuser" then some SUPERUSER_ROLE
  else if which = "replication" then some REPLICATION_ROLE
  else if which = "monitor" then some MONITOR_ROLE
  else if which = "app-owner" then m.spec.bootstrap.initdb.owner
  else none

/-- Create the cluster's secrets if they do not exist. -/
def ensureSecrets (cluster : ClusterId) (m : ClusterManifest) (bootstrap : Bootstrap) :
    CtlTask EnsuredSecrets := do
  let names := SecretNames.forCluster cluster
  let source ← Task.ofExcept (recoverySource bootstrap)
  let unavailable ← ensureEach cluster source.isSome m.spec.bootstrap.initdb.database.isSome
    names.appOwner (names.paired ((source.map SecretNames.forCluster).getD names))
  if unavailable.isEmpty then pure ⟨names, []⟩
  else do
    recordEvent cluster none "warn" ("restored from " ++ (source.map ClusterId.name).getD "" ++
      ", whose secrets are not on this host — rotating " ++ ", ".intercalate unavailable ++
      " to freshly generated passwords so the cluster is reachable")
    pure ⟨names, unavailable.filterMap fun which => (sqlRole m which).map fun role => (role, which)⟩

def secretOf (names : SecretNames) (which : String) : String :=
  if which = "superuser" then names.superuser
  else if which = "replication" then names.replication
  else if which = "monitor" then names.monitor
  else names.appOwner

/-- `ALTER ROLE … WITH PASSWORD`, for a valid role name. -/
def alterRolePasswordSql (role password : String) : Except Error Statement :=
  match validateIdentifier role with
  | .ok () => .ok (.alterRolePassword role password)
  | .error e => .error (.postgres e)

def rotateRole (cluster : ClusterId) (container : String) (names : SecretNames)
    (role which : String) : CtlTask Unit := do
  match ← podman (.secretValue (secretOf names which)) with
  | none => invalidOf ("secret " ++ secretOf names which ++ " vanished between create and use")
  | some password => do
    let sql ← Task.ofExcept (alterRolePasswordSql role password)
    let out ← podman (.exec container (.psql sql))
    if !out.success then
      invalidOf ("could not rotate the " ++ Text.debug role ++ " password on restored cluster " ++
        cluster.name ++ ", so it would not be reachable with the credentials pgpod stores: " ++
        Text.trim out.stderr)
    else recordEvent cluster (some 1) "info" ("rotated the " ++ role ++ " password after restore")

def rotateEach (cluster : ClusterId) (container : String) (names : SecretNames) :
    List (String × String) → CtlTask Unit
  | [] => pure ()
  | (role, which) :: rest => do
    rotateRole cluster container names role which
    rotateEach cluster container names rest

/-- Rotate roles whose password came out of a backup nobody here holds. -/
def rotateRestoredRoles (cluster : ClusterId) (rotate : List (String × String)) : CtlTask Unit := do
  if rotate.isEmpty then pure ()
  else do
    let container ← runningContainer (cluster.inst 1)
    waitWritable (cluster.inst 1) (.fromSecs 300)
    rotateEach cluster container (.forCluster cluster) rotate

/-! ## Instances -/

/-- The part of a recreate that happens while clients are held. -/
def recreateHeld (host : Host) (m : ClusterManifest) (inst : InstanceId) (ctx : ApplyContext)
    (hostPort : UInt16) : CtlTask String := do
  recordEvent inst.cluster (some inst.ordinal) "info"
    "removing the container to apply a changed spec"
  ignore (podman (.stop inst.containerName (.fromSecs 30)))
  podman (.remove inst.containerName)
  recordEvent inst.cluster (some inst.ordinal) "info" "creating the replacement container"
  let spec ← Task.ofExcept (containerSpec host m inst ctx hostPort)
  let id ← podman (.createContainer spec)
  podman (.start id)
  waitReady inst (.fromSecs 120)
  pure id

/-- Replace an instance's container with one of the current spec, holding pooled clients. -/
def recreateInstance (host : Host) (m : ClusterManifest) (inst : InstanceId) (ctx : ApplyContext)
    (hostPort : UInt16) : CtlTask String := do
  let started ← Task.perform (.host .now)
  let held ← PoolerHold.acquire inst.cluster
  Task.when held.isEmpty <|
    recordEvent inst.cluster (some inst.ordinal) "warn"
      "recreating with no pooler in front — open connections will drop"
  match ← Task.attempt (recreateHeld host m inst ctx hostPort) with
  | .ok id => do
    PoolerHold.releaseAfterRecreate inst.cluster held
    let elapsed ← Task.perform (.host (.elapsed started))
    recordEvent inst.cluster (some inst.ordinal) "info" ("recreated in " ++ toString elapsed ++
      "ms; " ++ toString held.length ++ " pooler(s) held clients throughout")
    pure id
  | .error e => do
    PoolerHold.release inst.cluster held
    recordEvent inst.cluster (some inst.ordinal) "error" ("recreate failed: " ++ e.toString)
    Task.throw e

/-- Create and start a container from the manifest. -/
def createAndStart (spec : ContainerSpec) : CtlTask String := do
  let id ← podman (.createContainer spec)
  podman (.start id)
  pure id

/-- Adopt the instance's container, restart it, replace it, or make one. -/
def convergeContainer (host : Host) (m : ClusterManifest) (inst : InstanceId) (ctx : ApplyContext)
    (hostPort : UInt16) : CtlTask String := do
  match ← podman (.probe inst.containerName) with
  | some p =>
    match p.running, refuseIfDiverged host m inst ctx p with
    | true, .ok () => pure p.id
    | true, .error e =>
      if ctx.recreate then do
        recordEvent inst.cluster (some inst.ordinal) "info"
          ("spec diverged, recreating: " ++ e.toString)
        recreateInstance host m inst ctx hostPort
      else Task.throw e
    | false, .ok () => do
      podman (.start p.id)
      pure p.id
    | false, .error e => do
      recordEvent inst.cluster (some inst.ordinal) "info"
        ("stopped instance diverged, recreating: " ++ e.toString)
      let spec ← Task.ofExcept (containerSpec host m inst ctx hostPort)
      podman (.pullImageIfAbsent m.spec.imageName)
      podman (.remove p.id)
      createAndStart spec
  | none => do
    let spec ← Task.ofExcept (containerSpec host m inst ctx hostPort)
    podman (.pullImageIfAbsent m.spec.imageName)
    createAndStart spec

def connectionUri (hostPort : UInt16) (m : ClusterManifest) : String :=
  let userAndDb := match m.spec.bootstrap.initdb.owner, m.spec.bootstrap.initdb.database with
    | some owner, some db => (owner, db)
    | _, _ => ("postgres", "postgres")
  "postgresql://" ++ userAndDb.1 ++ "@127.0.0.1:" ++ toString hostPort.toNat ++ "/" ++ userAndDb.2

def instanceRecordOf (inst : InstanceId) (volume : String) (hostPort : UInt16)
    (containerId : Option String) (phase : InstancePhase) : InstanceRecord where
  cluster := inst.cluster.name
  ordinal := inst.ordinal
  containerName := inst.containerName
  containerId := containerId
  volumeName := volume
  hostPort := hostPort
  phase := phase
  role := .unknown
  timeline := none
  lastProbeAtMs := none

def applyInstance (host : Host) (m : ClusterManifest) (inst : InstanceId) (ctx : ApplyContext) :
    CtlTask InstanceSummary := do
  let existing ← instanceRow inst.cluster inst.ordinal
  -- a port chosen before is kept across a recreate
  let hostPort ← match existing with
    | some row => pure row.hostPort
    | none => Task.ask (.host .allocatePort)
  let volume ← podman (.createVolume inst.volumeName)
  registry (.putInstance (instanceRecordOf inst volume hostPort none .creating))
  let id ← convergeContainer host m inst ctx hostPort
  registry (.putInstance (instanceRecordOf inst volume hostPort (some id) .bootstrapping))
  pure
    { inst := inst.toText
      container := inst.containerName
      volume
      hostPort
      connectionUri := connectionUri hostPort m }

/-- The ordinals `1 ..= n`. -/
def ordinals (n : UInt32) : List UInt32 := (List.range n.toNat).map fun i => UInt32.ofNat (i + 1)

def applyEach (host : Host) (m : ClusterManifest) (cluster : ClusterId) (ctx : ApplyContext) :
    List UInt32 → CtlTask (List InstanceSummary)
  | [] => pure []
  | ordinal :: rest => do
    let summary ← applyInstance host m (cluster.inst ordinal) ctx
    let others ← applyEach host m cluster ctx rest
    pure (summary :: others)

def waitEach (cluster : ClusterId) (wait : Duration) : List UInt32 → CtlTask Unit
  | [] => pure ()
  | ordinal :: rest => do
    waitReady (cluster.inst ordinal) wait
    waitEach cluster wait rest

/-! ## The recorded half -/

/-- Readiness, and the rotation that needs it. -/
def settleInstances (cluster : ClusterId) (m : ClusterManifest) (options : ApplyOptions)
    (rotate : List (String × String)) : CtlTask Unit :=
  if !options.wait.isZero then do
    waitEach cluster options.wait (ordinals m.spec.instances)
    rotateRestoredRoles cluster rotate
  else Task.when (!rotate.isEmpty) <|
    recordEvent cluster none "warn"
      ("credentials were not rotated because apply did not wait for readiness — re-apply with " ++
        "a non-zero wait to make this cluster reachable")

def applyRecorded (host : Host) (m : ClusterManifest) (cluster : ClusterId) (bootstrap : Bootstrap)
    (options : ApplyOptions) (agent : String) (desiredImageId : Option String) :
    CtlTask (List InstanceSummary) := do
  let networkCidr ← podman (.ensureNetwork cluster.networkName)
  match m.spec.backup.volume with
  | some volume => do
    let _ ← podman (.createVolume volume)
    pure ()
  | none => pure ()
  let ensured ← ensureSecrets cluster m bootstrap
  let ctx : ApplyContext :=
    { bootstrap
      networkCidr
      secrets := ensured.names
      agent
      recreate := options.recreate
      desiredImageId }
  let summaries ← applyEach host m cluster ctx (ordinals m.spec.instances)
  settleInstances cluster m options ensured.rotate
  pure summaries

/-- Reject reserved parameters before anything is created. -/
def validateParameters (m : ClusterManifest) : Except Error Unit :=
  match reservedParameter m.parameters with
  | some key => .error (.postgres (key ++ " is managed by pgpod and cannot be set in " ++
      "spec.postgresql.parameters — changing it would break backups, replication, or recovery"))
  | none => .ok ()

/-- Record that a recorded cluster's apply failed; a registry that cannot is only logged. -/
def recordApplyFailure (cluster : ClusterId) (e : Error) : CtlTask Unit := do
  ignore (registry (.setClusterPhase cluster .failed))
  ignore (recordEvent cluster none "error" ("apply failed: " ++ e.toString))

/-! ## The image check -/

def newerImage (cluster : ClusterId) (onDisk image version : String) : Error :=
  .invalid (cluster.name ++ " holds a PostgreSQL " ++ onDisk ++ " data directory, and " ++ image ++
    " is PostgreSQL " ++ version ++ ". `apply` cannot make that change: it would start the new " ++
    "server on the old data, which fails with \"database files are incompatible with " ++
    "server\".\n\nA major version needs pg_upgrade, which is a different operation with a " ++
    "different window:\n\n  pgpod upgrade " ++ cluster.name ++ " --to-image " ++ image ++
    "\n\nNothing has been changed — the data directory is still PostgreSQL " ++ onDisk ++ ".")

def olderImage (cluster : ClusterId) (onDisk image version : String) : Error :=
  .invalid (cluster.name ++ " holds a PostgreSQL " ++ onDisk ++ " data directory, and " ++ image ++
    " is PostgreSQL " ++ version ++ " — older. PostgreSQL cannot read a data directory written " ++
    "by a later major version, so this apply would leave an instance that never starts.\n\nIf " ++
    "this cluster has been through `pgpod upgrade`, this file is the stale half: set " ++
    "`imageName` to a PostgreSQL " ++ onDisk ++ " image to match the data.\n\nNothing has been " ++
    "changed.")

/-- The instance runs this very image already. -/
def alreadyRuns (probe : Option ContainerProbe) (desiredImageId : Option String) : Bool :=
  probe.any fun p => p.running && p.imageId.isSome && p.imageId = desiredImageId

/-- What the probe of image and volume says. -/
def compareVersions (cluster : ClusterId) (image : String) (probe : ProbeReport) :
    Except Error Unit :=
  match probe.dataVersion with
  | none => .ok ()
  | some onDisk =>
    let diskKey := (versionKey onDisk).getD 0
    let imageKey := (versionKey probe.version).getD 0
    if diskKey = imageKey then .ok ()
    else if diskKey < imageKey then .error (newerImage cluster onDisk image probe.version)
    else .error (olderImage cluster onDisk image probe.version)

/-- One job answers both halves: the image's version, and the one of the cluster on disk. -/
def imageProbe (host : Host) (m : ClusterManifest) (inst : InstanceId) : CtlTask ProbeReport :=
  upgradeJob host asProbe m inst "image-probe" ["upgrade", "probe"] none (.fromSecs 300)

/-- Refuse an `apply` whose image cannot read the data on disk. -/
def refuseIncompatibleImage (host : Host) (cluster : ClusterId) (m : ClusterManifest)
    (desiredImageId : Option String) : CtlTask Unit := do
  let there ← podman (.volumeExists (cluster.inst 1).volumeName)
  if !there then pure ()
  else do
    let probe ← podman (.probe (cluster.inst 1).containerName)
    if alreadyRuns probe desiredImageId then pure ()
    else do
      let report ← imageProbe host m (cluster.inst 1)
      Task.ofExcept (compareVersions cluster m.spec.imageName report)

/-! ## Apply and restore -/

/-- What `apply` asks before it writes anything: whether the cluster was known, the agent, and
the ID of the image. -/
def applyChecks (host : Host) (m : ClusterManifest) (cluster : ClusterId) :
    CtlTask (Bool × String × Option String) := do
  Task.ofExcept (validateParameters m)
  let agent ← agentBinary host
  let existing ← registry (.cluster cluster)
  podman (.pullImageIfAbsent m.spec.imageName)
  let desiredImageId ← podman (.imageId m.spec.imageName)
  refuseIncompatibleImage host cluster m desiredImageId
  pure (existing.isSome, agent, desiredImageId)

/-- The half that is recorded, and the phase it ends in. -/
def applyAndRecord (host : Host) (m : ClusterManifest) (cluster : ClusterId) (bootstrap : Bootstrap)
    (options : ApplyOptions) (existed : Bool) (agent : String) (desiredImageId : Option String) :
    CtlTask ApplyReport := do
  let generation ← registry (.putCluster m .applying)
  recordEvent cluster none "info" "apply requested"
  match ← Task.attempt (applyRecorded host m cluster bootstrap options agent desiredImageId) with
  | .error e => do
    recordApplyFailure cluster e
    Task.throw e
  | .ok summaries => do
    registry (.setClusterPhase cluster .running)
    recordEvent cluster none "info" "apply complete"
    pure { cluster := cluster.name, generation, created := !existed, instances := summaries }

/-- `apply`, with the bootstrap mode chosen by the caller. -/
def applyWithBootstrap (host : Host) (m : ClusterManifest) (bootstrap : Bootstrap)
    (options : ApplyOptions) : CtlTask ApplyReport := do
  let cluster ← Task.ofExcept (m.clusterId.mapError Error.manifest)
  let (existed, agent, desiredImageId) ← applyChecks host m cluster
  applyAndRecord host m cluster bootstrap options existed agent desiredImageId

/-- Create or converge a cluster, choosing what divergence may do. -/
def applyWith (host : Host) (m : ClusterManifest) (options : ApplyOptions) : CtlTask ApplyReport :=
  applyWithBootstrap host m (.initdb m.spec.bootstrap.initdb) options

end Control

end Pgpod
