import Pgpod.Control.Records
import Pgpod.Effect.Prog

/-!
# `upgrade`: a cluster to a new major version

The body of the operation over the calls it makes: the registry, the jobs in
containers, the poolers' hold, and the start of the instance.  What each call
does is given one level below.
-/

namespace Pgpod

open Effect

namespace Control

/-- The calls `upgrade` makes. -/
inductive UpgradeOp : Type → Type
  | requireCluster (cluster : ClusterId) : UpgradeOp (Except Error ClusterRecord)
  | agentBinary : UpgradeOp (Except Error String)
  | pullImageIfAbsent (image : String) : UpgradeOp (Except Error Unit)
  | runningVersion (inst : InstanceId) : UpgradeOp (Except Error String)
  | upgradeProbe (m : ClusterManifest) (inst : InstanceId) : UpgradeOp (Except Error ProbeReport)
  | upgradeStage (m : ClusterManifest) (inst : InstanceId) : UpgradeOp (Except Error StageReport)
  | poolersForCluster (cluster : ClusterId) : UpgradeOp (Except Error (List PoolerRecord))
  | backups (cluster : ClusterId) : UpgradeOp (Except Error (List String))
  | recordEvent (cluster : ClusterId) (ordinal : Option UInt32) (level message : String) :
      UpgradeOp (Except Error Unit)
  | setClusterPhase (cluster : ClusterId) (phase : ClusterPhase) : UpgradeOp (Except Error Unit)
  | putCluster (m : ClusterManifest) (phase : ClusterPhase) : UpgradeOp (Except Error Int64)
  | acquireHold (cluster : ClusterId) : UpgradeOp (Except Error (List PoolerId))
  | releaseHold (cluster : ClusterId) (held : List PoolerId) : UpgradeOp Unit
  | releaseAfterRecreate (cluster : ClusterId) (held : List PoolerId) :
      UpgradeOp (Except Error Unit)
  | upgradeHeld (target : ClusterManifest) (inst : InstanceId) (specEnv : String)
      (options : UpgradeOptions) : UpgradeOp (Except Error UpgradeRunReport)
  | startInstance (m : ClusterManifest) (inst : InstanceId) (agent : String) :
      UpgradeOp (Except Error Unit)
  | waitReady (inst : InstanceId) (wait : Duration) : UpgradeOp (Except Error Unit)
  | stanzaUpgrade (cluster : ClusterId) : UpgradeOp (Except Error Unit)
  | analyzeInStages (inst : InstanceId) : UpgradeOp (Except Error Unit)
  | backup (cluster : ClusterId) (wait : Duration) : UpgradeOp (Except Error (Option String))
  | now : UpgradeOp Nat
  | elapsed (since : Nat) : UpgradeOp Nat

abbrev UpgradeTask := Task UpgradeOp Error

def invalid {Op : Type → Type} {α : Type} (why : String) : Task Op Error α :=
  Task.throw (.invalid why)

/-- What is settled before the window opens. -/
structure UpgradePlan where
  cluster : ClusterId
  manifest : ClusterManifest
  target : ClusterManifest
  agent : String
  fromVersion : String
  probe : ProbeReport
  stage : StageReport
  specEnv : String
  warnings : List String

namespace UpgradePlan

def inst (p : UpgradePlan) : InstanceId := p.cluster.inst 1

end UpgradePlan

def Upgrade.withImage (m : ClusterManifest) (image : String) : ClusterManifest :=
  { m with spec := { m.spec with imageName := image } }

namespace Upgrade

/-! ## Warnings -/

def noPoolerWarning (cluster : ClusterId) : String :=
  "no pooler fronts " ++ cluster.name ++ ", so every open connection will be dropped rather " ++
    "than held. `pgpod apply -f pooler.yaml` first if that matters."

def poolerWarning (p : PoolerRecord) : String :=
  "pooler " ++ p.name ++ " holds clients for at most " ++ p.maxHold.render ++
    " — a client whose query waits longer than that gets an error rather than a pause, and " ++
    "the budget is fixed at the pooler's container-create time (ADR 05 §3)"

def poolerWarnings (cluster : ClusterId) (poolers : List PoolerRecord) : List String :=
  (if poolers.isEmpty then [noPoolerWarning cluster] else []) ++ poolers.map poolerWarning

def noBackupWarning (cluster : ClusterId) : String :=
  cluster.name ++ " archives but has no backup yet, so there is nothing to restore if this " ++
    "goes wrong. `pgpod backup " ++ cluster.name ++ "` first."

def linkWarning (cluster : ClusterId) : String :=
  cluster.name ++ " has no backup destination, and --method link leaves the old cluster " ++
    "unstartable. There is no way back from this upgrade."

def backupWarnings (cluster : ClusterId) (m : ClusterManifest) (options : UpgradeOptions) :
    UpgradeTask (List String) := do
  if m.spec.backup.isEnabled then do
    let found ← Task.attempt (δ := Error) (Task.ask (.backups cluster))
    pure (if (found.toOption.getD []).isEmpty then [noBackupWarning cluster] else [])
  else pure (if options.method = .link then [linkWarning cluster] else [])

/-! ## Everything that can refuse -/

def notRunning (cluster : ClusterId) (e : Error) : Error :=
  .invalid (cluster.name ++ " has to be running to be upgraded — its data directory's version " ++
    "is read from inside the instance before anything is changed (" ++ e.toString ++
    "). Bring it up with `pgpod apply -f <manifest>` first.")

/-- Refuse a target that is not a later major version. -/
def checkVersions (target : ClusterManifest) (fromVersion : String) (probe : ProbeReport) :
    UpgradeTask Unit :=
  let fromKey := (versionKey fromVersion).getD 0
  let toKey := (versionKey probe.version).getD 0
  if toKey = fromKey then
    invalid (target.spec.imageName ++ " is also PostgreSQL " ++ fromVersion ++
      ". `pgpod upgrade` is for major versions; for a minor-version image bump use " ++
      "`pgpod apply --recreate`, which needs no pg_upgrade and no second copy of the data.")
  else if toKey < fromKey then
    invalid (target.spec.imageName ++ " carries PostgreSQL " ++ probe.version ++
      ", which is older than this cluster's " ++ fromVersion ++ ". pg_upgrade only goes " ++
      "forwards, and a data directory cannot be read by an older major version at all.")
  else pure ()

/-- Stage the old installation, and put together what the job will be told. -/
def staging (encode : UpgradeSpec → Except SpecError String) (options : UpgradeOptions)
    (cluster : ClusterId) (manifest target : ClusterManifest) (agent fromVersion : String)
    (probe : ProbeReport) (warnings : List String) : UpgradeTask UpgradePlan := do
  Task.ask (.recordEvent cluster (some 1) "info"
    ("upgrade " ++ fromVersion ++ " -> " ++ probe.version ++ " requested (" ++
      options.method.asStr ++ " mode); staging the old installation"))
  let stage ← Task.ask (.upgradeStage manifest (cluster.inst 1))
  if stage.version ≠ fromVersion then
    invalid ("the running image carries PostgreSQL " ++ stage.version ++
      ", but the cluster's data directory is " ++ fromVersion)
  else do
    let spec : UpgradeSpec :=
      { fromVersion
        toVersion := probe.version
        stagedBindir := stage.bindir
        stagedLibDirs := stage.libDirs
        method := options.method
        jobs := options.jobs
        preloadLibraries := manifest.spec.postgresql.sharedPreloadLibraries
        check := options.check
        initdb := manifest.spec.bootstrap.initdb }
    let specEnv ← Task.ofExcept
      ((encode spec).mapError fun e => Error.invalid ("upgrade spec: " ++ e.toString))
    pure { cluster, manifest, target, agent, fromVersion, probe, stage, specEnv, warnings }

/-- The checks and the staging: nothing here touches the phase or stops anything. -/
def prepare (encode : UpgradeSpec → Except SpecError String) (cluster : ClusterId)
    (options : UpgradeOptions) : UpgradeTask UpgradePlan := do
  let record ← Task.ask (.requireCluster cluster)
  let manifest := record.manifest
  if manifest.spec.instances ≠ 1 then
    invalid (cluster.name ++ " has " ++ toString manifest.spec.instances.toNat ++
      " instances, and pgpod can only upgrade a single-instance cluster today — a standby " ++
      "cannot follow its primary across a major version")
  else if Text.trim options.toImage = Text.trim manifest.spec.imageName then
    invalid (cluster.name ++ " already runs " ++ manifest.spec.imageName ++
      ". A major upgrade needs a different image; a minor one is `pgpod apply --recreate`.")
  else do
    let agent ← Task.ask .agentBinary
    let target := withImage manifest (Text.trim options.toImage)
    Task.ask (.pullImageIfAbsent target.spec.imageName)
    let fromVersion ← Task.mapError (notRunning cluster)
      (Task.ask (.runningVersion (cluster.inst 1)))
    let probe ← Task.ask (.upgradeProbe target (cluster.inst 1))
    checkVersions target fromVersion probe
    let poolers ← Task.ask (.poolersForCluster cluster)
    let backupWarnings ← backupWarnings cluster manifest options
    staging encode options cluster manifest target agent fromVersion probe
      (poolerWarnings cluster poolers ++ backupWarnings)

/-! ## The window -/

def bothFailed (p : UpgradePlan) (e restart : Error) : Error :=
  .invalid ("the upgrade failed (" ++ e.toString ++ "), and so did bringing the old instance " ++
    "back up (" ++ restart.toString ++ "). The cluster's data is untouched at " ++
    Container.PGDATA ++ " inside volume " ++ p.inst.volumeName ++
    " — no swap had happened when this failed.")

/-- The job failed: bring the old instance back up. -/
def rollBack (p : UpgradePlan) (options : UpgradeOptions) (held : List PoolerId) (e : Error) :
    UpgradeTask UpgradeReport := do
  Task.ask (.recordEvent p.cluster (some 1) "error"
    ("upgrade failed, restarting the old instance: " ++ e.toString))
  match ← Task.attempt (Task.ask (.startInstance p.manifest p.inst p.agent)) with
  | .error restart => do
    -- a registry that cannot record this is only logged
    let _ ← Task.attempt (ε := Error) (Task.ask (.setClusterPhase p.cluster .failed))
    Task.perform (.releaseHold p.cluster held)
    Task.throw (bothFailed p e restart)
  | .ok () => do
    let _ ← Task.attempt (ε := Error) (Task.ask (.waitReady p.inst options.wait))
    Task.ask (.setClusterPhase p.cluster .running)
    Task.ask (.releaseAfterRecreate p.cluster held)
    Task.throw e

def report (p : UpgradePlan) (options : UpgradeOptions) (checkedOnly : Bool) (held heldMs : Nat)
    (run : UpgradeRunReport) (oldDataDir : String) (analyzed : Bool)
    (backupLabel : Option String) (warnings : List String) : UpgradeReport where
  cluster := p.cluster.name
  fromImage := p.manifest.spec.imageName
  toImage := p.target.spec.imageName
  fromVersion := p.fromVersion
  toVersion := p.probe.version
  method := options.method.asStr
  checkedOnly := checkedOnly
  poolersHeld := held
  heldMs := heldMs
  upgradeSeconds := run.seconds
  stagedBytes := p.stage.bytes
  oldDataDir := oldDataDir
  analyzed := analyzed
  backupLabel := backupLabel
  warnings := warnings

/-- A rehearsal ends where it started. -/
def endCheck (p : UpgradePlan) (options : UpgradeOptions) (held : List PoolerId) (heldFrom : Nat)
    (run : UpgradeRunReport) : UpgradeTask UpgradeReport := do
  Task.ask (.startInstance p.manifest p.inst p.agent)
  Task.ask (.waitReady p.inst options.wait)
  Task.ask (.setClusterPhase p.cluster .running)
  Task.ask (.releaseAfterRecreate p.cluster held)
  let heldMs ← Task.perform (.elapsed heldFrom)
  Task.ask (.recordEvent p.cluster (some 1) "info"
    ("upgrade check passed in " ++ toString heldMs ++ "ms; nothing was changed"))
  pure (report p options true held.length heldMs run "" false none p.warnings)

def stanzaWarnings (p : UpgradePlan) : UpgradeTask (List String) :=
  if p.manifest.spec.backup.isEnabled then do
    match ← Task.attempt (Task.ask (.stanzaUpgrade p.cluster)) with
    | .ok () => pure []
    | .error e => pure ["pgbackrest stanza-upgrade failed, so WAL from the upgraded cluster " ++
        "will not be archived until it is run: " ++ e.toString]
  else pure []

/-- Planner statistics, when asked for: whether they were rebuilt, and the warning if not. -/
def analyze (p : UpgradePlan) (options : UpgradeOptions) : UpgradeTask (Bool × List String) :=
  if options.analyze then do
    match ← Task.attempt (Task.ask (.analyzeInStages p.inst)) with
    | .ok () => pure (true, [])
    | .error e => pure (false, ["the cluster is up, but `vacuumdb --analyze-in-stages` failed: " ++
        e.toString ++ ". Until it runs, every query plans against no statistics."])
  else pure (false, ["planner statistics were not rebuilt — run `vacuumdb --all " ++
    "--analyze-in-stages` before this cluster takes real traffic"])

/-- The backup afterwards, when asked for: its label, and the warning if there is none. -/
def backupAfter (p : UpgradePlan) (options : UpgradeOptions) :
    UpgradeTask (Option String × List String) :=
  if !options.backup then pure (none, [])
  else if p.manifest.spec.backup.isEnabled then do
    match ← Task.attempt (Task.ask (.backup p.cluster (.fromSecs 3600))) with
    | .ok label => pure (label, [])
    | .error e => pure (none, ["the post-upgrade backup failed: " ++ e.toString ++
        ". The repository's older backups belong to the pre-upgrade cluster, so there is no " ++
        "recovery point for the new one until a backup succeeds."])
  else pure (none, [p.cluster.name ++
    " has no backup destination, so no post-upgrade backup was taken"])

/-- The data on disk is the new version: record it, and bring the new instance up. -/
def bringUp (p : UpgradePlan) (options : UpgradeOptions) (held : List PoolerId) (heldFrom : Nat)
    (run : UpgradeRunReport) : UpgradeTask UpgradeReport := do
  let _ ← Task.ask (.putCluster p.target .upgrading)
  Task.ask (.startInstance p.target p.inst p.agent)
  Task.ask (.waitReady p.inst options.wait)
  let stanza ← stanzaWarnings p
  Task.ask (.releaseAfterRecreate p.cluster held)
  let heldMs ← Task.perform (.elapsed heldFrom)
  Task.ask (.recordEvent p.cluster (some 1) "info"
    ("upgraded " ++ p.fromVersion ++ " -> " ++ p.probe.version ++ " in " ++ toString heldMs ++
      "ms held (" ++ toString run.seconds ++ "s in pg_upgrade); the old data directory is kept at " ++
      run.oldDataDir))
  let (analyzed, analyzeWarnings) ← analyze p options
  let (label, backupWarnings) ← backupAfter p options
  Task.ask (.setClusterPhase p.cluster .running)
  pure (report p options false held.length heldMs run run.oldDataDir analyzed label
    (p.warnings ++ stanza ++ analyzeWarnings ++ backupWarnings))

/-- From the phase write on. -/
def window (p : UpgradePlan) (options : UpgradeOptions) : UpgradeTask UpgradeReport := do
  Task.ask (.setClusterPhase p.cluster .upgrading)
  let held ← Task.ask (.acquireHold p.cluster)
  let heldFrom ← Task.perform .now
  match ← Task.attempt (Task.ask (.upgradeHeld p.target p.inst p.specEnv options)) with
  | .error e => rollBack p options held e
  | .ok run =>
    if options.check then endCheck p options held heldFrom run
    else bringUp p options held heldFrom run

end Upgrade

/-- Upgrade a cluster to a new PostgreSQL major version. -/
def upgrade (encode : UpgradeSpec → Except SpecError String) (cluster : ClusterId)
    (options : UpgradeOptions) : UpgradeTask UpgradeReport := do
  let plan ← Upgrade.prepare encode cluster options
  Upgrade.window plan options

end Control

end Pgpod
