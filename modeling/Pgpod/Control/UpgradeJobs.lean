import Pgpod.Control.Backup
import Pgpod.Control.Upgrade

/-!
# What the calls of `upgrade` do

The jobs in throwaway containers, the stop of the instance and its start, one
level below the body of the operation.
-/

namespace Pgpod

open Effect

namespace Control

/-! ## Jobs -/

/-- The container of one upgrade step. -/
def upgradeJobSpec (m : ClusterManifest) (inst : InstanceId) (agent job : String)
    (argv : List String) (specEnv : Option String) : ContainerSpec :=
  let c := (((((((ContainerSpec.hardened m.spec.imageName).withName (inst.jobContainerName job)
    ).withUser (userOf m)
    ).withEntrypoint (Container.AGENT_BIN :: argv)
    ).addMount (.volume inst.volumeName Container.VOLUME_MOUNT false)
    ).addMount (.bindReadOnly agent Container.AGENT_BIN)
    ).withLogDriver "k8s-file"
    ).addLabel (Names.LABEL_CLUSTER, inst.cluster.name)
    |>.addLabel ("pgpod.job", job)
  match specEnv with
  | some env => c.addEnv UPGRADE_SPEC_ENV env
  | none => c

/-- Remove what a previous attempt left under the job's name, as far as that works. -/
def removeStale (name : String) : CtlTask Unit := do
  match ← podman (.probe name) with
  | some _ => do
    ignore (podman (.stop name (.fromSecs 10)))
    ignore (podman (.remove name))
  | none => pure ()

/-- The last report in a job's output, if it is of the expected kind. -/
def parseReport {α : Type} (read : Report → Option α) (logs : Logs) : Except String α :=
  match logs.reports.getLast? with
  | none => .error ("the job produced no " ++ REPORT_MARKER ++ " line")
  | some r => match read r with
    | some a => .ok a
    | none => .error "unreadable job report: missing field"

/-- Run one upgrade step in a throwaway container and parse its report. -/
def upgradeJob {α : Type} (host : Host) (read : Report → Option α) (m : ClusterManifest)
    (inst : InstanceId) (job : String) (argv : List String) (specEnv : Option String)
    (wait : Duration) : CtlTask α := do
  let agent ← agentBinary host
  removeStale (inst.jobContainerName job)
  let id ← podman (.createContainer (upgradeJobSpec m inst agent job argv specEnv))
  podman (.start id)
  let code ← waitForJob inst id wait ("the " ++ job ++ " job is still running")
  let logs ← logsOrWhyNot id
  ignore (podman (.remove id))
  if code ≠ 0 then Task.throw (.upgrade job logs.text)
  else Task.ofExcept ((parseReport read logs).mapError fun e =>
    .upgrade job (e ++ "\n\n" ++ logs.text))

def asProbe : Report → Option ProbeReport
  | .probe r => some r
  | _ => none

def asStage : Report → Option StageReport
  | .stage r => some r
  | _ => none

def asRun : Report → Option UpgradeRunReport
  | .upgradeRun r => some r
  | _ => none

def upgradeProbe (host : Host) (m : ClusterManifest) (inst : InstanceId) : CtlTask ProbeReport :=
  upgradeJob host asProbe m inst "upgrade-probe" ["upgrade", "probe"] none (.fromSecs 120)

def upgradeStage (host : Host) (m : ClusterManifest) (inst : InstanceId) : CtlTask StageReport :=
  upgradeJob host asStage m inst "upgrade-stage" ["upgrade", "stage"] none (.fromSecs 900)

/-- `pg_upgrade` in link mode takes seconds, in copy mode as long as the data is large. -/
def runWait : UpgradeMethod → Duration
  | .link => .fromSecs 3600
  | .copy => .fromSecs (24 * 3600)

def upgradeRun (host : Host) (target : ClusterManifest) (inst : InstanceId) (specEnv : String)
    (method : UpgradeMethod) : CtlTask UpgradeRunReport :=
  upgradeJob host asRun target inst "upgrade-run" ["upgrade", "run"] (some specEnv) (runWait method)

/-! ## The instance -/

/-- The major version of the cluster on disk, read from the instance that runs it. -/
def runningVersion (inst : InstanceId) : CtlTask String := do
  let container ← runningContainer inst
  let out ← podman (.exec container .catPgVersion)
  if !out.success then
    invalidOf ("could not read " ++ Container.PGDATA ++ "/PG_VERSION from " ++ inst.toText ++ ": " ++
      Text.trim out.stderr)
  else match majorLabel out.stdout with
    | some version => pure version
    | none => invalidOf (inst.toText ++ " reports a data directory version this pgpod does not " ++
        "understand: " ++ Text.debug (Text.trim out.stdout))

/-- What happens while clients are held: stop the instance, and run the job. -/
def upgradeHeld (host : Host) (target : ClusterManifest) (inst : InstanceId) (specEnv : String)
    (options : UpgradeOptions) : CtlTask UpgradeRunReport := do
  recordEvent inst.cluster (some inst.ordinal) "info" "stopping the instance for pg_upgrade"
  match ← podman (.probe inst.containerName) with
  | some _ => do
    podman (.stop inst.containerName (.fromSecs 120))
    podman (.remove inst.containerName)
  | none => pure ()
  recordEvent inst.cluster (some inst.ordinal) "info"
    (if options.check then "running pg_upgrade --check" else "running pg_upgrade")
  upgradeRun host target inst specEnv options.method

/-- The context of a container that an upgrade puts up. -/
def upgradeContext (m : ClusterManifest) (inst : InstanceId) (agent : String)
    (networkCidr : Option String) : ApplyContext where
  bootstrap := .initdb m.spec.bootstrap.initdb
  networkCidr := networkCidr
  secrets := .forCluster inst.cluster
  agent := agent
  recreate := false
  desiredImageId := none

/-- Create and start the instance container for the manifest. -/
def startInstance (host : Host) (m : ClusterManifest) (inst : InstanceId) (agent : String) :
    CtlTask Unit := do
  match ← instanceRow inst.cluster inst.ordinal with
  | none => invalidOf (inst.cluster.name ++ " has no instance row")
  | some row => do
    let networkCidr ← podman (.ensureNetwork inst.cluster.networkName)
    match ← podman (.probe inst.containerName) with
    | some _ => do
      ignore (podman (.stop inst.containerName (.fromSecs 60)))
      podman (.remove inst.containerName)
    | none => pure ()
    let spec ← Task.ofExcept
      (containerSpec host m inst (upgradeContext m inst agent networkCidr) row.hostPort)
    let id ← podman (.createContainer spec)
    podman (.start id)
    registry (.putInstance { row with containerId := some id, phase := .bootstrapping })

/-- Rebuild planner statistics. -/
def analyzeInStages (inst : InstanceId) : CtlTask Unit := do
  let container ← runningContainer inst
  let out ← podman (.exec container .vacuumdbAnalyze)
  if out.success then pure () else invalidOf ("vacuumdb failed: " ++ printed out)

/-! ## The calls of `upgrade` -/

/-- What each call of `upgrade` does. -/
def callee (I : Installation) : ∀ ⦃β : Type⦄, UpgradeOp β → Prog CtlOp β
  | _, .requireCluster c => (requireCluster c).run
  | _, .agentBinary => (agentBinary I.toHost).run
  | _, .pullImageIfAbsent image => (podman (.pullImageIfAbsent image)).run
  | _, .runningVersion inst => (runningVersion inst).run
  | _, .upgradeProbe m inst => (upgradeProbe I.toHost m inst).run
  | _, .upgradeStage m inst => (upgradeStage I.toHost m inst).run
  | _, .poolersForCluster c => (registry (.poolersForCluster c)).run
  | _, .backups c => (do let found ← backups I c; pure (found.map Backup.label) : CtlTask _).run
  | _, .recordEvent c ordinal level message => (recordEvent c ordinal level message).run
  | _, .setClusterPhase c phase => (registry (.setClusterPhase c phase)).run
  | _, .putCluster m phase => (registry (.putCluster m phase)).run
  | _, .acquireHold c => (PoolerHold.acquire c).run
  | _, .releaseHold c held => (PoolerHold.release c held).run.bind fun _ => .ret ()
  | _, .releaseAfterRecreate c held => (PoolerHold.releaseAfterRecreate c held).run
  | _, .upgradeHeld target inst specEnv options =>
    (upgradeHeld I.toHost target inst specEnv options).run
  | _, .startInstance m inst agent => (startInstance I.toHost m inst agent).run
  | _, .waitReady inst wait => (waitReady inst wait).run
  | _, .stanzaUpgrade c => (stanzaUpgrade I c).run
  | _, .analyzeInStages inst => (analyzeInStages inst).run
  | _, .backup c wait => (backup I c wait).run
  | _, .now => .perform (.host .now)
  | _, .elapsed since => .perform (.host (.elapsed since))

/-- `upgrade` on a host. -/
def upgradeOn (I : Installation) (cluster : ClusterId) (options : UpgradeOptions) :
    Prog CtlOp (Except Error UpgradeReport) :=
  (upgrade I.upgradeSpecToJson cluster options).run.interp (callee I)

end Control

end Pgpod
