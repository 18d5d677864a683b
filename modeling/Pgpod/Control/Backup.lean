import Pgpod.Backup.Info
import Pgpod.Control.Instances

/-!
# pgBackRest jobs: taking a backup and reading the repository
-/

namespace Pgpod

open Effect

/-- What the control plane is installed with: the host, and the formats of third parties. -/
structure Installation extends Host where
  upgradeSpecToJson : UpgradeSpec → Except SpecError String
  parseInfo : String → Except String (List StanzaInfo)
  rfc3339 : DateTime → String

namespace Control

/-- The agent, checked before anything is created. -/
def agentBinary (host : Host) : CtlTask String := do
  let there ← Task.perform (.host .agentExists)
  if there then pure host.agentBinary else Task.throw (.agentMissing host.agentBinary)

def credentialSecrets (m : ClusterManifest) (c : ContainerSpec) : ContainerSpec :=
  (credentialMounts 0 m.spec.backup.destinations).foldl
    (fun c nt => c.addSecret (secretMount m.spec.postgresUid m.spec.postgresGid nt)) c

def userOf (m : ClusterManifest) : String :=
  toString m.spec.postgresUid.toNat ++ ":" ++ toString m.spec.postgresGid.toNat

def pgbackrestContainerSpec (host : Host) (m : ClusterManifest) (cluster : ClusterId)
    (name : String) (args : List String) (row : InstanceRecord) : Except Error ContainerSpec := do
  let bundle ← pgbackrestBundle host
  let argv := [Container.PGBACKREST_BIN, "--config=" ++ Container.PGBACKREST_CONF,
    "--stanza=" ++ cluster.name] ++ args
  let c := ((((((ContainerSpec.hardened m.spec.imageName).withName name
    ).withUser (userOf m)
    ).withEntrypoint argv
    ).addNetwork cluster.networkName
    ).withLogDriver "k8s-file"
    ).addMount (.volume row.volumeName Container.VOLUME_MOUNT false)
    |>.addMount (.bindReadOnly bundle Container.PGBACKREST_BUNDLE)
  let c := match m.spec.backup.volume with
    | some volume => c.addMount (.volume volume Container.ARCHIVE_MOUNT false)
    | none => c
  pure (((credentialSecrets m c).addLabel (Names.LABEL_CLUSTER, cluster.name)).addLabel
    ("pgpod.job", "pgbackrest"))

/-- Wait for a job container to end. -/
def waitForJob (inst : InstanceId) (ref : String) (wait : Duration) (what : String) :
    CtlTask Int := do
  match ← podman (.waitForExit ref wait) with
  | some code => pure code
  | none => Task.throw (.notReady inst.toText wait.asSecs what)

/-- Run one pgBackRest command in a throwaway container: its output, or its own failure. -/
def runPgbackrest (host : Host) (m : ClusterManifest) (cluster : ClusterId) (name : String)
    (args : List String) (wait : Duration) : CtlTask (Except Error String) := do
  match ← instanceRow cluster 1 with
  | none => invalidOf (cluster.name ++ " has no instance")
  | some row => do
    let spec ← Task.ofExcept (pgbackrestContainerSpec host m cluster name args row)
    let id ← podman (.createContainer spec)
    podman (.start id)
    let command := " ".intercalate args
    let code ← waitForJob (cluster.inst 1) id wait ("pgbackrest " ++ command ++ " is still running")
    let logs ← logsOrWhyNot id
    ignore (podman (.remove id))
    if code ≠ 0 then pure (.error (.pgBackRest command logs.text)) else pure (.ok logs.text)

/-- The repository's document among the lines of the job's output. -/
def infoDocument (logs : String) : Except Error String :=
  match ((Text.lines logs).map Text.trim).find? fun l => Text.startsWith l "[" with
  | some json => .ok json
  | none => .error (.invalid ("pgbackrest info produced no JSON:\n" ++ logs))

/-- Ask the repository what it holds. -/
def stanzaInfo (I : Installation) (cluster : ClusterId) : CtlTask (Option StanzaInfo) := do
  let record ← requireCluster cluster
  if !record.manifest.spec.backup.isEnabled then pure none
  else do
    let stamp ← Task.perform (.host .stamp)
    let out ← runPgbackrest I.toHost record.manifest cluster
      ("pgpod-" ++ cluster.name ++ "-info-" ++ stamp) ["info", "--output=json"] (.fromSecs 120)
    let logs ← Task.ofExcept out
    let json ← Task.ofExcept (infoDocument logs)
    let stanzas ← Task.ofExcept ((I.parseInfo json).mapError Error.backup)
    pure (stanzas.find? fun s => s.name = cluster.name)

/-- The backups the repository holds, oldest first. -/
def backups (I : Installation) (cluster : ClusterId) : CtlTask (List Backup) := do
  let info ← stanzaInfo I cluster
  pure ((info.map StanzaInfo.backupsOldestFirst).getD [])

/-- Take a backup; answers the label of the new one, once the repository shows it. -/
def backup (I : Installation) (cluster : ClusterId) (wait : Duration) :
    CtlTask (Option String) := do
  let record ← requireCluster cluster
  if !record.manifest.spec.backup.isEnabled then
    invalidOf (cluster.name ++ " has no spec.backup.destinations, so there is nowhere to put a backup")
  else do
    let before ← stanzaInfo I cluster
    recordEvent cluster (some 1) "info" "backup started"
    let stamp ← Task.perform (.host .stamp)
    let out ← runPgbackrest I.toHost record.manifest cluster
      ("pgpod-" ++ cluster.name ++ "-backup-" ++ stamp) ["backup"] wait
    match out with
    | .error e => do
      recordEvent cluster (some 1) "error" "backup failed"
      Task.throw e
    | .ok _ => do
      let after ← stanzaInfo I cluster
      let old := (before.map StanzaInfo.backup).getD []
      let new := ((after.map StanzaInfo.backupsOldestFirst).getD []).reverse.find?
        fun b => !old.any fun o => o.label = b.label
      recordEvent cluster (some 1) "info" "backup complete"
      pure (new.map Backup.label)

/-- Teach the repository about the new major version. -/
def stanzaUpgrade (I : Installation) (cluster : ClusterId) : CtlTask Unit := do
  let record ← requireCluster cluster
  let out ← runPgbackrest I.toHost record.manifest cluster
    ("pgpod-" ++ cluster.name ++ "-stanza-upgrade") ["stanza-upgrade"] (.fromSecs 600)
  let _ ← Task.ofExcept out
  pure ()

end Control

end Pgpod
