import Pgpod.Control.World
import Pgpod.Control.Instances
import Pgpod.Control.UpgradeJobs

/-!
# `apply -f pooler.yaml`: create or converge a pooler

The manifest's clusters become pools, the pools a spec, and the spec a
container.  A container that exists is adopted when the spec in its environment
is the one the manifest asks for; nothing else of it is looked at.
-/

namespace Pgpod

open Effect

namespace Names

def LABEL_POOLER : String := "pgpod.pooler"

def poolerLabels (pooler : PoolerId) (clusters : List String) : List (String × String) :=
  [(LABEL_POOLER, pooler.name), (LABEL_CLUSTER, ",".intercalate clusters)]

/-- The secret with a pooler's admin console password. -/
def poolerAdminSecret (pooler : PoolerId) : String := "pgpod-pooler-" ++ pooler.name ++ "-admin"

/-- The secret with one cluster's lookup password. -/
def poolerLookupSecret (cluster : ClusterId) : String := "pgpod-" ++ cluster.name ++ "-pooler"

end Names

structure PoolSummary where
  name : String
  cluster : String
  database : String
  connectionUri : String
deriving DecidableEq

structure PoolerReport where
  pooler : String
  generation : Int64
  created : Bool
  container : String
  hostPort : UInt16
  pools : List PoolSummary
deriving DecidableEq

namespace Control

/-! ## Pools -/

/-- One cluster's contribution to a pooler. -/
structure ClusterPools where
  cluster : String
  defaultDatabase : Option String
  declared : List PoolRef
deriving DecidableEq

/-- One pool, after defaults are filled in and names are checked. -/
structure ResolvedPool where
  cluster : String
  /-- The cluster's position in the manifest, and the index of its mounted lookup secret. -/
  clusterIndex : Nat
  database : String
  name : String
deriving DecidableEq

/-- The cluster that claimed a pool name, and whether the name came from a default. -/
structure Claim where
  name : String
  cluster : String
  defaulted : Bool

/-- The message for two pools claiming one name. -/
def collision (name first second : String) (bothDefaulted : Bool) : String :=
  let head := "two pools would both be named " ++ Text.debug name ++ " — one on cluster " ++
    Text.debug first ++ " and one on " ++ Text.debug second ++ ". A client picks a pool by " ++
    "putting that name in `dbname`, so it has to be unique."
  if !bothDefaulted then head ++ " Set `as:` on one of them."
  else head ++ "\n\nNeither was written down: a cluster with no `pools:` exports its " ++
    "application database under the database's own name, and both of these are called " ++
    Text.debug name ++ ". Name them explicitly:\n\n  clusters:\n    - cluster: " ++ first ++
    "\n      pools: [\x7b database: " ++ name ++ ", as: " ++ first ++ "-" ++ name ++
    " \x7d]\n    - cluster: " ++ second ++ "\n      pools: [\x7b database: " ++ name ++ ", as: " ++
    second ++ "-" ++ name ++ " \x7d]"

def noDefaultPool (cluster : String) : String :=
  "cluster " ++ Text.debug cluster ++ " has no bootstrap.initdb.database, so there is no " ++
    "default pool to create — name the databases explicitly under spec.clusters[].pools"

/-- The databases of one cluster and the pool names they are exported under. -/
def exported (input : ClusterPools) : Except String (List (String × String)) :=
  if input.declared.isEmpty then
    match input.defaultDatabase with
    | some database => .ok [(database, database)]
    | none => .error (noDefaultPool input.cluster)
  else .ok (input.declared.map fun p => (p.database, p.poolName))

/-- Claim the names of one cluster's pools, in order. -/
def claimEach (input : ClusterPools) (index : Nat) :
    List Claim → List (String × String) → Except String (List Claim × List ResolvedPool)
  | claimed, [] => .ok (claimed, [])
  | claimed, (database, name) :: rest =>
    let defaulted := input.declared.isEmpty
    match claimed.find? fun c => c.name = name with
    | some other =>
      .error (collision name other.cluster input.cluster (defaulted && other.defaulted))
    | none => do
      let (claimed, pools) ← claimEach input index (⟨name, input.cluster, defaulted⟩ :: claimed) rest
      return (claimed, ⟨input.cluster, index, database, name⟩ :: pools)

def resolveFrom : Nat → List Claim → List ClusterPools → Except String (List ResolvedPool)
  | _, _, [] => .ok []
  | index, claimed, input :: rest => do
    let pools ← exported input
    let (claimed, resolved) ← claimEach input index claimed pools
    let others ← resolveFrom (index + 1) claimed rest
    return resolved ++ others

/-- Turn the manifest's clusters into pools, or say why it cannot. -/
def resolvePools (inputs : List ClusterPools) : Except String (List ResolvedPool) :=
  resolveFrom 0 [] inputs

/-! ## The spec -/

def badCluster (place : String) (e : ParseInstanceIdError) : Error :=
  .invalid (place ++ ": " ++ e.toString)

/-- The instance a pool points at is ordinal 1. -/
def poolTarget (r : ResolvedPool) : Except Error PoolTarget := do
  let cluster ← (ClusterId.new r.cluster).mapError (badCluster "spec.clusters")
  return {
    name := r.name
    cluster := r.cluster
    serverHost := (cluster.inst 1).containerName
    database := r.database
    lookupRole := POOLER_ROLE
    lookupSecretIndex := r.clusterIndex }

def poolRow (r : ResolvedPool) : PoolerPool := ⟨r.cluster, r.database, r.name⟩

def poolerSpec (m : PoolerManifest) (pooler : PoolerId) (targets : List PoolTarget) :
    PoolerSpec where
  pooler := pooler
  pools := targets
  port := Container.POOLER_PORT
  poolMode := m.spec.pgDoorman.poolMode
  poolSize := m.spec.pgDoorman.poolSize
  maxHold := m.spec.pgDoorman.maxHold
  parameters := m.spec.pgDoorman.parameters.entries

/-- Reject parameters pgpod manages, before anything is created. -/
def validatePoolerParameters : List (String × String) → Except Error Unit
  | [] => .ok ()
  | (key, _) :: rest =>
    let normalized := Text.toAsciiLowercase (Text.trim key)
    if Pooler.RESERVED_PARAMETERS.contains normalized then .error (.invalid
      ("spec.pgDoorman.parameters: " ++ Text.debug normalized ++ " is managed by pgpod and " ++
        "cannot be set here"))
    else validatePoolerParameters rest

/-! ## The container -/

/-- One network per fronted cluster. -/
def clusterNetworks : List String → Except Error (List String)
  | [] => .ok []
  | cluster :: rest => do
    let id ← (ClusterId.new cluster).mapError (badCluster "stored cluster name")
    let networks ← clusterNetworks rest
    return id.networkName :: networks

/-- One lookup credential per cluster, addressed by the index the spec carries. -/
def lookupMounts (uid gid : UInt32) : List Nat → List PoolTarget → Except Error (List SecretMount)
  | _, [] => .ok []
  | mounted, target :: rest =>
    if target.lookupSecretIndex ∈ mounted then lookupMounts uid gid mounted rest
    else do
      let id ← (ClusterId.new target.cluster).mapError (badCluster "stored cluster name")
      let mounts ← lookupMounts uid gid (target.lookupSecretIndex :: mounted) rest
      return secretMount uid gid
        (Names.poolerLookupSecret id, Container.poolerLookupSecret target.lookupSecretIndex) :: mounts

def poolerContainerSpec (codec : PoolerCodec) (m : PoolerManifest) (spec : PoolerSpec)
    (agent : String) (hostPort : UInt16) (adminSecret : String) : Except Error ContainerSpec := do
  let pooler := spec.pooler
  let uid := m.spec.poolerUid
  let gid := m.spec.poolerGid
  let env ← (spec.toEnvValue codec).mapError Error.spec
  let c := ((((((((ContainerSpec.hardened m.spec.imageName).withName pooler.containerName
    ).withHostname pooler.containerName
    ).withUser (toString uid.toNat ++ ":" ++ toString gid.toNat)
    ).withEntrypoint [Container.AGENT_BIN, "pooler", "run"]
    ).addEnv POOLER_SPEC_ENV env
    ).publish (.loopback hostPort Container.POOLER_PORT)
    ).addMount (.tmpfs Container.POOLER_DIR)
    ).addMount (.bindReadOnly agent Container.AGENT_BIN)
    |>.addSecret (secretMount uid gid (adminSecret, Container.SECRET_POOLER_ADMIN))
  let networks ← clusterNetworks spec.clusters
  let c := networks.foldl ContainerSpec.addNetwork c
  let lookups ← lookupMounts uid gid [] spec.pools
  let c := lookups.foldl ContainerSpec.addSecret c
  return (Names.poolerLabels pooler spec.clusters).foldl ContainerSpec.addLabel c

/-! ## Divergence -/

def PoolMode.asStr : PoolMode → String
  | .transaction => "transaction"
  | .session => "session"

def poolLines (s : PoolerSpec) : List String :=
  (s.pools.map fun p => p.name ++ " -> " ++ p.cluster ++ "/" ++ p.database).mergeSort
    fun a b => decide (a ≤ b)

/-- What changed between the running pooler spec and the desired one. -/
def poolerDifferences (running desired : PoolerSpec) : List String :=
  let fields :=
    [("poolMode", PoolMode.asStr running.poolMode, PoolMode.asStr desired.poolMode),
     ("poolSize", toString running.poolSize.toNat, toString desired.poolSize.toNat),
     ("maxHold", running.maxHold.render, desired.maxHold.render),
     ("parameters", Text.debugList (running.parameters.map Text.debugPair),
      Text.debugList (desired.parameters.map Text.debugPair))]
  let changed := (fields.filter fun (_, a, b) => a ≠ b).map
    fun (field, a, b) => "  " ++ field ++ ": " ++ a ++ " -> " ++ b
  let before := poolLines running
  let after := poolLines desired
  let gone := (before.filter fun p => !after.contains p).map fun p => "  pool removed: " ++ p
  let added := (after.filter fun p => !before.contains p).map fun p => "  pool added:   " ++ p
  let out := changed ++ gone ++ added
  if out.isEmpty then ["  the specs differ in a field this message does not break out"] else out

/-- Refuse to adopt a pooler running an older spec. -/
def refuseIfPoolerDiverged (codec : PoolerCodec) (pooler : PoolerId) (desired : PoolerSpec)
    (probe : ContainerProbe) : Except Error Unit :=
  match probe.envVar POOLER_SPEC_ENV with
  | none => .error (.poolerDiverged pooler.name
      ("the running container has no " ++ POOLER_SPEC_ENV))
  | some raw => do
    let running ← (codec.fromJson raw).mapError fun e => .spec (.malformed e)
    if running = desired then .ok ()
    else .error (.poolerDiverged pooler.name ("\n".intercalate (poolerDifferences running desired)))

/-! ## The lookup role -/

def lookupRoleFailed (cluster : ClusterId) (stderr : String) : Error :=
  .invalid ("could not create the pooler lookup role on " ++ cluster.name ++ ": " ++
    Text.trim stderr)

def runLookupSql (cluster : ClusterId) (container : String) : List Statement → CtlTask Unit
  | [] => pure ()
  | statement :: rest => do
    let out ← podman (.exec container (.psql statement))
    if !out.success then Task.throw (lookupRoleFailed cluster out.stderr)
    else runLookupSql cluster container rest

def mustRun (cluster : ClusterId) (e : Error) : Error :=
  .invalid ("cluster " ++ cluster.name ++ " must be running to apply a pooler to it — the " ++
    "lookup role is created inside the instance: " ++ e.toString)

/-- Create the lookup role and its function on one cluster: the SQL runs before the secret is
stored. -/
def ensurePoolerRole (cluster : ClusterId) : CtlTask Unit := do
  let secret := Names.poolerLookupSecret cluster
  let there ← podman (.secretExists secret)
  if there then pure ()
  else do
    let password ← Task.perform (.host .generatePassword)
    let container ← Task.mapError (mustRun cluster) (runningContainer (cluster.inst 1))
    let statements ← Task.ofExcept ((poolerLookupSql password).mapError Error.postgres)
    runLookupSql cluster container statements
    podman (.putSecret secret password)

/-! ## Readiness -/

def poolerNotReady {α : Type} (pooler : PoolerId) (timeout : Duration) (last : String) :
    CtlTask α := do
  let logs ← logsOrWhyNot pooler.containerName
  Task.throw (.notReady pooler.name timeout.asSecs
    ("last probe: " ++ last ++ "\n\ncontainer logs:\n" ++ logs.text))

def pollPooler (pooler : PoolerId) (timeout : Duration) : Nat → String → CtlTask Unit
  | 0, last => poolerNotReady pooler timeout last
  | rounds + 1, last => do
    let time ← Task.perform (.host .beforeDeadline)
    if !time then poolerNotReady pooler timeout last
    else
      match ← Task.attempt (poolerControl pooler "pools" []) with
      | .ok _ => pure ()
      | .error e => do
        let probe ← podman (.probe pooler.containerName)
        if probe.any fun p => !p.running then poolerNotReady pooler timeout e.toString
        else pollPooler pooler timeout rounds e.toString

/-- Wait until the pooler answers on its control socket. -/
def waitPoolerReady (pooler : PoolerId) (timeout : Duration) : CtlTask Unit :=
  pollPooler pooler timeout timeout.polls ""

/-- The operation does not reach the registry. -/
def OutsideRegistry : ∀ ⦃β : Type⦄, CtlOp β → Prop
  | _, .registry _ => False
  | _, _ => True

theorem poolerNotReady_outside {α : Type} (pooler : PoolerId) (timeout : Duration) (last : String) :
    (poolerNotReady pooler timeout last : CtlTask α).run.Calls OutsideRegistry := by
  refine Task.calls_bind (Task.calls_bind (Task.calls_attempt (Task.calls_ask trivial)) ?_)
    fun _ => Task.calls_throw _
  intro r
  cases r <;> exact Task.calls_pure _

theorem poolerControl_outside (pooler : PoolerId) (verb : String) (args : List String) :
    (poolerControl pooler verb args).run.Calls OutsideRegistry := by
  refine Task.calls_bind (Task.calls_ask trivial) fun out => ?_
  split
  · exact Task.calls_pure _
  · exact Task.calls_throw _

theorem pollPooler_outside (pooler : PoolerId) (timeout : Duration) (rounds : Nat) (last : String) :
    (pollPooler pooler timeout rounds last).run.Calls OutsideRegistry := by
  induction rounds generalizing last with
  | zero => exact poolerNotReady_outside _ _ _
  | succ rounds ih =>
    refine Task.calls_bind (Task.calls_perform trivial) fun time => ?_
    split
    · exact poolerNotReady_outside _ _ _
    refine Task.calls_bind (Task.calls_attempt (poolerControl_outside _ _ _)) fun r => ?_
    cases r with
    | ok _ => exact Task.calls_pure _
    | error e =>
      refine Task.calls_bind (Task.calls_ask trivial) fun probe => ?_
      split
      · exact poolerNotReady_outside _ _ _
      · exact ih _

/-! ## Apply -/

/-- What the registry says about every cluster of the manifest. -/
def poolerInputs (pooler : PoolerId) : List PoolerClusterRef → CtlTask (List ClusterPools)
  | [] => pure []
  | entry :: rest => do
    let cluster ← Task.ofExcept ((ClusterId.new entry.cluster).mapError (badCluster "spec.clusters"))
    match ← registry (.cluster cluster) with
    | none => invalidOf ("pooler " ++ pooler.name ++ " fronts cluster " ++ cluster.name ++
        ", which pgpod does not know about — apply the cluster first")
    | some record => do
      let inputs ← poolerInputs pooler rest
      pure (⟨entry.cluster, record.manifest.spec.bootstrap.initdb.database, entry.pools⟩ :: inputs)

def poolTargets : List ResolvedPool → Except Error (List PoolTarget)
  | [] => .ok []
  | r :: rest => do
    let target ← poolTarget r
    let targets ← poolTargets rest
    return target :: targets

/-- The pools the inputs resolve to, as the spec names them and as the registry keeps them. -/
def poolsFrom (inputs : List ClusterPools) : Except Error (List PoolTarget × List PoolerPool) := do
  let resolved ← (resolvePools inputs).mapError Error.invalid
  let targets ← poolTargets resolved
  return (targets, resolved.map poolRow)

def ensurePoolerRoles : List ClusterPools → CtlTask Unit
  | [] => pure ()
  | input :: rest => do
    let cluster ← Task.ofExcept ((ClusterId.new input.cluster).mapError (badCluster "spec.clusters"))
    ensurePoolerRole cluster
    ensurePoolerRoles rest

/-- An explicit port wins; otherwise the one a previous apply chose is used again. -/
def choosePoolerPort (existing : Option PoolerRecord) (port : Option UInt16) : CtlTask UInt16 :=
  match existing, port with
  | _, some port => pure port
  | some record, none => pure record.hostPort
  | none, none => Task.ask (.host .allocatePort)

/-- Only the agent inside the container reads the admin password. -/
def ensureAdminSecret (secret : String) : CtlTask Unit := do
  let there ← podman (.secretExists secret)
  if there then pure ()
  else do
    let generated ← Task.perform (.host .generatePassword)
    podman (.putSecret secret generated)

def checkPooler (codec : PoolerCodec) (pooler : PoolerId) (spec : PoolerSpec) :
    Option ContainerProbe → Except Error Unit
  | some p => refuseIfPoolerDiverged codec pooler spec p
  | none => .ok ()

/-- Adopt the container that was found, or create one. -/
def convergePooler (m : PoolerManifest) (spec : ContainerSpec) :
    Option ContainerProbe → CtlTask String
  | some p =>
    if p.running then pure p.id
    else do
      podman (.start p.id)
      pure p.id
  | none => do
    podman (.pullImageIfAbsent m.spec.imageName)
    let id ← podman (.createContainer spec)
    podman (.start id)
    pure id

def poolerEvents (pooler : PoolerId) : List String → CtlTask Unit
  | [] => pure ()
  | cluster :: rest => do
    registry (.recordEvent cluster none "info" ("pooler " ++ pooler.name ++ " applied"))
    poolerEvents pooler rest

def poolSummary (hostPort : UInt16) (p : PoolTarget) : PoolSummary where
  name := p.name
  cluster := p.cluster
  database := p.database
  connectionUri := "postgresql://127.0.0.1:" ++ toString hostPort.toNat ++ "/" ++ p.name

/-- The half that tells the registry: the container is checked first. -/
def applyPoolerSpec (codec : PoolerCodec) (m : PoolerManifest) (wait : Duration)
    (agent : String) (spec : PoolerSpec) (rows : List PoolerPool) (existed : Bool)
    (hostPort : UInt16) : CtlTask PoolerReport := do
  let pooler := spec.pooler
  let adminSecret := Names.poolerAdminSecret pooler
  ensureAdminSecret adminSecret
  let probe ← podman (.probe pooler.containerName)
  Task.ofExcept (checkPooler codec pooler spec probe)
  let generation ← registry (.putPooler m pooler.containerName none hostPort "applying" rows)
  let container ← Task.ofExcept (poolerContainerSpec codec m spec agent hostPort adminSecret)
  let id ← convergePooler m container probe
  let _ ← registry (.putPooler m pooler.containerName (some id) hostPort "running" rows)
  Task.when (!wait.isZero) (waitPoolerReady pooler wait)
  poolerEvents pooler spec.clusters
  pure
    { pooler := pooler.name
      generation
      created := !existed
      container := pooler.containerName
      hostPort
      pools := spec.pools.map (poolSummary hostPort) }

/-- Create or converge a pooler. -/
def applyPooler (host : Host) (codec : PoolerCodec) (m : PoolerManifest) (wait : Duration) :
    CtlTask PoolerReport := do
  let pooler ← Task.ofExcept (m.poolerId.mapError Error.manifest)
  let agent ← agentBinary host
  let inputs ← poolerInputs pooler m.spec.clusters
  let (targets, rows) ← Task.ofExcept (poolsFrom inputs)
  ensurePoolerRoles inputs
  let existing ← registry (.pooler pooler)
  let hostPort ← choosePoolerPort existing m.spec.port
  let spec := poolerSpec m pooler targets
  Task.ofExcept (validatePoolerParameters spec.parameters)
  Task.ofExcept (spec.validate.mapError Error.spec)
  applyPoolerSpec codec m wait agent spec rows existing.isSome hostPort

/-- Remove a pooler's container and its registry rows. -/
def deletePooler (pooler : PoolerId) : CtlTask Unit := do
  match ← registry (.pooler pooler) with
  | none => Task.throw (.registry ("pooler " ++ pooler.name ++ " is not known to pgpod"))
  | some record => do
    let probe ← podman (.probe record.containerName)
    Task.when probe.isSome do
      ignore (podman (.stop record.containerName (.fromSecs 30)))
      podman (.remove record.containerName)
    deletionEvents record.pools
    registry (.deletePooler pooler)
where
  deletionEvents : List PoolerPool → CtlTask Unit
    | [] => pure ()
    | pool :: rest => do
      registry (.recordEvent pool.cluster none "info" ("pooler " ++ pooler.name ++ " deleted"))
      deletionEvents rest

end Control

end Pgpod
