import Pgpod.Agent.Main
import Pgpod.Control.Operations

/-!
# The registry, podman and the containers that run

The state of one host.  A container that runs the agent carries what is left of
the agent's program, so that between any two operations of the control plane a
container may take a step on its volume, exit, or be killed.
-/

namespace Pgpod

open Effect

/-! ## The registry -/

structure Registry where
  clusters : List ClusterRecord := []
  instances : List InstanceRecord := []
  poolers : List PoolerRecord := []
  events : List Event := []
deriving DecidableEq

namespace Registry

def cluster (R : Registry) (name : String) : Option ClusterRecord :=
  R.clusters.find? fun r => r.name = name

/-- The recorded phase of a cluster, as boot recovery reads it. -/
def phaseOf (R : Registry) (name : String) : Option ClusterPhase :=
  (R.cluster name).map fun r => ClusterPhase.parseLenient r.phase

def instancesOf (R : Registry) (name : String) : List InstanceRecord :=
  R.instances.filter fun r => r.cluster = name

def instanceAt (R : Registry) (name : String) (ordinal : UInt32) : Option InstanceRecord :=
  (R.instancesOf name).find? fun r => r.ordinal = ordinal

def updateCluster (R : Registry) (name : String) (f : ClusterRecord → ClusterRecord) : Registry :=
  { R with clusters := R.clusters.map fun r => if r.name = name then f r else r }

/-- Insert or update; the generation moves only when the manifest did. -/
def putCluster (R : Registry) (m : ClusterManifest) (phase : ClusterPhase) : Int64 × Registry :=
  match R.cluster m.metadata.name with
  | none => (1, { R with clusters := R.clusters ++ [⟨m.metadata.name, m, 1, phase.asStr⟩] })
  | some old =>
    let generation := if old.manifest = m then old.generation else old.generation + 1
    (generation, R.updateCluster m.metadata.name fun r =>
      { r with manifest := m, generation, phase := phase.asStr })

def putInstance (R : Registry) (rec : InstanceRecord) : Registry :=
  { R with instances :=
      (R.instances.filter fun r => !(r.cluster = rec.cluster && r.ordinal = rec.ordinal)) ++ [rec] }

/-- Rows of instances go with their cluster. -/
def deleteCluster (R : Registry) (name : String) : Registry :=
  { R with
    clusters := R.clusters.filter fun r => r.name ≠ name
    instances := R.instances.filter fun r => r.cluster ≠ name }

def poolersFor (R : Registry) (name : String) : List PoolerRecord :=
  R.poolers.filter fun p => p.clusters.contains name

def pooler (R : Registry) (name : String) : Option PoolerRecord :=
  R.poolers.find? fun p => p.name = name

/-- Insert or update a pooler; its pool rows are replaced wholesale. -/
def putPooler (R : Registry) (m : PoolerManifest) (containerName : String)
    (containerId : Option String) (hostPort : UInt16) (phase : String) (pools : List PoolerPool) :
    Int64 × Registry :=
  let row (generation : Int64) : PoolerRecord :=
    { name := m.metadata.name, manifest := m, generation, containerName, containerId, hostPort
      phase, pools := pools.mergeSort fun a b => decide (a.poolName ≤ b.poolName) }
  match R.pooler m.metadata.name with
  | none => (1, { R with poolers := R.poolers ++ [row 1] })
  | some old =>
    let generation := if old.manifest = m then old.generation else old.generation + 1
    let poolers := R.poolers.map fun p => if p.name = m.metadata.name then row generation else p
    (generation, { R with poolers })

/-- A pool row refers to a cluster's row, and its name is unique in the pooler. -/
def poolRowsOk (R : Registry) (pools : List PoolerPool) : Bool :=
  decide (pools.map PoolerPool.poolName).Nodup && pools.all fun p => (R.cluster p.cluster).isSome

def deletePooler (R : Registry) (name : String) : Registry :=
  { R with poolers := R.poolers.filter fun p => p.name ≠ name }

end Registry

/-! ## Containers -/

/-- What a running container runs: the rest of the agent's program, unless it is not the agent,
and the port its postmaster listens on. -/
structure Process where
  agent : Option (Prog AgentOp (Except String Int))
  postmaster : Option UInt16

inductive Status
  | created
  | running (proc : Process)
  | exited (code : Int)

namespace Status

def isRunning : Status → Bool
  | running _ => true
  | _ => false

def text : Status → String
  | created => "created"
  | running _ => "running"
  | exited _ => "exited"

def exitCode : Status → Option Int
  | exited code => some code
  | _ => none

end Status

structure Image where
  id : String
  pg : PgImage

structure Container where
  id : String
  spec : ContainerSpec
  image : Image
  /-- The secrets as they were when it was created, by mount path. -/
  mounts : String → Option String
  status : Status
  reports : List Report

namespace Container

def name (c : Container) : Option String := c.spec.name

def answersTo (c : Container) (ref : String) : Bool := c.id = ref || c.name = some ref

def probe (c : Container) : ContainerProbe where
  id := c.id
  name := c.name
  running := c.status.isRunning
  status := some c.status.text
  exitCode := c.status.exitCode
  env := c.spec.envLines
  imageId := some c.image.id
  imageName := some c.spec.image

/-- The subcommand of the agent that the entrypoint names. -/
def job (c : Container) : Option Agent.Job :=
  if c.spec.entrypoint = [Container.AGENT_BIN, "instance", "run"] then some .instanceRun
  else if c.spec.entrypoint = [Container.AGENT_BIN, "upgrade", "stage"] then some .upgradeStage
  else if c.spec.entrypoint = [Container.AGENT_BIN, "upgrade", "probe"] then some .upgradeProbe
  else if c.spec.entrypoint = [Container.AGENT_BIN, "upgrade", "run"] then some .upgradeRun
  else none

def volume (c : Container) : Option String := c.spec.volumeAt Container.VOLUME_MOUNT

def env (c : Container) (key : String) : Option String :=
  (c.spec.env.find? fun kv => kv.1 = key).map Prod.snd

/-- The process a start makes. -/
def boot (A : Agent.Code) (c : Container) : Process where
  agent := c.job.map fun j => (Agent.main A j).run
  postmaster := none

end Container

/-! ## The host -/

structure World where
  registry : Registry := {}
  containers : List Container := []
  /-- What image names resolve to on this host. -/
  images : String → Option Image := fun _ => none
  volumes : String → Option Volume := fun _ => none
  secrets : String → Option String := fun _ => none
  networks : String → Option (Option String) := fun _ => none
  /-- The backups in the repositories, by stanza. -/
  repository : String → Option Tree := fun _ => none
  agentExists : Bool := true
  nextId : Nat := 0

namespace World

def find (w : World) (ref : String) : Option Container :=
  w.containers.find? fun c => c.answersTo ref

/-- Change the container that answers to a reference. -/
def update (w : World) (ref : String) (f : Container → Container) : World :=
  { w with containers := w.containers.map fun c => if c.answersTo ref then f c else c }

def setStatus (w : World) (ref : String) (st : Status) : World :=
  w.update ref fun c => { c with status := st }

def drop (w : World) (ref : String) : World :=
  { w with containers := w.containers.filter fun c => !c.answersTo ref }

def setVolume (w : World) (name : String) (v : Option Volume) : World :=
  { w with volumes := fun n => if n = name then v else w.volumes n }

def setSecret (w : World) (name : String) (value : Option String) : World :=
  { w with secrets := fun n => if n = name then value else w.secrets n }

def setImage (w : World) (name : String) (image : Image) : World :=
  { w with images := fun n => if n = name then some image else w.images n }

def setNetwork (w : World) (name : String) (subnet : Option (Option String)) : World :=
  { w with networks := fun n => if n = name then subnet else w.networks n }

/-- What the secret mounts of a container show: `none` if a secret is not there. -/
def mountsOf (w : World) (spec : ContainerSpec) : Option (String → Option String) :=
  if spec.secrets.all fun m => (w.secrets m.name).isSome then
    some fun target =>
      (spec.secrets.find? fun m => m.target = target).bind fun m => w.secrets m.name
  else none

/-- The state the agent of a container sees. -/
def agentState (w : World) (c : Container) (proc : Process) : AgentState where
  image := c.image.pg
  env := c.env
  mounts := c.mounts
  repository := w.repository
  volume := (c.volume.bind w.volumes).getD fun _ => none
  postmaster := proc.postmaster
  reports := c.reports

/-- Write back what a step of the agent changed. -/
def absorb (w : World) (c : Container) (q : Prog AgentOp (Except String Int)) (s : AgentState) :
    World :=
  let w := w.update c.id fun c' =>
    { c' with status := .running ⟨some q, s.postmaster⟩, reports := s.reports }
  match c.volume with
  | some name => w.setVolume name (some s.volume)
  | none => w

end World

/-! ## What the operations do -/

/-- What the environment decides about one operation of the control plane. -/
structure CtlChoice where
  fails : Bool := false
  /-- A podman call that reports a failure took effect. -/
  applied : Bool := false
  success : Bool := true
  text : String := ""
  number : Nat := 0
  code : Int := 0
  image : Option Image := none

namespace CtlChoice

def podmanError (c : CtlChoice) : Error := .podman c.text

def output (c : CtlChoice) : ExecOutput := ⟨c.success, c.text, c.text⟩

end CtlChoice

/-- A statement that the database rejects has no effect. -/
def RegistryOp.perform {β : Type} : RegistryOp β → CtlChoice → Registry → β × Registry
  | cluster k, c, R => (if c.fails then .error (.registry c.text) else .ok (R.cluster k.name), R)
  | listClusters, c, R => (if c.fails then .error (.registry c.text) else .ok R.clusters, R)
  | putCluster m phase, c, R =>
    if c.fails then (.error (.registry c.text), R)
    else (.ok (R.putCluster m phase).1, (R.putCluster m phase).2)
  | setClusterPhase k phase, c, R =>
    if c.fails then (.error (.registry c.text), R)
    else (.ok (), R.updateCluster k.name fun r => { r with phase := phase.asStr })
  | deleteCluster k, c, R =>
    if c.fails || !(R.poolersFor k.name).isEmpty then (.error (.registry c.text), R)
    else (.ok (), R.deleteCluster k.name)
  | instances k, c, R =>
    (if c.fails then .error (.registry c.text) else .ok (R.instancesOf k.name), R)
  | putInstance rec, c, R =>
    if c.fails || (R.cluster rec.cluster).isNone then (.error (.registry c.text), R)
    else (.ok (), R.putInstance rec)
  | listPoolers, c, R => (if c.fails then .error (.registry c.text) else .ok R.poolers, R)
  | poolersForCluster k, c, R =>
    (if c.fails then .error (.registry c.text) else .ok (R.poolersFor k.name), R)
  | pooler k, c, R => (if c.fails then .error (.registry c.text) else .ok (R.pooler k.name), R)
  | putPooler m containerName containerId hostPort phase pools, c, R =>
    if c.fails || !R.poolRowsOk pools then (.error (.registry c.text), R)
    else (.ok (R.putPooler m containerName containerId hostPort phase pools).1,
      (R.putPooler m containerName containerId hostPort phase pools).2)
  | deletePooler k, c, R =>
    if c.fails then (.error (.registry c.text), R) else (.ok (), R.deletePooler k.name)
  | recordEvent k ordinal level message, c, R =>
    if c.fails then (.error (.registry c.text), R)
    else (.ok (), { R with events := R.events ++ [⟨k, ordinal, level, message⟩] })

namespace World

/-- Some container uses the volume. -/
def mounted (w : World) (name : String) : Bool := w.containers.any fun c => c.volume = some name

/-- Create a container: its name must be free, its image and its secrets there. -/
def create (w : World) (spec : ContainerSpec) : Option (String × World) :=
  match w.images spec.image, w.mountsOf spec with
  | some image, some mounts =>
    if spec.name.any fun n => (w.find n).isSome then none
    else
      let id := "id-" ++ toString w.nextId
      some (id, { w with
        nextId := w.nextId + 1
        containers := w.containers ++
          [{ id, spec, image, mounts, status := .created, reports := [] }] })
  | _, _ => none

/-- Start a container that is not running. -/
def boot (A : Agent.Code) (w : World) (ref : String) : World :=
  w.update ref fun c => if c.status.isRunning then c else { c with status := .running (c.boot A) }

/-- A running container exits; one that is not running stays as it is. -/
def halt (w : World) (ref : String) (code : Int) : World :=
  w.update ref fun c => if c.status.isRunning then { c with status := .exited code } else c

/-- Run a statement on the database a container serves. -/
def runStatement (w : World) (c : Container) (stmt : Statement) : World :=
  match c.volume with
  | some name =>
    w.setVolume name ((w.volumes name).map fun v d =>
      if d = .pgdata then (v d).map fun t => { t with db := t.db.map (stmt.apply ·) } else v d)
  | none => w

/-- What a command in a running container prints, and does. -/
def execIn (w : World) (c : Container) (proc : Process) (ch : CtlChoice) :
    ExecCommand → ExecOutput × World
  | .pgIsReady =>
    ({ ch.output with success := ch.success && proc.postmaster = some Container.PG_PORT }, w)
  | .isInRecovery =>
    ({ ch.output with success := ch.success && proc.postmaster = some Container.PG_PORT }, w)
  | .psql stmt =>
    if proc.postmaster = some Container.PG_PORT then
      -- the connection may be lost after the statement committed
      (ch.output, if ch.success || ch.applied then w.runStatement c stmt else w)
    else ({ ch.output with success := false }, w)
  | .catPgVersion =>
    match ((c.volume.bind w.volumes).bind fun v => v .pgdata).bind fun t => t.files Tree.PG_VERSION with
    | some lines => ({ ch.output with stdout := Text.unlines lines }, w)
    | none => ({ ch.output with success := false }, w)
  | .vacuumdbAnalyze => (ch.output, w)
  | .poolerControl _ _ => (ch.output, w)

end World

/-- A fallible podman call: what it does if it is carried out, and whether it says so. -/
def podmanCall {α : Type} (ch : CtlChoice) (w : World) (r : Except Error α) (w' : World) :
    Except Error α × World :=
  if ch.fails then (.error ch.podmanError, if ch.applied then w' else w)
  else match r with
    | .ok a => (.ok a, w')
    | .error e => (.error e, w)

def noSuchContainer (ref : String) : Error := .podman ("no such container: " ++ ref)

def PodmanOp.perform {β : Type} (A : Agent.Code) : PodmanOp β → CtlChoice → World → β × World
  | pullImageIfAbsent image, ch, w =>
    if (w.images image).isSome then (.ok (), w)
    else match ch.image with
      | some found =>
        podmanCall ch w (.ok ()) (w.setImage image found)
      | none => (.error ch.podmanError, w)
  | imageId image, ch, w => podmanCall ch w (.ok ((w.images image).map Image.id)) w
  | ensureNetwork name, ch, w =>
    match w.networks name with
    | some subnet => podmanCall ch w (.ok subnet) w
    | none => podmanCall ch w (.ok (some ch.text)) (w.setNetwork name (some (some ch.text)))
  | removeNetwork name, ch, w =>
    podmanCall ch w (.ok ()) (w.setNetwork name none)
  | createVolume name, ch, w =>
    if (w.volumes name).isSome then podmanCall ch w (.ok name) w
    else podmanCall ch w (.ok name) (w.setVolume name (some fun _ => none))
  | volumeExists name, ch, w => podmanCall ch w (.ok (w.volumes name).isSome) w
  | removeVolume name, ch, w =>
    if w.mounted name then (.error ch.podmanError, w)
    else podmanCall ch w (.ok ()) (w.setVolume name none)
  | secretExists name, ch, w => podmanCall ch w (.ok (w.secrets name).isSome) w
  | secretValue name, ch, w => podmanCall ch w (.ok (w.secrets name)) w
  | putSecret name value, ch, w =>
    -- replaced by removing it first: a failed create leaves none
    if ch.fails && !ch.applied then (.error ch.podmanError, w.setSecret name none)
    else podmanCall ch w (.ok ()) (w.setSecret name (some value))
  | removeSecret name, ch, w => podmanCall ch w (.ok ()) (w.setSecret name none)
  | probe ref, ch, w => podmanCall ch w (.ok ((w.find ref).map Container.probe)) w
  | createContainer spec, ch, w =>
    match w.create spec with
    | some (id, w') => podmanCall ch w (.ok id) w'
    | none => (.error ch.podmanError, w)
  | start ref, ch, w =>
    if (w.find ref).isSome then podmanCall ch w (.ok ()) (w.boot A ref)
    else (.error (noSuchContainer ref), w)
  | stop ref _, ch, w =>
    if (w.find ref).isSome then podmanCall ch w (.ok ()) (w.halt ref ch.code)
    else (.error (noSuchContainer ref), w)
  | remove ref, ch, w =>
    if (w.find ref).isSome then podmanCall ch w (.ok ()) (w.drop ref)
    else (.error (noSuchContainer ref), w)
  | waitForExit ref _, ch, w =>
    match w.find ref with
    | some c => podmanCall ch w (.ok c.status.exitCode) w
    | none => (.error (noSuchContainer ref), w)
  | logs ref, ch, w =>
    match w.find ref with
    | some c => podmanCall ch w (.ok ⟨ch.text, c.reports⟩) w
    | none => (.error (noSuchContainer ref), w)
  | exec ref cmd, ch, w =>
    match w.find ref with
    | some c => match c.status with
      | .running proc =>
        let (out, w') := w.execIn c proc ch cmd
        podmanCall ch w (.ok out) w'
      | _ => (.error (.podman ("container is not running: " ++ ref)), w)
    | none => (.error (noSuchContainer ref), w)

def HostOp.perform {β : Type} : HostOp β → CtlChoice → World → β
  | agentExists, _, w => w.agentExists
  | allocatePort, ch, _ =>
    if ch.fails then .error (.portAllocation ch.text) else .ok (UInt16.ofNat ch.number)
  | portAvailable _, ch, _ => if ch.success then .ok () else .error ch.text
  | generatePassword, ch, _ => ch.text
  | stamp, ch, _ => ch.text
  | now, ch, _ => ch.number
  | elapsed _, ch, _ => ch.number
  | beforeDeadline, ch, _ => ch.success

def CtlOp.perform {β : Type} (A : Agent.Code) : CtlOp β → CtlChoice → World → β × World
  | .registry op, ch, w =>
    let (b, R) := op.perform ch w.registry
    (b, { w with registry := R })
  | .podman op, ch, w => op.perform A ch w
  | .host op, ch, w => (op.perform ch w, w)

/-! ## What containers do on their own -/

/-- A container takes one step of the agent's program, ends, or is killed. -/
inductive Drift
  | agentStep (id : String) (choice : AgentChoice)
  | finish (id : String)
  | die (id : String) (code : Int)

namespace World

/-- The exit code of a finished agent: its own, or 1 for an error. -/
def exitCodeOf : Except String Int → Int
  | .ok code => code
  | .error _ => 1

def drift (w : World) : Drift → World
  | .agentStep id choice =>
    match w.find id with
    | some c => match c.status with
      | .running proc => match proc.agent with
        | some (.call op next) =>
          let (b, s) := op.exec choice (w.agentState c proc)
          w.absorb c (next b) s
        | _ => w
      | _ => w
    | none => w
  | .finish id =>
    match w.find id with
    | some c => match c.status with
      | .running proc => match proc.agent with
        | some (.ret r) => w.setStatus id (.exited (exitCodeOf r))
        | _ => w
      | _ => w
    | none => w
  | .die id code => w.halt id code

end World

/-- One control-plane program on a host. -/
def hostExec (A : Agent.Code) : Executable CtlOp World CtlChoice Drift where
  exec op ch w := op.perform A ch w
  move d w := w.drift d

def hostMachine (A : Agent.Code) : Machine CtlOp World := (hostExec A).machine

end Pgpod
