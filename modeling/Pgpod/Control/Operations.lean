import Pgpod.Agent.Roles
import Pgpod.Control.Records
import Pgpod.Effect.Prog

/-!
# What the control plane does to the registry, to podman and to the host

Every method of the control plane is a program over these operations.  A
registry statement and a podman call may fail; a podman call that reports a
failure may have taken effect.
-/

namespace Pgpod

open Effect

/-- What `podman logs` gives back of a job: its text, and the reports in it. -/
structure Logs where
  text : String
  reports : List Report
deriving DecidableEq

/-- The commands pgpod runs inside a running container. -/
inductive ExecCommand
  | pgIsReady
  | isInRecovery
  | psql (stmt : Statement)
  | catPgVersion
  | vacuumdbAnalyze
  | poolerControl (verb : String) (args : List String)
deriving DecidableEq

structure ExecOutput where
  success : Bool
  stdout : String
  stderr : String
deriving DecidableEq

inductive RegistryOp : Type → Type
  | cluster (c : ClusterId) : RegistryOp (Except Error (Option ClusterRecord))
  | listClusters : RegistryOp (Except Error (List ClusterRecord))
  | putCluster (m : ClusterManifest) (phase : ClusterPhase) : RegistryOp (Except Error Int64)
  | setClusterPhase (c : ClusterId) (phase : ClusterPhase) : RegistryOp (Except Error Unit)
  | deleteCluster (c : ClusterId) : RegistryOp (Except Error Unit)
  | instances (c : ClusterId) : RegistryOp (Except Error (List InstanceRecord))
  | putInstance (r : InstanceRecord) : RegistryOp (Except Error Unit)
  | listPoolers : RegistryOp (Except Error (List PoolerRecord))
  | poolersForCluster (c : ClusterId) : RegistryOp (Except Error (List PoolerRecord))
  | pooler (p : PoolerId) : RegistryOp (Except Error (Option PoolerRecord))
  | putPooler (m : PoolerManifest) (containerName : String) (containerId : Option String)
      (hostPort : UInt16) (phase : String) (pools : List PoolerPool) :
      RegistryOp (Except Error Int64)
  | deletePooler (p : PoolerId) : RegistryOp (Except Error Unit)
  | recordEvent (cluster : String) (ordinal : Option UInt32) (level message : String) :
      RegistryOp (Except Error Unit)

inductive PodmanOp : Type → Type
  | pullImageIfAbsent (image : String) : PodmanOp (Except Error Unit)
  | imageId (image : String) : PodmanOp (Except Error (Option String))
  | ensureNetwork (name : String) : PodmanOp (Except Error (Option String))
  | removeNetwork (name : String) : PodmanOp (Except Error Unit)
  | createVolume (name : String) : PodmanOp (Except Error String)
  | volumeExists (name : String) : PodmanOp (Except Error Bool)
  | removeVolume (name : String) : PodmanOp (Except Error Unit)
  | secretExists (name : String) : PodmanOp (Except Error Bool)
  | secretValue (name : String) : PodmanOp (Except Error (Option String))
  | putSecret (name value : String) : PodmanOp (Except Error Unit)
  | removeSecret (name : String) : PodmanOp (Except Error Unit)
  | probe (ref : String) : PodmanOp (Except Error (Option ContainerProbe))
  | createContainer (spec : ContainerSpec) : PodmanOp (Except Error String)
  | start (ref : String) : PodmanOp (Except Error Unit)
  | stop (ref : String) (timeout : Duration) : PodmanOp (Except Error Unit)
  | remove (ref : String) : PodmanOp (Except Error Unit)
  /-- `none` when the time was up first. -/
  | waitForExit (ref : String) (timeout : Duration) : PodmanOp (Except Error (Option Int))
  | logs (ref : String) : PodmanOp (Except Error Logs)
  | exec (ref : String) (cmd : ExecCommand) : PodmanOp (Except Error ExecOutput)

inductive HostOp : Type → Type
  | agentExists : HostOp Bool
  | allocatePort : HostOp (Except Error UInt16)
  | portAvailable (port : UInt16) : HostOp (Except String Unit)
  | generatePassword : HostOp String
  /-- A compact timestamp, for naming job containers. -/
  | stamp : HostOp String
  | now : HostOp Nat
  | elapsed (since : Nat) : HostOp Nat
  /-- Whether there is time left before a deadline. -/
  | beforeDeadline : HostOp Bool

/-- The operations of the control plane. -/
inductive CtlOp (β : Type) : Type
  | registry (op : RegistryOp β)
  | podman (op : PodmanOp β)
  | host (op : HostOp β)

namespace Control

abbrev CtlTask := Task CtlOp Error

def registry {α : Type} (op : RegistryOp (Except Error α)) : CtlTask α := Task.ask (.registry op)

def podman {α : Type} (op : PodmanOp (Except Error α)) : CtlTask α := Task.ask (.podman op)

/-- A step whose failure is ignored. -/
def ignore {Op : Type → Type} {ε α : Type} (t : Task Op ε α) : Task Op ε Unit := do
  let _ ← Task.attempt (δ := ε) t
  pure ()

end Control

end Pgpod
