import Pgpod.Core.Text

/-!
# Container specs and probes

What a container is created with, and what podman reports about one that
exists.  The builder functions append in the order they are called, as the
source's do, so two specs are equal exactly when they were built alike.
-/

namespace Pgpod

inductive Mount
  | volume (name target : String) (chown : Bool)
  | bindReadOnly (source target : String)
  | tmpfs (target : String)
deriving DecidableEq

structure PortPublish where
  hostIp : Option String
  hostPort : UInt16
  containerPort : UInt16
deriving DecidableEq

namespace PortPublish

def loopback (hostPort containerPort : UInt16) : PortPublish :=
  ⟨some "127.0.0.1", hostPort, containerPort⟩

end PortPublish

/-- A podman secret mounted into the container at `target`. -/
structure SecretMount where
  name : String
  target : String
  mode : UInt32
  uid : UInt32
  gid : UInt32
deriving DecidableEq

inductive RestartPolicy
  | no
  | onFailure
  | always
deriving DecidableEq, Repr

def SECRETS_DIR : String := "/run/secrets"

/-- What to create a container with. -/
structure ContainerSpec where
  name : Option String := none
  image : String
  command : List String := []
  entrypoint : List String := []
  env : List (String × String) := []
  mounts : List Mount := []
  labels : List (String × String) := []
  user : Option String := none
  workingDir : Option String := none
  autoRemove : Bool := false
  networks : List String := []
  portPublishes : List PortPublish := []
  secrets : List SecretMount := []
  capDrop : List String := []
  noNewPrivileges : Bool := false
  logDriver : Option String := none
  readOnlyFs : Bool := false
  restartPolicy : RestartPolicy := .no
  hostname : Option String := none
deriving DecidableEq

namespace ContainerSpec

/-- A spec with the container hardening applied. -/
def hardened (image : String) : ContainerSpec :=
  { image
    capDrop := ["ALL"]
    noNewPrivileges := true
    readOnlyFs := true
    mounts := [.tmpfs "/tmp", .tmpfs SECRETS_DIR] }

def withName (c : ContainerSpec) (n : String) : ContainerSpec := { c with name := some n }
def withHostname (c : ContainerSpec) (n : String) : ContainerSpec := { c with hostname := some n }
def withUser (c : ContainerSpec) (u : String) : ContainerSpec := { c with user := some u }
def withEntrypoint (c : ContainerSpec) (argv : List String) : ContainerSpec :=
  { c with entrypoint := argv }
def withLogDriver (c : ContainerSpec) (d : String) : ContainerSpec := { c with logDriver := some d }
def addEnv (c : ContainerSpec) (k v : String) : ContainerSpec := { c with env := c.env ++ [(k, v)] }
def addMount (c : ContainerSpec) (m : Mount) : ContainerSpec := { c with mounts := c.mounts ++ [m] }
def addNetwork (c : ContainerSpec) (n : String) : ContainerSpec :=
  { c with networks := c.networks ++ [n] }
def publish (c : ContainerSpec) (p : PortPublish) : ContainerSpec :=
  { c with portPublishes := c.portPublishes ++ [p] }
def addSecret (c : ContainerSpec) (s : SecretMount) : ContainerSpec :=
  { c with secrets := c.secrets ++ [s] }
def addLabel (c : ContainerSpec) (kv : String × String) : ContainerSpec :=
  { c with labels := c.labels ++ [kv] }

/-- The environment as podman reports it: `KEY=value`. -/
def envLines (c : ContainerSpec) : List String := c.env.map fun (k, v) => k ++ "=" ++ v

/-- The volume mounted at `target`, if one is. -/
def volumeAt (c : ContainerSpec) (target : String) : Option String :=
  c.mounts.findSome? fun
    | .volume name t _ => if t = target then some name else none
    | _ => none

end ContainerSpec

/-- What podman knows about a container. -/
structure ContainerProbe where
  id : String
  name : Option String
  running : Bool
  status : Option String
  exitCode : Option Int
  env : List String
  imageId : Option String
  imageName : Option String
deriving DecidableEq

namespace ContainerProbe

/-- The value of one environment variable, if the container has it. -/
def envVar (p : ContainerProbe) (key : String) : Option String :=
  p.env.findSome? fun e => Text.stripPrefix e (key ++ "=")

end ContainerProbe

namespace Text

theorem stripPrefix_append (front rest : String) :
    stripPrefix (front ++ rest) front = some rest := by
  have hprefix : startsWith (front ++ rest) front = true := by
    simp [startsWith, String.toList_append]
  rw [stripPrefix, if_pos hprefix]
  simp [String.toList_append]

end Text

/-- A probe of a container whose environment is one variable reads that variable back. -/
theorem ContainerProbe.envVar_of_env {p : ContainerProbe} {key value : String}
    (h : p.env = [key ++ "=" ++ value]) : p.envVar key = some value := by
  simp [envVar, h, Text.stripPrefix_append]

end Pgpod
