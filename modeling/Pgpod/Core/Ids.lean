import Pgpod.Core.Text

/-!
# Identifiers of clusters, instances and poolers

Every podman-visible name is derived here.  A `ClusterId` carries the proof that
its name passed `ClusterId.new`, so a value of the type is a valid name.
-/

namespace Pgpod

inductive ParseInstanceIdError
  | badClusterName (name : String)
  | badPoolerName (name : String)
  | missingOrdinal (id : String)
  | zeroOrdinal (id : String)
deriving DecidableEq, Repr

namespace ParseInstanceIdError

def toString : ParseInstanceIdError → String
  | badClusterName name => "invalid cluster name " ++ Text.debug name ++
      ": expected 1-40 characters of [a-z0-9-], starting with a letter and not ending in '-'"
  | badPoolerName name => "invalid pooler name " ++ Text.debug name ++
      ": expected 1-40 characters of [a-z0-9-], starting with a letter and not ending in '-'"
  | missingOrdinal id => "invalid instance id " ++ Text.debug id ++
      ": expected <cluster>-<ordinal>, e.g. \"mydb-1\""
  | zeroOrdinal id => "invalid instance id " ++ Text.debug id ++ ": ordinals start at 1"

end ParseInstanceIdError

/-- The characters permitted in a cluster name. -/
def validNameChar (c : Char) : Bool := c.isLower || c.isDigit || c == '-'

/-- What `ClusterId.new` demands of a name: 1 to 40 characters of `[a-z0-9-]`, starting
with a letter and not ending in `-`. -/
def validClusterName (name : String) : Bool :=
  !(name.isEmpty || name.utf8ByteSize > 40) &&
    (name.toList.head?.any Char.isLower) &&
    !(name.toList.getLast? == some '-' || !name.toList.all validNameChar)

/-- Stable identifier for a cluster. -/
structure ClusterId where
  name : String
  valid : validClusterName name = true
deriving DecidableEq

/-- The names of the examples. -/
theorem mydb_valid : validClusterName "mydb" = true := by decide

theorem front_valid : validClusterName "front" = true := by decide

namespace ClusterId

def new (name : String) : Except ParseInstanceIdError ClusterId :=
  if h : validClusterName name = true then .ok ⟨name, h⟩
  else .error (.badClusterName name)

def asStr (c : ClusterId) : String := c.name

/-- One bridge network per cluster. -/
def networkName (c : ClusterId) : String := "pgpod-" ++ c.name

@[ext] theorem ext {c d : ClusterId} (h : c.name = d.name) : c = d := by
  cases c; cases d; cases h; rfl

theorem new_eq_ok {name : String} {c : ClusterId} : new name = .ok c ↔ c.name = name := by
  unfold new
  split
  · constructor
    · rintro ⟨⟩; rfl
    · rintro rfl; rfl
  · next h =>
    constructor
    · rintro ⟨⟩
    · rintro rfl; exact absurd c.valid h

end ClusterId

/-- Stable identifier for one instance of a cluster. -/
structure InstanceId where
  cluster : ClusterId
  ordinal : UInt32
deriving DecidableEq

namespace ClusterId

/-- The instance with the given ordinal in this cluster. -/
def inst (c : ClusterId) (ordinal : UInt32) : InstanceId := ⟨c, ordinal⟩

end ClusterId

namespace InstanceId

/-- The decimal rendering of an ordinal. -/
def ordinalText (i : InstanceId) : String := toString i.ordinal.toNat

def toText (i : InstanceId) : String := i.cluster.name ++ "-" ++ i.ordinalText

/-- Podman container name. -/
def containerName (i : InstanceId) : String := "pgpod-" ++ i.cluster.name ++ "-" ++ i.ordinalText

/-- Podman volume name holding this instance's `/pgdata`. -/
def volumeName (i : InstanceId) : String :=
  "pgpod-" ++ i.cluster.name ++ "-" ++ i.ordinalText ++ "-pgdata"

/-- Name of the short-lived job container for work on this instance. -/
def jobContainerName (i : InstanceId) (job : String) : String :=
  "pgpod-" ++ i.cluster.name ++ "-" ++ i.ordinalText ++ "-" ++ job

/-- A job's container is never the instance's own. -/
theorem jobContainerName_ne (i : InstanceId) (job : String) :
    i.jobContainerName job ≠ i.containerName := by
  intro h
  have hlen := congrArg (fun s : String => s.toList.length) h
  simp [jobContainerName, containerName, String.toList_append] at hlen

end InstanceId

/-- Stable identifier for a pooler, under the same naming rules as a cluster. -/
structure PoolerId where
  name : String
  valid : validClusterName name = true
deriving DecidableEq

namespace PoolerId

def new (name : String) : Except ParseInstanceIdError PoolerId :=
  if h : validClusterName name = true then .ok ⟨name, h⟩
  else .error (.badPoolerName name)

/-- Podman container name. -/
def containerName (p : PoolerId) : String := "pgpod-pooler-" ++ p.name

end PoolerId

end Pgpod
