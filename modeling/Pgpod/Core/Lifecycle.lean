import Mathlib.Init

/-!
# Lifecycle phases of instances and clusters

The phases the registry persists.  A phase is stored as text and read back by a
parser that, for clusters, maps whatever it does not recognise to `unknown`.
-/

namespace Pgpod

inductive InstancePhase
  | creating
  | bootstrapping
  | running
  | stopping
  | stopped
  | fenced
  | needsRebuild
  | failed
  | terminated
deriving DecidableEq, Repr

namespace InstancePhase

def asStr : InstancePhase → String
  | creating => "creating"
  | bootstrapping => "bootstrapping"
  | running => "running"
  | stopping => "stopping"
  | stopped => "stopped"
  | fenced => "fenced"
  | needsRebuild => "needs-rebuild"
  | failed => "failed"
  | terminated => "terminated"

/-- The phases whose container boot recovery must not start. -/
def blocksRestart : InstancePhase → Bool
  | fenced | needsRebuild | stopped | terminated => true
  | _ => false

def fromStr (s : String) : Option InstancePhase :=
  if s = "creating" then some creating
  else if s = "bootstrapping" then some bootstrapping
  else if s = "running" then some running
  else if s = "stopping" then some stopping
  else if s = "stopped" then some stopped
  else if s = "fenced" then some fenced
  else if s = "needs-rebuild" then some needsRebuild
  else if s = "failed" then some failed
  else if s = "terminated" then some terminated
  else none

@[simp] theorem fromStr_asStr (p : InstancePhase) : fromStr p.asStr = some p := by
  cases p <;> decide

end InstancePhase

/-- What the database last said of itself. -/
inductive InstanceRole
  | primary
  | standby
  | unknown
deriving DecidableEq, Repr

namespace InstanceRole

def asStr : InstanceRole → String
  | primary => "primary"
  | standby => "standby"
  | unknown => "unknown"

def fromStr (s : String) : Option InstanceRole :=
  if s = "primary" then some primary
  else if s = "standby" then some standby
  else if s = "unknown" then some unknown
  else none

@[simp] theorem fromStr_asStr (r : InstanceRole) : fromStr r.asStr = some r := by
  cases r <;> decide

end InstanceRole

/-- Where a cluster is in its lifecycle, as the registry records it. -/
inductive ClusterPhase
  | applying
  | running
  | upgrading
  | stopped
  | failed
  | unknown
deriving DecidableEq, Repr

namespace ClusterPhase

def asStr : ClusterPhase → String
  | applying => "applying"
  | running => "running"
  | upgrading => "upgrading"
  | stopped => "stopped"
  | failed => "failed"
  | unknown => "unknown"

/-- Why a cluster is not resumable, phrased for an operator. -/
def skipReason : ClusterPhase → Option String
  | running => none
  | applying => some "an apply was interrupted — re-run `pgpod apply -f <manifest>` to finish it"
  | upgrading => some ("an upgrade was interrupted — check `pgpod status` and the " ++
      "instance volume before starting anything")
  | stopped => some "deliberately stopped — `pgpod apply -f <manifest>` brings it back"
  | failed => some "the last apply failed — fix the manifest and apply it again"
  | unknown => some "its recorded phase is not one this version of pgpod understands"

/-- Read a stored phase; whatever is not recognised is `unknown`. -/
def parseLenient (s : String) : ClusterPhase :=
  if s = "applying" then applying
  else if s = "running" then running
  else if s = "upgrading" then upgrading
  else if s = "stopped" then stopped
  else if s = "failed" then failed
  else unknown

@[simp] theorem parseLenient_asStr (p : ClusterPhase) : parseLenient p.asStr = p := by
  cases p <;> decide

end ClusterPhase

end Pgpod
