import Pgpod.Control.ContainerSpec
import Pgpod.Core.Lifecycle
import Pgpod.Core.PoolerManifest
import Pgpod.Core.Upgrade

/-!
# Registry rows and the options and reports of the operations
-/

namespace Pgpod

/-- A span of time, in milliseconds. -/
structure Duration where
  millis : Nat
deriving DecidableEq

namespace Duration

def fromSecs (n : Nat) : Duration := ⟨n * 1000⟩

def asSecs (d : Duration) : Nat := d.millis / 1000

def isZero (d : Duration) : Bool := d.millis = 0

/-- How often a loop that sleeps half a second between two rounds can come round before
the deadline. -/
def polls (d : Duration) : Nat := (d.millis + 499) / 500

end Duration

/-! ## Rows -/

structure ClusterRecord where
  name : String
  manifest : ClusterManifest
  generation : Int64
  phase : String
deriving DecidableEq

structure InstanceRecord where
  cluster : String
  ordinal : UInt32
  containerName : String
  containerId : Option String
  volumeName : String
  hostPort : UInt16
  phase : InstancePhase
  role : InstanceRole := .unknown
  timeline : Option Int := none
  lastProbeAtMs : Option Int := none
deriving DecidableEq

/-- One pool a pooler exports. -/
structure PoolerPool where
  cluster : String
  database : String
  poolName : String
deriving DecidableEq

structure PoolerRecord where
  name : String
  manifest : PoolerManifest
  generation : Int64
  containerName : String
  containerId : Option String
  hostPort : UInt16
  phase : String
  /-- Which clusters it fronts, and under what pool names. -/
  pools : List PoolerPool
deriving DecidableEq

namespace PoolerRecord

def maxHold (p : PoolerRecord) : HumanDuration := p.manifest.spec.pgDoorman.maxHold

/-- The clusters it fronts. -/
def clusters (p : PoolerRecord) : List String := p.pools.map PoolerPool.cluster

end PoolerRecord

structure Event where
  cluster : String
  ordinal : Option UInt32
  level : String
  message : String
deriving DecidableEq

/-! ## Options and reports -/

structure ApplyOptions where
  wait : Duration
  recreate : Bool
deriving DecidableEq

structure InstanceSummary where
  inst : String
  container : String
  volume : String
  hostPort : UInt16
  connectionUri : String
deriving DecidableEq

structure ApplyReport where
  cluster : String
  generation : Int64
  created : Bool
  instances : List InstanceSummary
deriving DecidableEq

structure UpgradeOptions where
  toImage : String
  method : UpgradeMethod
  jobs : UInt32
  check : Bool
  analyze : Bool
  backup : Bool
  wait : Duration
deriving DecidableEq

structure UpgradeReport where
  cluster : String
  fromImage : String
  toImage : String
  fromVersion : String
  toVersion : String
  method : String
  checkedOnly : Bool
  poolersHeld : Nat
  heldMs : Nat
  upgradeSeconds : Nat
  stagedBytes : Nat
  oldDataDir : String
  analyzed : Bool
  backupLabel : Option String
  warnings : List String
deriving DecidableEq

structure DeleteReport where
  cluster : String
  containersRemoved : List String
  volumesRemoved : List String
  volumesRetained : List String
  poolers : List String
deriving DecidableEq

end Pgpod
