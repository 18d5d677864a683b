import Pgpod.Core.Manifest
import Pgpod.Core.Pooler

/-!
# The pooler manifest

`kind: Pooler` names the clusters a pooler fronts and the pools it exports for
each.  As for a cluster, an `AcceptedPoolerManifest` is one that passed the
check `from_yaml` makes after parsing.
-/

namespace Pgpod

def KIND_POOLER : String := "Pooler"

/-- `ro` needs standbys to route to. -/
inductive PoolerType
  | rw
  | ro
deriving DecidableEq, Repr

structure PoolRef where
  database : String
  asName : Option String := none
deriving DecidableEq

/-- What clients put in `dbname`. -/
def PoolRef.poolName (p : PoolRef) : String := p.asName.getD p.database

structure PoolerClusterRef where
  cluster : String
  /-- None means the cluster's application database. -/
  pools : List PoolRef := []
deriving DecidableEq

structure PgDoormanSpec where
  poolMode : PoolMode := .transaction
  poolSize : UInt32 := 40
  maxHold : HumanDuration := ⟨60000⟩
  parameters : StringMap := .empty
deriving DecidableEq

structure PoolerSpecManifest where
  poolerType : PoolerType := .rw
  imageName : String := Container.DEFAULT_POOLER_IMAGE
  /-- `none` allocates a host port and keeps it. -/
  port : Option UInt16 := none
  clusters : List PoolerClusterRef
  pgDoorman : PgDoormanSpec := {}
  poolerUid : UInt32 := Container.DEFAULT_POOLER_UID
  poolerGid : UInt32 := Container.DEFAULT_POOLER_GID
deriving DecidableEq

structure PoolerManifest where
  apiVersion : String
  kind : String
  metadata : Metadata
  spec : PoolerSpecManifest
deriving DecidableEq

namespace PoolerManifest

def poolerId (m : PoolerManifest) : Except ManifestError PoolerId :=
  (PoolerId.new m.metadata.name).mapError .name

def validateDatabases (cluster : String) : List PoolRef → Except ManifestError Unit
  | [] => .ok ()
  | p :: rest =>
    if (Text.trim p.database).isEmpty then .error (.pooler
      ("a pool on cluster " ++ Text.debug cluster ++ " has an empty database"))
    else validateDatabases cluster rest

/-- Each cluster once, under a valid name, each pool with a database. -/
def validateClusters : List String → List PoolerClusterRef → Except ManifestError Unit
  | _, [] => .ok ()
  | seen, c :: rest => do
    let _ ← (ClusterId.new c.cluster).mapError .name
    if c.cluster ∈ seen then throw (.pooler
      ("spec.clusters names " ++ Text.debug c.cluster ++ " twice — merge its pools into one entry"))
    validateDatabases c.cluster c.pools
    validateClusters (c.cluster :: seen) rest

/-- The pool names that were written out, each with its cluster. -/
def namedPools (m : PoolerManifest) : List (String × String) :=
  m.spec.clusters.flatMap fun c => c.pools.map fun p => (p.poolName, c.cluster)

/-- Pool names are what clients put in `dbname`. -/
def validatePoolNames : List (String × String) → List (String × String) → Except ManifestError Unit
  | _, [] => .ok ()
  | seen, (name, cluster) :: rest =>
    match seen.find? fun nc => nc.1 = name with
    | some (_, other) => .error (.pooler
        ("two pools are both named " ++ Text.debug name ++ " — one on cluster " ++
          Text.debug other ++ " and one on " ++ Text.debug cluster ++ ". Clients address a pool " ++
          "by that name, so it has to be unique; set `as:` on one of them"))
    | none => validatePoolNames ((name, cluster) :: seen) rest

def validate (m : PoolerManifest) : Except ManifestError Unit := do
  if m.apiVersion ≠ API_VERSION then throw (.apiVersion m.apiVersion)
  if m.kind ≠ KIND_POOLER then throw (.kind m.kind)
  let _ ← m.poolerId
  if m.spec.poolerType = .ro then throw (.pooler
    ("type: ro needs standbys to route to — read pools land with replicas in Phase 3; " ++
      "use type: rw"))
  if m.spec.clusters.isEmpty then throw (.pooler
    ("spec.clusters must name at least one cluster — a pooler with nothing behind it would " ++
      "accept connections and have nowhere to send them"))
  if m.spec.pgDoorman.poolSize = 0 then
    throw (.pooler "spec.pgDoorman.poolSize must be at least 1")
  validateClusters [] m.spec.clusters
  validatePoolNames [] m.namedPools

end PoolerManifest

/-- A pooler manifest that passed the checks `from_yaml` makes after parsing. -/
structure AcceptedPoolerManifest where
  manifest : PoolerManifest
  accepted : manifest.validate = .ok ()

/-! ## Parameters pgpod manages itself -/

namespace Pooler

def RESERVED_PARAMETERS : List String :=
  ["host", "port", "admin_username", "admin_password", "query_wait_timeout", "daemon_pid_file",
   "pools"]

end Pooler

end Pgpod
