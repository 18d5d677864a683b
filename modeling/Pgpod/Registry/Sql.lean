import Pgpod.Effect.Machine
import Pgpod.Registry.Rows

/-!
# The registry's statements

SQLite runs one statement at a time, whole or not at all.  A statement that breaks
a key or a reference fails and changes nothing; deleting a row takes the rows that
cascade from it along.  Any statement may also fail on its own: the disk is full,
the database is locked.  The registry's operations are tasks over these statements.
-/

namespace Pgpod

open Effect

namespace Sql

/-! ## Tables -/

/-- The rows of `clusters`, `instances`, `poolers` and `pooler_clusters`, the last with the pooler
each is of. -/
structure Database where
  clusters : List ClusterRow := []
  instances : List InstanceRow := []
  poolers : List PoolerRow := []
  pools : List (String × PoolerPool) := []
deriving DecidableEq

namespace Database

variable (D : Database)

def hasCluster (name : String) : Bool := D.clusters.any fun r => r.name = name

def hasPooler (name : String) : Bool := D.poolers.any fun r => r.name = name

/-- The manifest and the generation of a cluster. -/
def clusterState (name : String) : Option (String × Int64) :=
  (D.clusters.find? fun r => r.name = name).map fun r => (r.manifest, r.generation)

def poolerState (name : String) : Option (String × Int64) :=
  (D.poolers.find? fun r => r.name = name).map fun r => (r.manifest, r.generation)

/-- The pool rows of one pooler. -/
def poolRows (pooler : String) : List PoolerPool :=
  (D.pools.filter fun p => p.1 = pooler).map Prod.snd

end Database

/-! ## Statements -/

/-- The statements that write. -/
inductive Write
  | insertCluster (row : ClusterRow)
  /-- `manifest`, `generation` and `phase`, by name. -/
  | updateCluster (row : ClusterRow)
  | clusterPhase (name phase : String)
  | deleteCluster (name : String)
  /-- `ON CONFLICT(cluster, ordinal) DO UPDATE`. -/
  | upsertInstance (row : InstanceRow)
  | insertPooler (row : PoolerRow)
  | updatePooler (row : PoolerRow)
  | poolerPhase (name phase : String)
  | deletePooler (name : String)
  | deletePools (pooler : String)
  | insertPool (pooler : String) (pool : PoolerPool)

/-- What a write leaves; `none` when it breaks a constraint. -/
def Write.apply (D : Database) : Write → Option Database
  | insertCluster row =>
    if D.hasCluster row.name then none else some { D with clusters := D.clusters ++ [row] }
  | updateCluster row =>
    some { D with clusters := D.clusters.map fun r => if r.name = row.name then row else r }
  | clusterPhase name phase =>
    some { D with clusters := D.clusters.map fun r => if r.name = name then { r with phase } else r }
  | deleteCluster name =>
    -- RESTRICT for the pools of a cluster that is there, CASCADE for its instances
    if D.hasCluster name && D.pools.any (fun p => p.2.cluster = name) then none
    else some { D with
      clusters := D.clusters.filter fun r => !(r.name = name)
      instances := D.instances.filter fun r => !(r.cluster = name && D.hasCluster name) }
  | upsertInstance row =>
    if !D.hasCluster row.cluster then none
    else if D.instances.any fun r => r.cluster = row.cluster && r.ordinal = row.ordinal then
      some { D with instances := D.instances.map fun r =>
        if r.cluster = row.cluster && r.ordinal = row.ordinal then row else r }
    else some { D with instances := D.instances ++ [row] }
  | insertPooler row =>
    if D.hasPooler row.name then none else some { D with poolers := D.poolers ++ [row] }
  | updatePooler row =>
    some { D with poolers := D.poolers.map fun r => if r.name = row.name then row else r }
  | poolerPhase name phase =>
    some { D with poolers := D.poolers.map fun r => if r.name = name then { r with phase } else r }
  | deletePooler name =>
    some { D with
      poolers := D.poolers.filter fun r => !(r.name = name)
      pools := D.pools.filter fun p => !(p.1 = name && D.hasPooler name) }
  | deletePools pooler => some { D with pools := D.pools.filter fun p => !(p.1 = pooler) }
  | insertPool pooler pool =>
    if !D.hasPooler pooler || !D.hasCluster pool.cluster ||
      D.pools.any (fun p => p.1 = pooler && p.2.poolName = pool.poolName) then none
    else some { D with pools := D.pools ++ [(pooler, pool)] }

inductive SqlOp : Type → Type
  | begin : SqlOp (Except String Unit)
  | commit : SqlOp (Except String Unit)
  | rollback : SqlOp Unit
  | selectCluster (name : String) : SqlOp (Except String (Option (String × Int64)))
  | selectPooler (name : String) : SqlOp (Except String (Option (String × Int64)))
  /-- Some pooler that fronts the cluster. -/
  | selectFronting (cluster : String) : SqlOp (Except String (Option String))
  | write (w : Write) : SqlOp (Except String Unit)

/-- A connection: the tables as it sees them, and as they were when its transaction began. -/
structure Session where
  db : Database := {}
  saved : Option Database := none

/-- A statement goes through, or fails and changes nothing. -/
def Fallible {α : Type} (s : Session) (b : Except String α) (t : Session)
    (done : α → Session → Prop) : Prop :=
  (∃ a, b = .ok a ∧ done a t) ∨ (∃ e, b = .error e) ∧ t = s

/-- What a statement does. -/
def Executes : ∀ ⦃β : Type⦄, SqlOp β → Session → β → Session → Prop
  | _, .begin, s, b, t =>
    Fallible s b t fun _ t => s.saved = none ∧ t = { s with saved := some s.db }
  | _, .commit, s, b, t => Fallible s b t fun _ t => t = { s with saved := none }
  | _, .rollback, s, _, t => t = { db := s.saved.getD s.db, saved := none }
  | _, .selectCluster name, s, b, t => Fallible s b t fun a t => a = s.db.clusterState name ∧ t = s
  | _, .selectPooler name, s, b, t => Fallible s b t fun a t => a = s.db.poolerState name ∧ t = s
  | _, .selectFronting cluster, s, b, t => Fallible s b t fun a t => t = s ∧ match a with
      | some pooler => ∃ pool, (pooler, pool) ∈ s.db.pools ∧ pool.cluster = cluster
      | none => ∀ p ∈ s.db.pools, p.2.cluster ≠ cluster
  | _, .write w, s, b, t => Fallible s b t fun _ t =>
      ∃ D, w.apply s.db = some D ∧ t = { s with db := D }

/-- One connection, nothing else at work. -/
def sqlite : Machine SqlOp Session where
  step := Executes
  drift _ _ := False

/-! ## Operations -/

abbrev SqlTask := Task SqlOp Error

def sqliteError (why : String) : Error := .registry ("registry database: " ++ why)

/-- A statement, its failure an error of the registry. -/
def statement {α : Type} (op : SqlOp (Except String α)) : SqlTask α :=
  Task.mapError sqliteError (Task.ask op)

/-- The JSON a manifest is stored as: writing a derived struct does not fail. -/
structure ManifestText where
  cluster : ClusterManifest → String
  pooler : PoolerManifest → String

/-- The generation moves when the manifest does.  It is an `i64`: after the largest comes the
smallest, unless the build checks for overflow. -/
def nextGeneration (encoded : String) : Option (String × Int64) → Int64
  | none => 1
  | some (stored, prev) => if stored = encoded then prev else prev + 1

/-- Insert or update a cluster. -/
def putCluster (text : ManifestText) (manifest : ClusterManifest) (phase : String) :
    SqlTask Int64 := do
  let name := manifest.metadata.name
  let encoded := text.cluster manifest
  let existing ← statement (.selectCluster name)
  let generation := nextGeneration encoded existing
  let row : ClusterRow := ⟨name, encoded, generation, phase⟩
  match existing with
  | none => statement (.write (.insertCluster row))
  | some _ => statement (.write (.updateCluster row))
  pure generation

def setClusterPhase (cluster : ClusterId) (phase : String) : SqlTask Unit :=
  statement (.write (.clusterPhase cluster.name phase))

def poolerInUse (cluster : ClusterId) (pooler : String) : Error :=
  .registry ("cluster " ++ cluster.name ++ " is still fronted by pooler " ++ pooler ++
    ". Delete the pooler first (\x60pgpod pooler delete " ++ pooler ++ "\x60), or it would be left " ++
    "accepting connections for a cluster that no longer exists.")

/-- Remove a cluster and its instance rows. -/
def deleteCluster (cluster : ClusterId) : SqlTask Unit := do
  match ← statement (.selectFronting cluster.name) with
  | some pooler => Task.throw (poolerInUse cluster pooler)
  | none => statement (.write (.deleteCluster cluster.name))

def putInstance (rec : InstanceRecord) : SqlTask Unit :=
  statement (.write (.upsertInstance (InstanceRow.encode rec)))

/-- Run the body and commit; dropped on an error, the transaction is rolled back. -/
def transaction {α : Type} (body : SqlTask α) : SqlTask α := do
  statement .begin
  let outcome ← Task.attempt do
    let a ← body
    statement .commit
    pure a
  match outcome with
  | .ok a => pure a
  | .error e => do
    Task.perform .rollback
    Task.throw e

def insertPools (pooler : String) : List PoolerPool → SqlTask Unit
  | [] => pure ()
  | pool :: rest => do
    statement (.write (.insertPool pooler pool))
    insertPools pooler rest

/-- Insert or update a pooler and the pools it exports: its pool rows are replaced. -/
def putPooler (text : ManifestText) (manifest : PoolerManifest) (containerName : String)
    (containerId : Option String) (hostPort : UInt16) (phase : String) (pools : List PoolerPool) :
    SqlTask Int64 :=
  let name := manifest.metadata.name
  let encoded := text.pooler manifest
  transaction do
    let existing ← statement (.selectPooler name)
    let generation := nextGeneration encoded existing
    let row : PoolerRow := { name, manifest := encoded, generation, containerName, containerId
                             hostPort := Int.ofNat hostPort.toNat, phase }
    match existing with
    | none => statement (.write (.insertPooler row))
    | some _ => statement (.write (.updatePooler row))
    statement (.write (.deletePools name))
    insertPools name pools
    pure generation

def setPoolerPhase (pooler : PoolerId) (phase : String) : SqlTask Unit :=
  statement (.write (.poolerPhase pooler.name phase))

def deletePooler (pooler : PoolerId) : SqlTask Unit :=
  statement (.write (.deletePooler pooler.name))

end Sql

end Pgpod
