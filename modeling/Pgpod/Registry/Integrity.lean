import Pgpod.Registry.Sql

/-!
# The registry's rows refer to one another

Every statement keeps the references between the tables, so every run does,
whatever fails on the way.  Each operation changes the tables once, or inside a
transaction, and an operation that fails leaves them as they were.
-/

namespace Pgpod

open Effect

namespace Sql

namespace Database

/-- The cluster has a pool of some pooler. -/
def Fronted (D : Database) (name : String) : Prop := ∃ p ∈ D.pools, p.2.cluster = name

/-- The references between the tables, and the key of the pool rows. -/
structure Integrity (D : Database) : Prop where
  instances : ∀ r ∈ D.instances, D.hasCluster r.cluster = true
  poolers : ∀ p ∈ D.pools, D.hasPooler p.1 = true
  clusters : ∀ p ∈ D.pools, D.hasCluster p.2.cluster = true
  poolNames : (D.pools.map fun p => (p.1, p.2.poolName)).Nodup

theorem hasPooler_iff {D : Database} {name : String} :
    D.hasPooler name = true ↔ ∃ r ∈ D.poolers, r.name = name := by
  simp [hasPooler]

end Database

/-! ## One statement -/

/-- A rewriting of rows that keeps their names keeps which names there are. -/
theorem any_map_name {α : Type} {name : α → String} {f : α → α} (hf : ∀ r, name (f r) = name r)
    (rows : List α) (n : String) :
    ((rows.map f).any fun r => name r = n) = rows.any fun r => name r = n := by
  rw [List.any_map]
  congr 1
  funext r
  rw [Function.comp_apply, hf]

/-- Rows of one name taken away, the other names are still there. -/
theorem any_filter_name {α : Type} (name : α → String) (rows : List α) (n gone : String) :
    ((rows.filter fun r => !(decide (name r = gone))).any fun r => name r = n) =
      ((rows.any fun r => name r = n) && !(decide (n = gone))) := by
  rw [List.any_filter]
  induction rows with
  | nil => rfl
  | cons r rest ih =>
    rw [List.any_cons, List.any_cons, ih]
    by_cases hn : name r = n
    · by_cases hgone : n = gone
      · simp [hn, hgone]
      · simp [hn, hgone]
    · simp [hn]

section Apply

variable {D D' : Database}

/-- Which clusters there are after a write. -/
def Write.clustersAfter (D : Database) (n : String) : Write → Bool
  | insertCluster row => D.hasCluster n || row.name = n
  | deleteCluster name => D.hasCluster n && !(n = name)
  | _ => D.hasCluster n

def Write.poolersAfter (D : Database) (n : String) : Write → Bool
  | insertPooler row => D.hasPooler n || row.name = n
  | deletePooler name => D.hasPooler n && !(n = name)
  | _ => D.hasPooler n

theorem apply_hasCluster {w : Write} (h : w.apply D = some D') (n : String) :
    D'.hasCluster n = w.clustersAfter D n := by
  cases w with
  | insertCluster row =>
    simp only [Write.apply] at h
    split at h
    · cases h
    · obtain rfl := Option.some.inj h
      simp [Database.hasCluster, Write.clustersAfter]
  | updateCluster row =>
    obtain rfl := Option.some.inj h
    refine any_map_name (fun r => ?_) _ _
    split
    · next heq => exact heq.symm
    · rfl
  | clusterPhase name phase =>
    obtain rfl := Option.some.inj h
    refine any_map_name (fun r => ?_) _ _
    split <;> rfl
  | deleteCluster name =>
    simp only [Write.apply] at h
    split at h
    · cases h
    · obtain rfl := Option.some.inj h
      exact any_filter_name _ _ _ _
  | upsertInstance row =>
    simp only [Write.apply] at h
    split at h
    · cases h
    · split at h <;> obtain rfl := Option.some.inj h <;> rfl
  | insertPooler row =>
    simp only [Write.apply] at h
    split at h
    · cases h
    · obtain rfl := Option.some.inj h
      rfl
  | updatePooler | poolerPhase | deletePooler | deletePools =>
    obtain rfl := Option.some.inj h
    rfl
  | insertPool pooler pool =>
    simp only [Write.apply] at h
    split at h
    · cases h
    · obtain rfl := Option.some.inj h
      rfl

theorem apply_hasPooler {w : Write} (h : w.apply D = some D') (n : String) :
    D'.hasPooler n = w.poolersAfter D n := by
  cases w with
  | insertPooler row =>
    simp only [Write.apply] at h
    split at h
    · cases h
    · obtain rfl := Option.some.inj h
      simp [Database.hasPooler, Write.poolersAfter]
  | updatePooler row =>
    obtain rfl := Option.some.inj h
    refine any_map_name (fun r => ?_) _ _
    split
    · next heq => exact heq.symm
    · rfl
  | poolerPhase name phase =>
    obtain rfl := Option.some.inj h
    refine any_map_name (fun r => ?_) _ _
    split <;> rfl
  | deletePooler name =>
    obtain rfl := Option.some.inj h
    exact any_filter_name _ _ _ _
  | upsertInstance row =>
    simp only [Write.apply] at h
    split at h
    · cases h
    · split at h <;> obtain rfl := Option.some.inj h <;> rfl
  | insertCluster | deleteCluster | insertPool =>
    simp only [Write.apply] at h
    split at h
    · cases h
    · obtain rfl := Option.some.inj h
      rfl
  | updateCluster | clusterPhase | deletePools =>
    obtain rfl := Option.some.inj h
    rfl

/-- **A statement keeps the references**: what refers to a row is checked when it is written, and
goes when the row does. -/
theorem apply_integrity {w : Write} (h : w.apply D = some D') (hD : D.Integrity) : D'.Integrity := by
  have hc := apply_hasCluster h
  have hp := apply_hasPooler h
  cases w with
  | insertCluster row =>
    simp only [Write.apply] at h
    split at h
    · cases h
    · obtain rfl := Option.some.inj h
      exact
        { hD with
          instances := fun r hr => by simp [hc, Write.clustersAfter, hD.instances r hr]
          clusters := fun p hp => by simp [hc, Write.clustersAfter, hD.clusters p hp] }
  | updateCluster | clusterPhase =>
    obtain rfl := Option.some.inj h
    exact
      { hD with
        instances := fun r hr => (hc _).trans (hD.instances r hr)
        clusters := fun p hp => (hc _).trans (hD.clusters p hp) }
  | deleteCluster name =>
    simp only [Write.apply] at h
    split at h
    · cases h
    · next hfree =>
      obtain rfl := Option.some.inj h
      simp only [Bool.and_eq_true, List.any_eq_true, decide_eq_true_eq, not_and, not_exists] at hfree
      refine { hD with instances := fun r hr => ?_, clusters := fun p hpool => ?_ }
      · obtain ⟨hr, hkept⟩ := List.mem_filter.mp hr
        have hthere := hD.instances r hr
        rw [hc, Write.clustersAfter, hthere, Bool.true_and, Bool.not_eq_true', decide_eq_false_iff_not]
        rintro rfl
        simp [hthere] at hkept
      · have hthere := hD.clusters p hpool
        rw [hc, Write.clustersAfter, hthere, Bool.true_and, Bool.not_eq_true', decide_eq_false_iff_not]
        rintro rfl
        exact hfree hthere p hpool rfl
  | upsertInstance row =>
    simp only [Write.apply] at h
    split at h
    · cases h
    · next hthere =>
      have hthere : D.hasCluster row.cluster = true := by simpa using hthere
      split at h
      · obtain rfl := Option.some.inj h
        refine { hD with instances := fun r hr => ?_ }
        obtain ⟨q, hq, rfl⟩ := List.mem_map.mp hr
        rw [hc]
        split
        · exact hthere
        · exact hD.instances q hq
      · obtain rfl := Option.some.inj h
        refine { hD with instances := fun r hr => ?_ }
        rw [hc]
        rcases List.mem_append.mp hr with hr | hr
        · exact hD.instances r hr
        · rw [List.mem_singleton.mp hr]
          exact hthere
  | insertPooler row =>
    simp only [Write.apply] at h
    split at h
    · cases h
    · obtain rfl := Option.some.inj h
      exact { hD with poolers := fun p hpool => by simp [hp, Write.poolersAfter, hD.poolers p hpool] }
  | updatePooler | poolerPhase =>
    obtain rfl := Option.some.inj h
    exact { hD with poolers := fun p hpool => (hp _).trans (hD.poolers p hpool) }
  | deletePooler name =>
    obtain rfl := Option.some.inj h
    refine
      { hD with
        poolers := fun p hpool => ?_
        clusters := fun p hpool => hD.clusters p (List.mem_of_mem_filter hpool)
        poolNames := hD.poolNames.sublist (List.filter_sublist.map _) }
    obtain ⟨hpool, hkept⟩ := List.mem_filter.mp hpool
    have hthere := hD.poolers p hpool
    rw [hp, Write.poolersAfter, hthere, Bool.true_and, Bool.not_eq_true', decide_eq_false_iff_not]
    rintro rfl
    simp [hthere] at hkept
  | deletePools pooler =>
    obtain rfl := Option.some.inj h
    exact
      { instances := hD.instances
        poolers := fun p hpool => hD.poolers p (List.mem_of_mem_filter hpool)
        clusters := fun p hpool => hD.clusters p (List.mem_of_mem_filter hpool)
        poolNames := hD.poolNames.sublist (List.filter_sublist.map _) }
  | insertPool pooler pool =>
    simp only [Write.apply] at h
    split at h
    · cases h
    · next hfree =>
      obtain rfl := Option.some.inj h
      simp only [Bool.or_eq_true, not_or, Bool.not_eq_true', Bool.not_eq_false, List.any_eq_true,
        Bool.and_eq_true, decide_eq_true_eq, not_exists, not_and] at hfree
      obtain ⟨⟨hpooler, hcluster⟩, hnew⟩ := hfree
      refine { hD with poolers := ?_, clusters := ?_, poolNames := ?_ }
      · intro p hpool
        rcases List.mem_append.mp hpool with hpool | hpool
        · exact hD.poolers p hpool
        · rw [List.mem_singleton.mp hpool]
          exact hpooler
      · intro p hpool
        rcases List.mem_append.mp hpool with hpool | hpool
        · exact hD.clusters p hpool
        · rw [List.mem_singleton.mp hpool]
          exact hcluster
      · rw [List.map_append, List.nodup_append']
        refine ⟨hD.poolNames, List.nodup_singleton _, fun key hkey hkey' => ?_⟩
        obtain ⟨p, hpool, rfl⟩ := List.mem_map.mp hkey
        have heq := List.mem_singleton.mp hkey'
        exact hnew p hpool (Prod.mk.inj heq).1 (Prod.mk.inj heq).2

/-- A write that is none of the three on pool rows leaves them alone. -/
theorem apply_pools {w : Write} (h : w.apply D = some D') :
    (∀ name, w ≠ .deletePooler name) → (∀ pooler, w ≠ .deletePools pooler) →
      (∀ pooler pool, w ≠ .insertPool pooler pool) → D'.pools = D.pools := by
  intro hdelete hpools hinsert
  cases w with
  | deletePooler name => exact absurd rfl (hdelete name)
  | deletePools pooler => exact absurd rfl (hpools pooler)
  | insertPool pooler pool => exact absurd rfl (hinsert pooler pool)
  | updateCluster | clusterPhase | updatePooler | poolerPhase =>
    obtain rfl := Option.some.inj h
    rfl
  | insertCluster | deleteCluster | insertPooler =>
    simp only [Write.apply] at h
    split at h
    · cases h
    · obtain rfl := Option.some.inj h
      rfl
  | upsertInstance row =>
    simp only [Write.apply] at h
    split at h
    · cases h
    · split at h <;> obtain rfl := Option.some.inj h <;> rfl

end Apply

/-! ## Runs -/

/-- Started in this session, every run of the task to its end ends so. -/
def Leaves {α : Type} (s : Session) (t : SqlTask α) (Q : Except Error α → Session → Prop) : Prop :=
  ∀ r u, sqlite.Reach t.run s (.ret r) u → Q r u

section Leaves

variable {α β : Type} {s : Session} {Q : Except Error β → Session → Prop}

theorem sqlite_drifts {s t : Session} (h : sqlite.Drifts s t) : t = s := by
  induction h with
  | refl => rfl
  | tail _ hd _ => exact hd.elim

theorem Leaves.ret {r : Except Error β} (h : Q r s) : Leaves s (Task.ofExcept r) Q := by
  intro r' u hrun
  obtain ⟨heq, hdrifts⟩ := hrun.of_ret
  rw [sqlite_drifts hdrifts, Prog.ret.inj heq]
  exact h

theorem Leaves.bind {t : SqlTask α} {f : α → SqlTask β} {J : Except Error α → Session → Prop}
    (ht : Leaves s t J) (hf : ∀ a u, J (.ok a) u → Leaves u (f a) Q)
    (herr : ∀ e u, J (.error e) u → Q (.error e) u) : Leaves s (t >>= f) Q := by
  intro r u hrun
  rcases hrun.task_bind_inv with ⟨a, v, htask, hrest⟩ | ⟨e, rfl, htask⟩
  · exact hf a v (ht _ _ htask) r u hrest
  · exact herr e u (ht _ _ htask)

theorem Leaves.attempt {t : SqlTask α} {f : Except Error α → SqlTask β}
    {J : Except Error α → Session → Prop} (ht : Leaves s t J)
    (hf : ∀ a u, J a u → Leaves u (f a) Q) : Leaves s (Task.attempt t >>= f) Q := by
  intro r u hrun
  obtain ⟨a, v, htask, hrest⟩ := hrun.attempt_bind_inv
  exact hf a v (ht _ _ htask) r u hrest

/-- A statement: what it does when it goes through, and nothing when it fails. -/
theorem Leaves.statement {op : SqlOp (Except String β)}
    (h : ∀ b u, Executes op s b u → Q (b.mapError sqliteError) u) :
    Leaves s (Sql.statement op) Q := by
  intro r u hrun
  obtain ⟨b, v, htask, hrest⟩ := hrun.bind_ret_inv
  obtain ⟨v', w, hdrift, hstep, hafter⟩ := htask.perform_inv
  obtain ⟨heq, hend⟩ := hrest.of_ret
  obtain rfl := sqlite_drifts hdrift
  obtain rfl := sqlite_drifts hafter
  rw [sqlite_drifts hend, Prog.ret.inj heq]
  exact h b _ hstep

theorem Leaves.mono {t : SqlTask β} {J : Except Error β → Session → Prop} (h : Leaves s t J)
    (himp : ∀ r u, J r u → Q r u) : Leaves s t Q := fun r u hrun => himp r u (h r u hrun)

end Leaves

/-- Success did what `Done` says, and failure nothing. -/
def Atomic {α : Type} (s : Session) (Done : α → Session → Prop) : Except Error α → Session → Prop
  | .ok a, u => Done a u
  | .error _, u => u = s

theorem Leaves.fallible {α : Type} {s : Session} {op : SqlOp (Except String α)}
    {Done : α → Session → Prop} (h : ∀ b u, Executes op s b u → Fallible s b u Done) :
    Leaves s (Sql.statement op) (Atomic s Done) := by
  refine .statement fun b u hstep => ?_
  rcases h b u hstep with ⟨a, rfl, hdone⟩ | ⟨⟨e, rfl⟩, rfl⟩
  · exact hdone
  · rfl

/-- What one write does to a session. -/
def Wrote (s : Session) (w : Write) (u : Session) : Prop :=
  ∃ D, w.apply s.db = some D ∧ u = { s with db := D }

theorem write_atomic (s : Session) (w : Write) :
    Leaves s (statement (.write w)) (Atomic s fun _ => Wrote s w) :=
  .fallible fun _ _ h => h

theorem selectCluster_atomic (s : Session) (name : String) :
    Leaves s (statement (.selectCluster name))
      (Atomic s fun a u => a = s.db.clusterState name ∧ u = s) :=
  .fallible fun _ _ h => h

theorem selectPooler_atomic (s : Session) (name : String) :
    Leaves s (statement (.selectPooler name))
      (Atomic s fun a u => a = s.db.poolerState name ∧ u = s) :=
  .fallible fun _ _ h => h

/-- A task of one write that answers on its own. -/
theorem write_then {α : Type} (s : Session) (w : Write) (a : α) :
    Leaves s (statement (.write w) >>= fun _ => pure a) (Atomic s fun b u => b = a ∧ Wrote s w u) :=
  .bind (write_atomic s w) (fun _ _ h => .ret ⟨rfl, h⟩) fun _ _ h => h

/-- The write of `putCluster`, given what it read. -/
def clusterWrite (text : ManifestText) (m : ClusterManifest) (phase : String)
    (existing : Option (String × Int64)) : Write :=
  let row : ClusterRow :=
    ⟨m.metadata.name, text.cluster m, nextGeneration (text.cluster m) existing, phase⟩
  if existing.isNone then .insertCluster row else .updateCluster row

theorem putCluster_atomic (text : ManifestText) (m : ClusterManifest) (phase : String)
    (s : Session) : Leaves s (putCluster text m phase)
      (Atomic s fun g u => g = nextGeneration (text.cluster m) (s.db.clusterState m.metadata.name) ∧
        Wrote s (clusterWrite text m phase (s.db.clusterState m.metadata.name)) u) := by
  refine .bind (selectCluster_atomic s _) (fun existing u h => ?_) fun _ _ h => h
  obtain ⟨rfl, rfl⟩ := h
  unfold clusterWrite
  cases u.db.clusterState m.metadata.name with
  | none => exact write_then u _ _
  | some _ => exact write_then u _ _

theorem deleteCluster_atomic (c : ClusterId) (s : Session) :
    Leaves s (deleteCluster c) (Atomic s fun _ => Wrote s (.deleteCluster c.name)) := by
  have hread : Leaves s (statement (.selectFronting c.name)) (Atomic s fun _ u => u = s) := by
    refine .statement fun b u h => ?_
    rcases h with ⟨a, rfl, hdone⟩ | ⟨⟨e, rfl⟩, rfl⟩
    · exact hdone.1
    · rfl
  refine .bind hread (fun fronting u h => ?_) fun _ _ h => h
  obtain rfl := h
  cases fronting with
  | none => exact write_atomic u _
  | some pooler => exact .ret rfl

/-! ## The transaction -/

/-- Inside a transaction the tables as they were at its beginning are kept. -/
def Within {α : Type} (s : Session) (Done : α → Database → Prop) : Except Error α → Session → Prop
  | .ok a, u => u.saved = s.saved ∧ Done a u.db
  | .error _, u => u.saved = s.saved

theorem transaction_atomic {α : Type} {s : Session} {body : SqlTask α} {Done : α → Database → Prop}
    (hs : s.saved = none)
    (hbody : Leaves { s with saved := some s.db } body (Within { s with saved := some s.db } Done)) :
    Leaves s (transaction body) (Atomic s fun a u => u.saved = none ∧ Done a u.db) := by
  have hback : ∀ u : Session, u.saved = some s.db →
      ({ db := u.saved.getD u.db, saved := none } : Session) = s := by
    intro u hu
    rw [hu, Option.getD_some, ← hs]
  have hbegin : Leaves s (statement .begin)
      (Atomic s fun _ u => s.saved = none ∧ u = { s with saved := some s.db }) :=
    .fallible fun _ _ h => h
  refine .bind hbegin (fun _ u h => ?_) fun _ _ h => h
  obtain ⟨-, rfl⟩ := h
  have hend : ∀ u, Leaves u (statement .commit) (Atomic u fun _ v => v = { u with saved := none }) :=
    fun u => .fallible fun _ _ h => h
  have hcommit : Leaves { s with saved := some s.db }
      (do let a ← body; statement .commit; pure a) fun
        | .ok a, u => u.saved = none ∧ Done a u.db
        | .error _, u => u.saved = some s.db := by
    refine .bind hbody (fun a u h => ?_) fun e u h => h
    refine .bind (hend u) (fun _ v hv => ?_) fun _ v hv => ?_
    · obtain rfl := hv
      exact .ret ⟨rfl, h.2⟩
    · obtain rfl : v = u := hv
      exact h.1
  refine .attempt hcommit fun outcome u h => ?_
  cases outcome with
  | ok a => exact .ret h
  | error e =>
    intro r v hrun
    obtain ⟨u', _, w, hdrifts, hstep, hrest⟩ := hrun.perform_bind_inv
    obtain rfl := sqlite_drifts hdrifts
    obtain ⟨heq, hafter⟩ := hrest.of_ret
    rw [sqlite_drifts hafter, Prog.ret.inj heq]
    obtain rfl : w = _ := hstep
    exact hback _ h

/-- The pool rows of one pooler are replaced, and it has a row. -/
structure Replaces (D : Database) (name : String) (pools : List PoolerPool) (D' : Database) :
    Prop where
  clusters : ∀ c, D'.hasCluster c = D.hasCluster c
  poolers : ∀ p, D'.hasPooler p = (D.hasPooler p || p = name)
  mine : D'.poolRows name = pools
  others : ∀ p, p ≠ name → D'.poolRows p = D.poolRows p

theorem write_within (s : Session) (w : Write) :
    Leaves s (statement (.write w)) (Within s fun _ D => w.apply s.db = some D) := by
  refine (write_atomic s w).mono fun r u h => ?_
  cases r with
  | ok _ =>
    obtain ⟨D, happly, rfl⟩ := h
    exact ⟨rfl, happly⟩
  | error _ =>
    obtain rfl : u = s := h
    rfl

/-- Sequencing inside a transaction. -/
theorem Leaves.within {α β : Type} {s : Session} {t : SqlTask α} {f : α → SqlTask β}
    {J : α → Database → Prop} {Done : β → Database → Prop} (ht : Leaves s t (Within s J))
    (hf : ∀ a u, J a u.db → Leaves u (f a) (Within u Done)) :
    Leaves s (t >>= f) (Within s Done) := by
  refine .bind ht (fun a u h => (hf a u h.2).mono fun r v hv => ?_) fun _ _ h => h
  cases r with
  | ok b => exact ⟨hv.1.trans h.1, hv.2⟩
  | error e => exact hv.trans h.1

theorem insertPools_within (name : String) (pools : List PoolerPool) (s : Session) :
    Leaves s (insertPools name pools) (Within s fun _ D =>
      (∀ c, D.hasCluster c = s.db.hasCluster c) ∧ (∀ p, D.hasPooler p = s.db.hasPooler p) ∧
        D.pools = s.db.pools ++ pools.map fun pool => (name, pool)) := by
  induction pools generalizing s with
  | nil => exact .ret ⟨rfl, fun _ => rfl, fun _ => rfl, (List.append_nil _).symm⟩
  | cons pool rest ih =>
    refine .within (write_within s _) fun _ u h => (ih u).mono fun r v hv => ?_
    cases r with
    | error e => exact hv
    | ok _ =>
      obtain ⟨hsaved, hclusters, hpoolers, hpools⟩ := hv
      refine ⟨hsaved, fun c => ?_, fun p => ?_, ?_⟩
      · exact (hclusters c).trans (apply_hasCluster h c)
      · exact (hpoolers p).trans (apply_hasPooler h p)
      · have hrows : u.db.pools = s.db.pools ++ [(name, pool)] := by
          simp only [Write.apply] at h
          split at h
          · cases h
          · rw [← Option.some.inj h]
        rw [hpools, hrows, List.append_assoc]
        rfl

/-- The row a pooler is given. -/
theorem pooler_row_within (s : Session) (row : PoolerRow) (existing : Option (String × Int64))
    (h : existing = s.db.poolerState row.name) :
    Leaves s (statement (.write (if existing.isNone then .insertPooler row else .updatePooler row)))
      (Within s fun _ D => (∀ c, D.hasCluster c = s.db.hasCluster c) ∧
        (∀ p, D.hasPooler p = (s.db.hasPooler p || p = row.name)) ∧ D.pools = s.db.pools) := by
  refine (write_within s _).mono fun r u hr => ?_
  cases r with
  | error e => exact hr
  | ok _ =>
    obtain ⟨hsaved, happly⟩ := hr
    cases existing with
    | none =>
      refine ⟨hsaved, apply_hasCluster happly, fun p => ?_, apply_pools happly nofun nofun nofun⟩
      rw [apply_hasPooler happly]
      simp [Write.poolersAfter, eq_comm]
    | some state =>
      refine ⟨hsaved, apply_hasCluster happly, fun p => ?_, apply_pools happly nofun nofun nofun⟩
      have hthere : s.db.hasPooler row.name = true := by
        obtain ⟨old, hold, -⟩ := Option.map_eq_some_iff.mp h.symm
        refine Database.hasPooler_iff.mpr ⟨old, List.mem_of_find?_eq_some hold, ?_⟩
        simpa using List.find?_some hold
      rw [apply_hasPooler happly]
      change s.db.hasPooler p = _
      by_cases hp : p = row.name
      · subst hp
        rw [hthere, Bool.true_or]
      · simp [hp]

/-- The pool rows of a pooler that is there, replaced. -/
theorem replace_within {α : Type} (s : Session) (name : String) (pools : List PoolerPool) (a : α) :
    Leaves s (do
      statement (.write (.deletePools name))
      insertPools name pools
      pure a) (Within s fun _ D => (∀ c, D.hasCluster c = s.db.hasCluster c) ∧
        (∀ p, D.hasPooler p = s.db.hasPooler p) ∧
        D.pools = (s.db.pools.filter fun p => !(p.1 = name)) ++ pools.map fun pool => (name, pool)) := by
  refine .within (write_within s _) fun _ u h => .within (insertPools_within name pools u) ?_
  rintro _ v ⟨hclusters, hpoolers, hpools⟩
  refine .ret ⟨rfl, fun c => (hclusters c).trans (apply_hasCluster h c),
    fun p => (hpoolers p).trans (apply_hasPooler h p), ?_⟩
  rw [hpools, ← Option.some.inj h]

theorem Replaces.of_rows {D D₁ D' : Database} {name : String} {pools : List PoolerPool}
    (hrow : (∀ c, D₁.hasCluster c = D.hasCluster c) ∧
      (∀ p, D₁.hasPooler p = (D.hasPooler p || p = name)) ∧ D₁.pools = D.pools)
    (hpools : (∀ c, D'.hasCluster c = D₁.hasCluster c) ∧
      (∀ p, D'.hasPooler p = D₁.hasPooler p) ∧
      D'.pools = (D₁.pools.filter fun p => !(p.1 = name)) ++ pools.map fun pool => (name, pool)) :
    Replaces D name pools D' where
  clusters c := (hpools.1 c).trans (hrow.1 c)
  poolers p := (hpools.2.1 p).trans (hrow.2.1 p)
  mine := by
    have hall : (pools.map fun pool => (name, pool)).filter (fun p => p.1 = name) =
        pools.map fun pool => (name, pool) := by
      refine List.filter_eq_self.mpr fun p hp => ?_
      obtain ⟨pool, -, rfl⟩ := List.mem_map.mp hp
      exact decide_eq_true rfl
    rw [Database.poolRows, hpools.2.2, List.filter_append, List.filter_filter, hall]
    simp [Function.comp_def]
  others p hp := by
    have hne : ∀ q : String × PoolerPool, (decide (q.1 = p) && !decide (q.1 = name)) =
        decide (q.1 = p) := by
      intro q
      by_cases hq : q.1 = p
      · simp [hq, hp]
      · simp [hq]
    rw [Database.poolRows, Database.poolRows, hpools.2.2, hrow.2.2, List.filter_append,
      List.filter_filter]
    simp [hne, Ne.symm hp]

theorem putPooler_atomic (text : ManifestText) (m : PoolerManifest) (containerName : String)
    (containerId : Option String) (hostPort : UInt16) (phase : String) (pools : List PoolerPool)
    {s : Session} (hs : s.saved = none) :
    Leaves s (putPooler text m containerName containerId hostPort phase pools)
      (Atomic s fun _ u => u.saved = none ∧ Replaces s.db m.metadata.name pools u.db) := by
  refine @transaction_atomic Int64 s _ (fun _ D => Replaces s.db m.metadata.name pools D) hs ?_
  have hread : Leaves { s with saved := some s.db } (statement (.selectPooler m.metadata.name))
      (Within { s with saved := some s.db } fun a D =>
        a = D.poolerState m.metadata.name ∧ D = s.db) := by
    refine (selectPooler_atomic _ _).mono fun r u h => ?_
    cases r with
    | ok a =>
      obtain ⟨rfl, rfl⟩ := h
      exact ⟨rfl, rfl, rfl⟩
    | error e =>
      obtain rfl : u = _ := h
      rfl
  refine .within hread fun existing u h => ?_
  obtain ⟨hexisting, hdb⟩ := h
  rw [← hdb]
  cases existing with
  | none =>
    refine .within (pooler_row_within u _ none hexisting) fun _ v hrow => ?_
    refine (replace_within v _ _ _).mono fun r w h => ?_
    cases r with
    | ok _ => exact ⟨h.1, .of_rows hrow h.2⟩
    | error _ => exact h
  | some state =>
    refine .within (pooler_row_within u _ (some state) hexisting) fun _ v hrow => ?_
    refine (replace_within v _ _ _).mono fun r w h => ?_
    cases r with
    | ok _ => exact ⟨h.1, .of_rows hrow h.2⟩
    | error _ => exact h

/-! ## Sequences of operations -/

inductive Operation
  | putCluster (manifest : ClusterManifest) (phase : String)
  | setClusterPhase (cluster : ClusterId) (phase : String)
  | deleteCluster (cluster : ClusterId)
  | putInstance (rec : InstanceRecord)
  | putPooler (manifest : PoolerManifest) (containerName : String) (containerId : Option String)
      (hostPort : UInt16) (phase : String) (pools : List PoolerPool)
  | setPoolerPhase (pooler : PoolerId) (phase : String)
  | deletePooler (pooler : PoolerId)

/-- The pools each pooler was last given. -/
abbrev Given := String → Option (List PoolerPool)

namespace Operation

def task (text : ManifestText) : Operation → SqlTask Unit
  | putCluster m phase => Sql.putCluster text m phase >>= fun _ => pure ()
  | setClusterPhase c phase => Sql.setClusterPhase c phase
  | deleteCluster c => Sql.deleteCluster c
  | putInstance rec => Sql.putInstance rec
  | putPooler m containerName containerId hostPort phase pools =>
    Sql.putPooler text m containerName containerId hostPort phase pools >>= fun _ => pure ()
  | setPoolerPhase p phase => Sql.setPoolerPhase p phase
  | deletePooler p => Sql.deletePooler p

/-- What a success of the operation makes of the pools given. -/
def gives (given : Given) : Operation → Given
  | putPooler m _ _ _ _ pools => fun p => if p = m.metadata.name then some pools else given p
  | deletePooler q => fun p => if p = q.name then none else given p
  | _ => given

/-- What a success of the operation does to the tables. -/
def Does (text : ManifestText) (D D' : Database) : Operation → Prop
  | putCluster m phase =>
    (clusterWrite text m phase (D.clusterState m.metadata.name)).apply D = some D'
  | setClusterPhase c phase => (Write.clusterPhase c.name phase).apply D = some D'
  | deleteCluster c => (Write.deleteCluster c.name).apply D = some D'
  | putInstance rec => (Write.upsertInstance (InstanceRow.encode rec)).apply D = some D'
  | putPooler m _ _ _ _ pools => Replaces D m.metadata.name pools D'
  | setPoolerPhase p phase => (Write.poolerPhase p.name phase).apply D = some D'
  | deletePooler p => (Write.deletePooler p.name).apply D = some D'

/-- **Each operation is all or nothing**. -/
theorem atomic (text : ManifestText) (op : Operation) {s : Session} (hs : s.saved = none) :
    Leaves s (op.task text) (Atomic s fun _ u => u.saved = none ∧ op.Does text s.db u.db) := by
  have hwrite : ∀ w : Write, Leaves s (statement (.write w))
      (Atomic s fun _ u => u.saved = none ∧ w.apply s.db = some u.db) := by
    intro w
    refine (write_atomic s w).mono fun r u h => ?_
    cases r with
    | ok _ =>
      obtain ⟨D, happly, rfl⟩ := h
      exact ⟨hs, happly⟩
    | error _ => exact h
  cases op with
  | putCluster m phase =>
    refine .bind (putCluster_atomic text m phase s) (fun _ u h => ?_) fun _ _ h => h
    obtain ⟨-, D, happly, rfl⟩ := h
    exact .ret ⟨hs, happly⟩
  | deleteCluster c =>
    refine (deleteCluster_atomic c s).mono fun r u h => ?_
    cases r with
    | ok _ =>
      obtain ⟨D, happly, rfl⟩ := h
      exact ⟨hs, happly⟩
    | error _ => exact h
  | putPooler m containerName containerId hostPort phase pools =>
    refine .bind (putPooler_atomic text m containerName containerId hostPort phase pools hs)
      (fun _ u h => .ret h) fun _ _ h => h
  | setClusterPhase | putInstance | setPoolerPhase | deletePooler => exact hwrite _

end Operation

/-- The registry and, beside it, what each pooler was last given. -/
structure History where
  session : Session := {}
  given : Given := fun _ => none

/-- One operation, run to its end. -/
inductive Performs (text : ManifestText) (h : History) (op : Operation) :
    Except Error Unit → History → Prop
  | ok {s : Session} : sqlite.Reach (op.task text).run h.session (.ret (.ok ())) s →
      Performs text h op (.ok ()) ⟨s, op.gives h.given⟩
  | error {s : Session} {e : Error} : sqlite.Reach (op.task text).run h.session (.ret (.error e)) s →
      Performs text h op (.error e) ⟨s, h.given⟩

/-- Any number of operations, from an empty registry. -/
def Recorded (text : ManifestText) (h : History) : Prop :=
  Relation.ReflTransGen (fun h h' => ∃ op r, Performs text h op r h') {} h

/-- The rows refer to one another, and the pools of a pooler are those it was last given. -/
structure Sound (h : History) : Prop where
  closed : h.session.saved = none
  integrity : h.session.db.Integrity
  poolers : ∀ p, h.session.db.hasPooler p = (h.given p).isSome
  pools : ∀ p, h.session.db.poolRows p = (h.given p).getD []

/-- No statement breaks the references, in a transaction or out of one. -/
theorem executes_integrity {β : Type} {op : SqlOp β} {s t : Session} {b : β}
    (hs : s.db.Integrity ∧ ∀ D, s.saved = some D → D.Integrity) (h : Executes op s b t) :
    t.db.Integrity ∧ ∀ D, t.saved = some D → D.Integrity := by
  cases op with
  | begin =>
    rcases h with ⟨_, -, -, rfl⟩ | ⟨-, rfl⟩
    · exact ⟨hs.1, fun D hD => Option.some.inj hD ▸ hs.1⟩
    · exact hs
  | commit =>
    rcases h with ⟨_, -, rfl⟩ | ⟨-, rfl⟩
    · exact ⟨hs.1, nofun⟩
    · exact hs
  | rollback =>
    obtain rfl : t = _ := h
    refine ⟨?_, nofun⟩
    cases hsaved : s.saved with
    | none => exact hs.1
    | some D => exact hs.2 D hsaved
  | selectCluster | selectPooler =>
    rcases h with ⟨_, -, -, rfl⟩ | ⟨-, rfl⟩ <;> exact hs
  | selectFronting =>
    rcases h with ⟨_, -, rfl, -⟩ | ⟨-, rfl⟩ <;> exact hs
  | write w =>
    rcases h with ⟨_, -, D, happly, rfl⟩ | ⟨-, rfl⟩
    · exact ⟨apply_integrity happly hs.1, hs.2⟩
    · exact hs

theorem reach_integrity {α : Type} {p q : Prog SqlOp α} {s t : Session} (h : sqlite.Reach p s q t)
    (hs : s.saved = none) (hD : s.db.Integrity) : t.db.Integrity := by
  have hinit : s.db.Integrity ∧ ∀ D, s.saved = some D → D.Integrity := by
    rw [hs]
    exact ⟨hD, nofun⟩
  refine (h.keeps (P := fun _ _ => True) (I := fun s => s.db.Integrity ∧
    ∀ D, s.saved = some D → D.Integrity) (fun _ _ hd _ => False.elim hd)
    (fun _ _ _ _ _ _ hs hstep => executes_integrity hs hstep) (.of_forall (fun _ _ => trivial) p)
    hinit).1

section Does

variable {text : ManifestText} {op : Operation} {D D' : Database}

/-- Which poolers there are after an operation, and with which pools. -/
theorem Operation.Does.given (h : op.Does text D D') {given : Given}
    (hpoolers : ∀ p, D.hasPooler p = (given p).isSome)
    (hpools : ∀ p, D.poolRows p = (given p).getD []) :
    (∀ p, D'.hasPooler p = (op.gives given p).isSome) ∧
      ∀ p, D'.poolRows p = (op.gives given p).getD [] := by
  have hsame : ∀ {w : Write}, w.apply D = some D' → (∀ p, w.poolersAfter D p = D.hasPooler p) →
      D'.pools = D.pools → (∀ p, D'.hasPooler p = (given p).isSome) ∧
        ∀ p, D'.poolRows p = (given p).getD [] := by
    intro w happly hafter hrows
    refine ⟨fun p => ?_, fun p => ?_⟩
    · rw [apply_hasPooler happly, hafter, hpoolers]
    · rw [Database.poolRows, hrows, ← hpools]
      rfl
  cases op with
  | putCluster m phase =>
    have hw : ∀ p, (clusterWrite text m phase (D.clusterState m.metadata.name)).poolersAfter D p =
        D.hasPooler p := by
      intro p
      unfold clusterWrite
      simp only
      split <;> rfl
    refine hsame h hw (apply_pools h ?_ ?_ ?_)
    all_goals
      intros
      unfold clusterWrite
      simp only
      split <;> nofun
  | setClusterPhase | deleteCluster | putInstance | setPoolerPhase =>
    exact hsame h (fun _ => rfl) (apply_pools h nofun nofun nofun)
  | putPooler m containerName containerId hostPort phase pools =>
    refine ⟨fun p => ?_, fun p => ?_⟩
    · rw [h.poolers, hpoolers, Operation.gives]
      by_cases hp : p = m.metadata.name
      · simp [hp]
      · simp [hp]
    · change _ = (if p = m.metadata.name then some pools else given p).getD []
      by_cases hp : p = m.metadata.name
      · rw [if_pos hp, hp, h.mine]
        rfl
      · rw [if_neg hp, h.others p hp, hpools]
  | deletePooler q =>
    have hafter := apply_hasPooler h
    obtain rfl := Option.some.inj h
    refine ⟨fun p => ?_, fun p => ?_⟩
    · rw [hafter, Write.poolersAfter, hpoolers]
      change _ = (if p = q.name then none else given p).isSome
      by_cases hp : p = q.name
      · simp [hp]
      · simp [hp]
    · change _ = (if p = q.name then none else given p).getD []
      by_cases hp : p = q.name
      · rw [if_pos hp]
        cases hthere : D.hasPooler q.name with
        | true => simp [Database.poolRows, List.filter_filter, hp]
        | false =>
          -- a pooler without a row has no pools to lose
          have hnone : given q.name = none := by
            rw [← Option.not_isSome_iff_eq_none, ← hpoolers, hthere]
            exact Bool.false_ne_true
          have hrows := hpools q.name
          rw [hnone] at hrows
          simpa [Database.poolRows, List.filter_filter, hp, hthere] using hrows
      · have hother : ∀ r : String × PoolerPool,
            (decide (r.1 = p) && !(decide (r.1 = q.name) && D.hasPooler q.name)) =
              decide (r.1 = p) := by
          intro r
          by_cases hr : r.1 = p
          · simp [hr, hp]
          · simp [hr]
        rw [if_neg hp, ← hpools, Database.poolRows, Database.poolRows, List.filter_filter]
        simp only [hother]

/-- A fronted cluster stays, whatever the operation. -/
theorem Operation.Does.keeps_fronted (h : op.Does text D D') {name : String}
    (hname : D.hasCluster name = true) (hfronted : D.Fronted name) : D'.hasCluster name = true := by
  cases op with
  | putCluster m phase =>
    have hafter := apply_hasCluster h name
    unfold clusterWrite at hafter
    simp only at hafter
    split at hafter
    · rw [hafter, Write.clustersAfter, hname, Bool.true_or]
    · exact hafter.trans hname
  | setClusterPhase | putInstance | setPoolerPhase | deletePooler =>
    exact (apply_hasCluster h name).trans hname
  | putPooler => exact (h.clusters name).trans hname
  | deleteCluster c =>
    have hafter := apply_hasCluster h name
    rw [hafter, Write.clustersAfter, hname, Bool.true_and, Bool.not_eq_true', decide_eq_false_iff_not]
    rintro rfl
    obtain ⟨p, hp, hcluster⟩ := hfronted
    have hfree : (D.hasCluster c.name && D.pools.any fun p => p.2.cluster = c.name) = true := by
      rw [hname, Bool.true_and, List.any_eq_true]
      exact ⟨p, hp, decide_eq_true hcluster⟩
    simp only [Operation.Does, Write.apply, if_pos hfree] at h
    cases h

end Does

/-- **The registry's tables**: whatever is done to the registry, and whatever fails on the way, the
rows refer to one another, pool names are unique within a pooler, each pooler's pools are those it
was last given, an operation that fails changes nothing, and none deletes a fronted cluster. -/
theorem registry_integrity (text : ManifestText) (h : History) (hrun : Recorded text h) :
    Sound h ∧ ∀ op r h', Performs text h op r h' →
      (∀ e, r = .error e → h'.session.db = h.session.db) ∧
      ∀ name, h.session.db.hasCluster name = true → h.session.db.Fronted name →
        h'.session.db.hasCluster name = true := by
  have hstep : ∀ {h h' : History} {op r}, Sound h → Performs text h op r h' →
      Sound h' ∧ (∀ e, r = .error e → h'.session = h.session) ∧
        ((∀ e, r ≠ .error e) → op.Does text h.session.db h'.session.db) := by
    intro h h' op r hsound hperforms
    cases hperforms with
    | @ok s hreach =>
      obtain ⟨hclosed, hdoes⟩ : s.saved = none ∧ op.Does text h.session.db s.db :=
        op.atomic text hsound.closed _ _ hreach
      obtain ⟨hpoolers, hpools⟩ := hdoes.given hsound.poolers hsound.pools
      exact ⟨⟨hclosed, reach_integrity hreach hsound.closed hsound.integrity, hpoolers, hpools⟩,
        nofun, fun _ => hdoes⟩
    | @error s e hreach =>
      obtain rfl : s = h.session := op.atomic text hsound.closed _ _ hreach
      exact ⟨hsound, fun _ _ => rfl, fun hne => absurd rfl (hne e)⟩
  have hsound : Sound h := by
    induction hrun with
    | refl => exact { closed := rfl, integrity := ⟨nofun, nofun, nofun, .nil⟩
                      poolers := fun _ => rfl, pools := fun _ => rfl }
    | tail _ hop ih =>
      obtain ⟨op, r, hperforms⟩ := hop
      exact (hstep ih hperforms).1
  refine ⟨hsound, fun op r h' hperforms => ?_⟩
  obtain ⟨-, herror, hok⟩ := hstep hsound hperforms
  refine ⟨fun e he => congrArg Session.db (herror e he), fun name hname hfronted => ?_⟩
  cases r with
  | ok _ => exact (hok nofun).keeps_fronted hname hfronted
  | error e => rw [herror e rfl]; exact hname

/-! ## Runs that evaluate -/

/-- The statements as SQLite carries them out; the choice is whether the next one fails on its
own. -/
def execute : Executable SqlOp Session Bool Empty where
  exec op fails s :=
    match op, fails with
    | .begin, false =>
      if s.saved.isNone then (.ok (), { s with saved := some s.db })
      else (.error "cannot start a transaction within a transaction", s)
    | .commit, false => (.ok (), { s with saved := none })
    | .rollback, _ => ((), { db := s.saved.getD s.db, saved := none })
    | .selectCluster name, false => (.ok (s.db.clusterState name), s)
    | .selectPooler name, false => (.ok (s.db.poolerState name), s)
    | .selectFronting cluster, false =>
      (.ok ((s.db.pools.find? fun p => p.2.cluster = cluster).map Prod.fst), s)
    | .write w, false => match w.apply s.db with
      | some D => (.ok (), { s with db := D })
      | none => (.error "constraint failed", s)
    | .begin, true | .commit, true | .selectCluster _, true | .selectPooler _, true
    | .selectFronting _, true | .write _, true => (.error "disk I/O error", s)
  move := nofun

/-- What is carried out is what the statement does. -/
theorem executes_execute {β : Type} (op : SqlOp β) (fails : Bool) (s : Session) :
    Executes op s (execute.exec op fails s).1 (execute.exec op fails s).2 := by
  cases fails with
  | true =>
    cases op with
    | rollback => rfl
    | _ => exact .inr ⟨⟨_, rfl⟩, rfl⟩
  | false =>
    cases op with
    | begin =>
      simp only [execute]
      split
      · next hnone => exact .inl ⟨_, rfl, Option.isNone_iff_eq_none.mp hnone, rfl⟩
      · exact .inr ⟨⟨_, rfl⟩, rfl⟩
    | commit => exact .inl ⟨_, rfl, rfl⟩
    | rollback => rfl
    | selectCluster | selectPooler => exact .inl ⟨_, rfl, rfl, rfl⟩
    | selectFronting cluster =>
      refine .inl ⟨_, rfl, rfl, ?_⟩
      cases hfind : s.db.pools.find? fun p => p.2.cluster = cluster with
      | none => simpa using hfind
      | some p =>
        have hcluster : p.2.cluster = cluster := by simpa using List.find?_some hfind
        exact ⟨p.2, List.mem_of_find?_eq_some hfind, hcluster⟩
    | write w =>
      simp only [execute]
      split
      · next D happly => exact .inl ⟨_, rfl, D, happly, rfl⟩
      · exact .inr ⟨⟨_, rfl⟩, rfl⟩

/-- A script of statements that go through or fail is a run of the registry. -/
theorem follow_sqlite {α : Type} (script : List (Bool ⊕ Empty)) (p : Prog SqlOp α) (s : Session) :
    sqlite.Reach p s (execute.follow script p s).1 (execute.follow script p s).2 := by
  refine (execute.follow_reach script p s).mono ?_ ?_
  · rintro β op s _ _ ⟨fails, heq⟩
    have hexec := executes_execute op fails s
    rwa [heq] at hexec
  · rintro _ _ ⟨⟨⟩, -⟩

/-- One operation to its end, if the script is long enough. -/
def History.perform (text : ManifestText) (h : History) (script : List (Bool ⊕ Empty))
    (op : Operation) : Option (Except Error Unit × History) :=
  match execute.follow script (op.task text).run h.session with
  | (.ret (.ok ()), s) => some (.ok (), ⟨s, op.gives h.given⟩)
  | (.ret (.error e), s) => some (.error e, ⟨s, h.given⟩)
  | (.call _ _, _) => none

theorem performs_perform {text : ManifestText} {h h' : History} {script : List (Bool ⊕ Empty)}
    {op : Operation} {r : Except Error Unit} (hperform : h.perform text script op = some (r, h')) :
    Performs text h op r h' := by
  have hreach := follow_sqlite script (op.task text).run h.session
  unfold History.perform at hperform
  split at hperform
  · next s heq =>
    obtain ⟨rfl, rfl⟩ := Prod.mk.inj (Option.some.inj hperform)
    rw [heq] at hreach
    exact .ok hreach
  · next e s heq =>
    obtain ⟨rfl, rfl⟩ := Prod.mk.inj (Option.some.inj hperform)
    rw [heq] at hreach
    exact .error hreach
  · cases hperform

/-- Operations one after the other, each with its script. -/
def History.after (text : ManifestText) : List (List (Bool ⊕ Empty) × Operation) → History →
    Option History
  | [], h => some h
  | (script, op) :: rest, h => (h.perform text script op).bind fun x => after text rest x.2

theorem recorded_after {text : ManifestText} {steps : List (List (Bool ⊕ Empty) × Operation)}
    {h h' : History} (hrec : Recorded text h) (hafter : History.after text steps h = some h') :
    Recorded text h' := by
  induction steps generalizing h with
  | nil => exact Option.some.inj hafter ▸ hrec
  | cons step rest ih =>
    obtain ⟨x, hperform, hrest⟩ := Option.bind_eq_some_iff.mp hafter
    exact ih (hrec.tail ⟨step.2, x.1, performs_perform hperform⟩) hrest

namespace RegistrySample

def text : ManifestText := ⟨fun m => m.spec.imageName, fun m => m.metadata.name⟩

def app : ClusterManifest := ⟨"pgpod/v1", "Cluster", ⟨"mydb"⟩, { imageName := "pg:18" }⟩

def mydb : ClusterId := ⟨"mydb", mydb_valid⟩

def instance1 : InstanceRecord where
  cluster := "mydb"
  ordinal := 1
  containerName := "pgpod-mydb-1"
  containerId := none
  volumeName := "pgpod-mydb-1-pgdata"
  hostPort := 5433
  phase := .running

def front : PoolerManifest where
  apiVersion := "pgpod/v1"
  kind := "Pooler"
  metadata := ⟨"front"⟩
  spec := { clusters := [] }

def orders : PoolerPool := ⟨"mydb", "app", "orders"⟩

def shop : PoolerPool := ⟨"mydb", "app", "shop"⟩

/-- A pool of a cluster that is not there. -/
def stray : PoolerPool := ⟨"gone", "app", "stray"⟩

def putFront (pools : List PoolerPool) : Operation :=
  .putPooler front "pgpod-pooler-front" none 6432 "running" pools

/-- As many statements as an operation needs, none failing on its own. -/
def smooth : List (Bool ⊕ Empty) := List.replicate 12 (.inl false)

/-- A cluster, its instance, and a pooler whose pools are replaced; between the two a write that
fails on its own inside the transaction. -/
def steps : List (List (Bool ⊕ Empty) × Operation) :=
  [(smooth, .putCluster app "ready"), (smooth, .putInstance instance1),
    (smooth, putFront [orders, shop]),
    ([.inl false, .inl false, .inl false, .inl true, .inl false], putFront [shop]),
    (smooth, putFront [orders])]

def used : History := (History.after text steps {}).getD {}

theorem used_after : History.after text steps {} = some used := rfl

/-- A pooler of a cluster that is not there is refused by the last of its writes, and the fronted
cluster is not deleted. -/
theorem registry_integrity_used :
    Sound used ∧ used.session.db.instances = [InstanceRow.encode instance1] ∧
      used.session.db.pools = [("front", orders)] ∧
      (∃ e h, Performs text used (putFront [orders, stray]) (.error e) h ∧
        h.session.db = used.session.db) ∧
      ∃ e h, Performs text used (.deleteCluster mydb) (.error e) h ∧
        h.session.db.hasCluster "mydb" = true := by
  have hrecorded : Recorded text used := recorded_after .refl used_after
  obtain ⟨hsound, hperforms⟩ := registry_integrity text used hrecorded
  refine ⟨hsound, by decide +kernel, by decide +kernel, ?_, ?_⟩
  · have hperform : Performs text used (putFront [orders, stray]) (.error _) _ :=
      @performs_perform text used _ smooth _ _ rfl
    exact ⟨_, _, hperform, (hperforms _ _ _ hperform).1 _ rfl⟩
  · have hperform : Performs text used (.deleteCluster mydb) (.error _) _ :=
      @performs_perform text used _ smooth _ _ rfl
    exact ⟨_, _, hperform, (hperforms _ _ _ hperform).2 "mydb" (by decide +kernel)
      ⟨("front", orders), by decide +kernel, rfl⟩⟩

end RegistrySample

end Sql

end Pgpod
