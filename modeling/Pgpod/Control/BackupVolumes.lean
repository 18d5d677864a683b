import Mathlib.Data.Set.Disjoint
import Pgpod.Control.Adoption
import Pgpod.Control.Delete
import Pgpod.Control.Reached
import Pgpod.Control.Rows
import Pgpod.Effect.Attempts
import Mathlib.Data.Set.Lattice
import Mathlib.Order.CompletePartialOrder

/-!
# What a purge destroys, and where the backups are

A purge removes the volumes that the rows of its cluster name.  A manifest may
name any volume for its backups, and no check compares the two: a purge spares
the backups as long as no manifest names the data volume of an instance.
-/

namespace Pgpod

open Effect

namespace Control

/-! ## What is destroyed -/

/-- The volumes that a purge of the cluster may remove. -/
def purged (A : Agent.Code) (w : World) (k : ClusterId) : Set String :=
  fun v => ∃ next u, (hostMachine A).Reach (delete k true).run w
    (.call (.podman (.removeVolume v)) next) u

/-- The volumes that the manifests on record name for their backups. -/
def backupVolumes (R : Registry) : Set String :=
  fun v => ∃ r ∈ R.clusters, r.manifest.spec.backup.volume = some v

/-- A volume that the operation removes is one of these. -/
def RemovesIn (V : Set String) : ∀ ⦃β : Type⦄, CtlOp β → Prop
  | _, .podman (.removeVolume v) => v ∈ V
  | _, _ => True

section Purge

variable {V : Set String}

theorem removeContainers_removes (rows : List InstanceRecord) :
    (removeContainers rows).run.Calls (RemovesIn V) := by
  induction rows with
  | nil => exact Task.calls_pure _
  | cons row rest ih =>
    refine Task.calls_bind (Task.calls_ask trivial) fun probe => ?_
    cases probe with
    | none => exact ih
    | some p =>
      refine Task.calls_bind (ignore_calls (Task.calls_ask trivial)) fun _ => ?_
      refine Task.calls_bind (Task.calls_ask trivial) fun _ => ?_
      exact Task.calls_bind ih fun _ => Task.calls_pure _

theorem removeVolumes_removes {rows : List InstanceRecord} (h : ∀ r ∈ rows, r.volumeName ∈ V) :
    (removeVolumes rows).run.Calls (RemovesIn V) := by
  induction rows with
  | nil => exact Task.calls_pure _
  | cons row rest ih =>
    refine Task.calls_bind (Task.calls_ask (h row List.mem_cons_self)) fun _ => ?_
    exact ih fun r hr => h r (List.mem_cons_of_mem _ hr)

theorem removeSecrets_removes (names : List String) :
    (removeSecrets names).run.Calls (RemovesIn V) := by
  induction names with
  | nil => exact Task.calls_pure _
  | cons name rest ih =>
    exact Task.calls_bind (ignore_calls (Task.calls_ask trivial)) fun _ => ih

theorem purgeCluster_removes (k : ClusterId) : (purgeCluster k).run.Calls (RemovesIn V) := by
  refine Task.calls_bind (removeSecrets_removes _) fun _ => ?_
  exact Task.calls_bind (removeSecrets_removes _) fun _ => Task.calls_ask trivial

/-- What the rows of a cluster name. -/
def volumesOf (R : Registry) (k : ClusterId) : Set String :=
  fun v => ∃ i ∈ R.instancesOf k.name, i.volumeName = v

/-- A purge removes the volumes that the rows of its cluster name, and no other. -/
theorem delete_removes (k : ClusterId) (R : Registry) :
    (Registry.machine Registry.anyPort).Triple (fun _ op _ => RemovesIn (volumesOf R k) op)
      (fun R' => R' = R) (delete k true).run fun _ _ => True := by
  have hcalls : ∀ {α : Type} {t : CtlTask α}, t.run.Calls (RemovesIn (volumesOf R k)) →
      (Registry.machine Registry.anyPort).Triple (fun _ op _ => RemovesIn (volumesOf R k) op)
        (fun R' => R' = R) t.run fun _ _ => True :=
    fun ht R' _ => Machine.Triple.of_calls (I := fun _ => True) (Registry.stable _)
      (fun _ _ _ h _ => h) (fun _ _ _ _ _ _ _ _ => trivial) ht R' trivial
  refine .task_bind (requireCluster_leaves k R trivial) (fun record => ?_)
    (fun _ => Registry.stable _) fun _ _ _ => trivial
  refine .task_bind (instances_are k R trivial) (fun rows => ?_) (fun _ => Registry.stable _)
    fun _ _ _ => trivial
  rintro R' ⟨hR', hrows⟩
  obtain rfl := hrows rows rfl
  refine hcalls ?_ R' hR'
  refine Task.calls_bind (Task.calls_ask trivial) fun poolers => ?_
  simp only [Bool.true_and, if_true]
  split
  · exact Task.calls_throw _
  refine Task.calls_bind (removeContainers_removes _) fun removed => ?_
  refine Task.calls_bind (removeVolumes_removes fun r hr => ⟨r, hr, rfl⟩) fun _ => ?_
  refine Task.calls_bind (ignore_calls (Task.calls_ask trivial)) fun _ => ?_
  refine Task.calls_bind (purgeCluster_removes k) fun _ => ?_
  exact Task.calls_bind (Task.calls_ask trivial) fun _ => Task.calls_pure _

/-- Whatever a purge removes is named by a row of its cluster. -/
theorem purged_subset {A : Agent.Code} {w : World} {k : ClusterId} :
    purged A w k ⊆ volumesOf w.registry k := by
  rintro v ⟨next, u, hreach⟩
  exact (delete_removes k w.registry w.registry rfl).at_call (hostMachine_reach_registry hreach)

end Purge

/-! ## What an apply records -/

/-- The manifests and the volumes of `R'` are among those of `R`. -/
structure Among (R' R : Registry) : Prop where
  clusters : ∀ r' ∈ R'.clusters, ∃ r ∈ R.clusters, r.name = r'.name ∧ r.manifest = r'.manifest
  instances : ∀ i' ∈ R'.instances, ∃ i ∈ R.instances, i.volumeName = i'.volumeName

/-- A phase says nothing of manifests and volumes. -/
theorem steady_of_among {I : Registry → Prop} (h : ∀ R R', Among R' R → I R → I R') :
    Registry.Steady I where
  event R events := h R _ ⟨fun r hr => ⟨r, hr, rfl, rfl⟩, fun i hi => ⟨i, hi, rfl⟩⟩
  phase R name phase := by
    refine h R _ ⟨fun r' hr' => ?_, fun i hi => ⟨i, hi, rfl⟩⟩
    obtain ⟨r, hr, rfl⟩ := List.mem_map.mp hr'
    refine ⟨r, hr, ?_⟩
    split
    · exact ⟨rfl, rfl⟩
    · exact ⟨rfl, rfl⟩
  running R row hrow := by
    refine h R _ ⟨fun r hr => ⟨r, hr, rfl, rfl⟩, fun i' hi' => ?_⟩
    rcases List.mem_append.mp hi' with hold | hnew
    · exact ⟨i', List.mem_of_mem_filter hold, rfl⟩
    · rw [List.mem_singleton.mp hnew]
      exact ⟨row, hrow, rfl⟩

/-- No manifest on record names the volume of a recorded instance for its backups, or `own`. -/
def Apart (own : Option String) (R : Registry) : Prop :=
  ∀ r ∈ R.clusters, ∀ v, r.manifest.spec.backup.volume = some v →
    own ≠ some v ∧ ∀ i ∈ R.instances, i.volumeName ≠ v

/-- Nothing that is recorded names the data volume of the manifest's instance, and the manifest
names neither that nor the volume of a recorded instance. -/
structure KeepsApart (R : Registry) (m : AcceptedManifest) : Prop where
  own : m.manifest.spec.backup.volume ≠ some (m.cluster.inst 1).volumeName
  instances : ∀ i ∈ R.instances, m.manifest.spec.backup.volume ≠ some i.volumeName
  others : ∀ r ∈ R.clusters, r.name ≠ m.cluster.name →
    r.manifest.spec.backup.volume ≠ some (m.cluster.inst 1).volumeName

theorem Apart.among {own : Option String} {R R' : Registry} (hamong : Among R' R)
    (h : Apart own R) : Apart own R' := by
  intro r' hr' v hv
  obtain ⟨r, hr, -, hmanifest⟩ := hamong.clusters r' hr'
  obtain ⟨hown, hinst⟩ := h r hr v (by rw [hmanifest]; exact hv)
  refine ⟨hown, fun i' hi' => ?_⟩
  obtain ⟨i, hi, hvolume⟩ := hamong.instances i' hi'
  exact hvolume ▸ hinst i hi

theorem KeepsApart.among {m : AcceptedManifest} {R R' : Registry} (hamong : Among R' R)
    (h : KeepsApart R m) : KeepsApart R' m where
  own := h.own
  instances i' hi' := by
    obtain ⟨i, hi, hvolume⟩ := hamong.instances i' hi'
    exact hvolume ▸ h.instances i hi
  others r' hr' hne := by
    obtain ⟨r, hr, hname, hmanifest⟩ := hamong.clusters r' hr'
    rw [← hmanifest]
    exact h.others r hr (hname ▸ hne)

end Control

/-- Of the rows of clusters, that of the manifest is written. -/
theorem Registry.putCluster_rows (R : Registry) (m : ClusterManifest) (phase : ClusterPhase) :
    (R.putCluster m phase).2.instances = R.instances ∧
      ∀ r ∈ (R.putCluster m phase).2.clusters,
        r.manifest = m ∨ r ∈ R.clusters ∧ r.name ≠ m.metadata.name := by
  unfold putCluster
  cases hold : R.cluster m.metadata.name with
  | none =>
    refine ⟨rfl, fun r hr => ?_⟩
    rcases List.mem_append.mp hr with hr | hnew
    · refine .inr ⟨hr, fun hname => ?_⟩
      exact List.find?_eq_none.mp hold r hr (by simpa using hname)
    · rw [List.mem_singleton.mp hnew]
      exact .inl rfl
  | some old =>
    refine ⟨rfl, fun r hr => ?_⟩
    obtain ⟨r', hr', rfl⟩ := List.mem_map.mp hr
    by_cases hname : r'.name = m.metadata.name
    · rw [if_pos hname]
      exact .inl rfl
    · rw [if_neg hname]
      exact .inr ⟨hr', hname⟩

namespace Control

/-- The manifest is recorded. -/
theorem Apart.putCluster {R : Registry} {m : AcceptedManifest} (h : Apart none R)
    (hm : KeepsApart R m) (phase : ClusterPhase) :
    Apart (some (m.cluster.inst 1).volumeName) (R.putCluster m.manifest phase).2 := by
  have hname : m.cluster.name = m.manifest.metadata.name :=
    ClusterManifest.clusterId_eq_ok.mp m.clusterId_eq
  obtain ⟨hinst, hrows⟩ := R.putCluster_rows m.manifest phase
  intro r hr v hv
  rw [hinst]
  rcases hrows r hr with hmanifest | ⟨hr, hne⟩
  · rw [hmanifest] at hv
    exact ⟨fun heq => hm.own (hv.trans heq.symm), fun i hi heq => hm.instances i hi (heq ▸ hv)⟩
  · rw [← hname] at hne
    exact ⟨fun heq => hm.others r hr hne (hv.trans heq.symm), (h r hr v hv).2⟩

/-- The volume of the manifest's instance is recorded. -/
theorem Apart.putInstance {R : Registry} {rec : InstanceRecord} (h : Apart (some rec.volumeName) R) :
    Apart (some rec.volumeName) (R.putInstance rec) := by
  intro r hr v hv
  obtain ⟨hown, hinst⟩ := h r hr v hv
  refine ⟨hown, fun i hi => ?_⟩
  rcases List.mem_append.mp hi with hold | hnew
  · exact hinst i (List.mem_of_mem_filter hold)
  · rw [List.mem_singleton.mp hnew]
    exact fun heq => hown (congrArg some heq)

/-! ## Applies -/

structure ApplyRequest where
  manifest : AcceptedManifest
  options : ApplyOptions

/-- Applies of accepted manifests on one host, one after the other, each to its end or cut off. -/
def applies (A : Agent.Code) (host : Host) :
    Campaign CtlOp World World ApplyRequest (Except Error ApplyReport) where
  machine := hostMachine A
  enter _ w := w
  program request := (applyWith host request.manifest.manifest request.options).run
  leave := id

section Applies

variable {A : Agent.Code} {host : Host} {w₀ w : World}

/-- The manifest of an apply keeps apart what the registry has when the apply begins. -/
def MeetsApart (request : ApplyRequest) (w : World) (_ : Prog CtlOp (Except Error ApplyReport))
    (_ : World) : Prop :=
  KeepsApart w.registry request.manifest

/-- Throughout an apply that keeps them apart, the recorded backups and data are apart. -/
theorem apply_apart (host : Host) (m : AcceptedManifest) (options : ApplyOptions) :
    (Registry.machine Registry.anyPort).Triple (fun _ _ => Apart none)
      (fun R => Apart none R ∧ KeepsApart R m) (applyWith host m.manifest options).run
      fun _ => Apart none := by
  have hdrop : ∀ own R, Apart own R → Apart none R :=
    fun _ R h r hr v hv => ⟨nofun, (h r hr v hv).2⟩
  have hown : Registry.Steady (Apart (some (m.cluster.inst 1).volumeName)) :=
    steady_of_among fun _ _ => Apart.among
  refine triple_applyWithBootstrap hown (steady_of_among fun _ _ hamong h =>
    ⟨h.1.among hamong, h.2.among hamong⟩) (fun _ h => h.1) (hdrop _)
    (fun k phase R hk h => h.1.putCluster h.2 phase) ?_ _ _
  intro k ctx hk ordinal hordinal
  obtain rfl : m.cluster = k := Except.ok.inj (m.clusterId_eq.symm.trans hk)
  obtain rfl : ordinal = 1 := by
    rw [m.instances_eq] at hordinal
    simpa [ordinals] using hordinal
  exact throughout_applyInstance (P := fun _ _ => True)
    (fun _ => steady_of_among fun _ _ hamong h => ⟨h.1.among hamong, trivial⟩)
    (fun _ _ _ _ => trivial) (fun _ _ _ _ _ => trivial)
    fun R _ _ _ hR _ => ⟨Apart.putInstance hR, trivial⟩

/-- **A purge spares the backups**, as long as every manifest applied keeps them apart. -/
theorem purge_spares_backups (hfresh : w₀.Fresh)
    (h : (applies A host).History MeetsApart w₀ w) (k : ClusterId) :
    Disjoint (purged A w k) (backupVolumes w.registry) := by
  let Inv (u : World) : Prop := Apart none u.registry
  have hapart : Inv w := by
    have hinit : Inv w₀ := by
      intro r hr
      rw [hfresh.clusters] at hr
      exact absurd hr List.not_mem_nil
    refine h.invariant hinit ?_
    intro request v q u hv hstands hmeets
    have hsafe :=
      apply_apart host request.manifest request.options v.registry ⟨hv, hmeets⟩
    have hreach := hostMachine_reach_registry hstands
    cases q with
    | ret r => exact hsafe.at_ret hreach
    | call op next => exact hsafe.at_call hreach
  rw [Set.disjoint_left]
  rintro v hpurged ⟨r, hr, hv⟩
  obtain ⟨i, hi, hvolume⟩ := purged_subset hpurged
  exact (hapart r hr v hv).2 i (List.mem_of_mem_filter hi) hvolume

end Applies

namespace PurgeSample

/-- The minimal manifest, archiving to a volume. -/
def backedUp (volume : String) : ClusterManifest :=
  { minimalManifest 999 with
    spec := { (minimalManifest 999).spec with
      backup := { destinations := [{ url := "file:///archive/wal" }], volume := some volume } } }

/-- Its backups go to the data volume of its own instance. -/
def ontoItself : ApplyRequest where
  manifest := ⟨backedUp "pgpod-mydb-1-pgdata", by decide +kernel⟩
  options := ⟨⟨0⟩, false⟩

def ontoArchive : ApplyRequest where
  manifest := ⟨backedUp "mydb-archive", by decide +kernel⟩
  options := ⟨⟨0⟩, false⟩

def host : Host := { minimalHost with bundleInstalled := true }

def agentCode : Agent.Code := Agent.Sample.code {}

def world : World where
  images _ := some ⟨"sha256:5a1e", Agent.Sample.image18⟩

theorem world_fresh : world.Fresh := ⟨rfl, rfl, rfl⟩

/-- Every call succeeds. -/
def script (n : Nat) : List (CtlChoice ⊕ Drift) :=
  List.replicate n (.inl { number := 40001, text := "10.89.0.0/24" })

/-- The host after an apply. -/
def after (request : ApplyRequest) : World :=
  ((hostExec agentCode).follow (script 29) ((applies agentCode host).program request) world).2

theorem history {meets : ApplyRequest → World → Prog CtlOp (Except Error ApplyReport) → World → Prop}
    (request : ApplyRequest) (hmeets : ∀ q u, meets request world q u) :
    (applies agentCode host).History meets world (after request) :=
  .attempt .refl ((hostExec agentCode).follow_reach (script 29) _ _) (hmeets _ _)

/-- The purge is about to remove the volume. -/
def removes (v : String) : ∀ ⦃β : Type⦄, CtlOp β → World → Bool
  | _, .podman (.removeVolume v'), _ => v' = v
  | _, _, _ => false

/-- **The backups are destroyed with the data**: the manifest is accepted and applied, and a purge
of its cluster removes the volume it names for its backups. -/
theorem purge_destroys_backups :
    world.Fresh ∧
    (applies agentCode host).History (fun _ _ _ _ => True) world (after ontoItself) ∧
    ¬ Disjoint (purged agentCode (after ontoItself) mydb)
      (backupVolumes (after ontoItself).registry) := by
  refine ⟨world_fresh, history _ fun _ _ => trivial, ?_⟩
  rw [Set.not_disjoint_iff]
  refine ⟨"pgpod-mydb-1-pgdata", ?_, ?_⟩
  · obtain ⟨β, op, next, t, hreach, htest⟩ := (hostExec agentCode).follow_call
      (removes "pgpod-mydb-1-pgdata") (script 6) (delete mydb true).run (after ontoItself)
      (by decide +kernel)
    cases op with
    | registry op => exact absurd htest (by simp [removes])
    | host op => exact absurd htest (by simp [removes])
    | podman op =>
      cases op with
      | removeVolume v =>
        obtain rfl : v = "pgpod-mydb-1-pgdata" := of_decide_eq_true htest
        exact ⟨next, t, hreach⟩
      | _ => exact absurd htest (by simp [removes])
  · have hrow : ∃ r ∈ (after ontoItself).registry.clusters,
        r.manifest.spec.backup.volume = some "pgpod-mydb-1-pgdata" := by decide +kernel
    exact hrow

theorem purge_spares_backups_archive :
    Disjoint (purged agentCode (after ontoArchive) mydb)
      (backupVolumes (after ontoArchive).registry) :=
  purge_spares_backups world_fresh
    (history ontoArchive fun _ _ =>
      { own := by decide +kernel
        instances := fun _ hi => absurd hi List.not_mem_nil
        others := fun _ hr => absurd hr List.not_mem_nil }) mydb

end PurgeSample

end Control

end Pgpod
