import Mathlib.Data.Set.Basic
import Pgpod.Control.Delete
import Pgpod.Control.PoolerAdoption
import Pgpod.Control.Rows

/-!
# Host ports

A cluster's instance or a pooler without a recorded port asks the kernel for a
free one, and the kernel hands out one that nothing listens on.  The registry is
not asked: what is recorded for a container that is down is free to the kernel.
-/

namespace Pgpod

open Effect

/-- Whom a host port is recorded for. -/
inductive PortHolder
  | inst (cluster : String) (ordinal : UInt32)
  | pooler (name : String)
deriving DecidableEq

namespace Registry

/-- The host ports on record. -/
def ports (R : Registry) : List (PortHolder × UInt16) :=
  (R.instances.map fun r => (.inst r.cluster r.ordinal, r.hostPort)) ++
    R.poolers.map fun r => (.pooler r.name, r.hostPort)

/-- No one has this port on record. -/
def Unrecorded (R : Registry) (port : UInt16) : Prop := ∀ e ∈ R.ports, e.2 ≠ port

/-- A recorded manifest asks for this port. -/
def Explicit (R : Registry) (e : PortHolder × UInt16) : Prop :=
  ∃ r ∈ R.poolers, e = (.pooler r.name, r.hostPort) ∧ r.manifest.spec.port = some r.hostPort

/-- The ports on record that pgpod was not given, but allocated itself, are different ones. -/
def OwnDistinct (R : Registry) (given : Set (PortHolder × UInt16)) : Prop :=
  ∀ e ∈ R.ports, ∀ f ∈ R.ports, e ∉ given → f ∉ given → e.2 = f.2 → e.1 = f.1

/-- Which entries are given ones once `R` has become `R'`: an entry that was there stays what it
was, and a new one is given when its manifest asks for the port. -/
def givenAfter (given : Set (PortHolder × UInt16)) (R R' : Registry) :
    Set (PortHolder × UInt16) :=
  fun e => (e ∈ R.ports ∧ e ∈ given) ∨ (e ∉ R.ports ∧ R'.Explicit e)

end Registry

/-! ## The kernel -/

/-- A running container listens on the port. -/
def World.bound (w : World) (port : UInt16) : Bool :=
  w.containers.any fun c => c.status.isRunning && c.spec.portPublishes.any fun p => p.hostPort = port

/-- A free port is one that no running container listens on. -/
def kernelPerform (A : Agent.Code) : ∀ ⦃β : Type⦄, CtlOp β → CtlChoice → World → β × World
  | _, .host .allocatePort, ch, w =>
    if ch.fails || w.bound (UInt16.ofNat ch.number) then (.error (.portAllocation ch.text), w)
    else (.ok (UInt16.ofNat ch.number), w)
  | _, op, ch, w => op.perform A ch w

def kernelExec (A : Agent.Code) : Executable CtlOp World CtlChoice Drift where
  exec op ch w := kernelPerform A op ch w
  move d w := w.drift d

/-- Whenever a port is allocated, every port on record is listened on. -/
def AllBound : ∀ ⦃β : Type⦄, CtlOp β → World → β → World → Prop
  | _, .host .allocatePort, w, _, _ => ∀ e ∈ w.registry.ports, w.bound e.2 = true
  | _, _, _, _, _ => True

namespace Control

/-! ## Histories -/

inductive PortRequest
  | apply (m : ClusterManifest) (options : ApplyOptions)
  | delete (k : ClusterId)
  | applyPooler (m : PoolerManifest) (wait : Duration)
  | deletePooler (p : PoolerId)

def PortRequest.program (host : Host) (codec : PoolerCodec) : PortRequest → Prog CtlOp PUnit
  | apply m options => (applyWith host m options).run.bind fun _ => .ret ()
  | delete k => (Control.delete k false).run.bind fun _ => .ret ()
  | applyPooler m wait => (Control.applyPooler host codec m wait).run.bind fun _ => .ret ()
  | deletePooler p => (Control.deletePooler p).run.bind fun _ => .ret ()

/-- Any number of requests from an empty registry, each to its end or cut off, and the entries
whose ports were given. -/
inductive PortHistory (M : Machine CtlOp World) (host : Host) (codec : PoolerCodec) :
    World → Set (PortHolder × UInt16) → Prop
  | fresh {w : World} : w.registry.ports = [] → PortHistory M host codec w ∅
  | attempt {w u : World} {given : Set (PortHolder × UInt16)} {request : PortRequest}
      {q : Prog CtlOp PUnit} : PortHistory M host codec w given →
      M.Reach (request.program host codec) w q u →
      PortHistory M host codec u (Registry.givenAfter given w.registry u.registry)

end Control

/-! ## Rows and ports -/

namespace Registry

variable {R : Registry}

theorem ports_putInstance {rec : InstanceRecord} {e : PortHolder × UInt16}
    (h : e ∈ (R.putInstance rec).ports) :
    e ∈ R.ports ∨ e = (.inst rec.cluster rec.ordinal, rec.hostPort) := by
  rcases List.mem_append.mp h with h | h
  · obtain ⟨r, hr, rfl⟩ := List.mem_map.mp h
    rcases List.mem_append.mp hr with hr | hr
    · exact .inl (List.mem_append_left _ (List.mem_map.mpr ⟨r, List.mem_of_mem_filter hr, rfl⟩))
    · rw [List.mem_singleton.mp hr]
      exact .inr rfl
  · exact .inl (List.mem_append_right _ h)

theorem ports_of_row {row : InstanceRecord} (h : row ∈ R.instances) :
    (.inst row.cluster row.ordinal, row.hostPort) ∈ R.ports :=
  List.mem_append_left _ (List.mem_map.mpr ⟨row, h, rfl⟩)

/-- A row written once more under its own key has no new port. -/
theorem ports_putInstance_subset {row rec : InstanceRecord}
    (hrow : (.inst row.cluster row.ordinal, row.hostPort) ∈ R.ports)
    (hcluster : rec.cluster = row.cluster) (hordinal : rec.ordinal = row.ordinal)
    (hport : rec.hostPort = row.hostPort) : (R.putInstance rec).ports ⊆ R.ports := by
  intro e he
  rcases ports_putInstance he with he | rfl
  · exact he
  · rw [hcluster, hordinal, hport]
    exact hrow

theorem ports_putCluster (m : ClusterManifest) (phase : ClusterPhase) :
    (R.putCluster m phase).2.ports = R.ports := by
  unfold putCluster
  cases R.cluster m.metadata.name <;> rfl

theorem ports_deletePooler (name : String) : (R.deletePooler name).ports ⊆ R.ports := by
  intro e he
  rcases List.mem_append.mp he with he | he
  · exact List.mem_append_left _ he
  · obtain ⟨r, hr, rfl⟩ := List.mem_map.mp he
    exact List.mem_append_right _ (List.mem_map.mpr ⟨r, List.mem_of_mem_filter hr, rfl⟩)

theorem ports_of_pooler {name : String} {record : PoolerRecord} (h : R.pooler name = some record) :
    (.pooler name, record.hostPort) ∈ R.ports := by
  have hname : record.name = name := by simpa using List.find?_some h
  refine List.mem_append_right _ (List.mem_map.mpr ⟨record, List.mem_of_find?_eq_some h, ?_⟩)
  rw [hname]

section PutPooler

variable {m : PoolerManifest} {containerName : String} {containerId : Option String}
  {port : UInt16} {phase : String} {pools : List PoolerPool}

theorem ports_putPooler {e : PortHolder × UInt16}
    (h : e ∈ (R.putPooler m containerName containerId port phase pools).2.ports) :
    e ∈ R.ports ∨ e = (.pooler m.metadata.name, port) := by
  unfold putPooler at h
  cases hold : R.pooler m.metadata.name with
  | none =>
    rw [hold] at h
    rcases List.mem_append.mp h with h | h
    · exact .inl (List.mem_append_left _ h)
    · obtain ⟨r, hr, rfl⟩ := List.mem_map.mp h
      rcases List.mem_append.mp hr with hr | hr
      · exact .inl (List.mem_append_right _ (List.mem_map.mpr ⟨r, hr, rfl⟩))
      · rw [List.mem_singleton.mp hr]
        exact .inr rfl
  | some old =>
    rw [hold] at h
    rcases List.mem_append.mp h with h | h
    · exact .inl (List.mem_append_left _ h)
    · obtain ⟨r, hr, rfl⟩ := List.mem_map.mp h
      obtain ⟨r', hr', rfl⟩ := List.mem_map.mp hr
      by_cases hname : r'.name = m.metadata.name
      · rw [if_pos hname]
        exact .inr rfl
      · rw [if_neg hname]
        exact .inl (List.mem_append_right _ (List.mem_map.mpr ⟨r', hr', rfl⟩))

/-- The row of a pooler whose manifest asks for the port. -/
theorem explicit_putPooler (hm : m.spec.port = some port) :
    (R.putPooler m containerName containerId port phase pools).2.Explicit
      (.pooler m.metadata.name, port) := by
  unfold putPooler
  cases hold : R.pooler m.metadata.name with
  | none => exact ⟨_, List.mem_append_right _ (List.mem_singleton.mpr rfl), rfl, hm⟩
  | some old =>
    have hname : old.name = m.metadata.name := by simpa using List.find?_some hold
    refine ⟨_, List.mem_map.mpr ⟨old, List.mem_of_find?_eq_some hold, rfl⟩, ?_⟩
    rw [if_pos hname]
    exact ⟨rfl, hm⟩

end PutPooler

end Registry

namespace Control

/-! ## What one request adds -/

section Request

variable {free : Registry → UInt16 → Prop} {given : Set (PortHolder × UInt16)} {R₀ : Registry}

/-- What is kept when ports disappear from the record is kept by events, phases, and instances that
have come up. -/
theorem steady_of_ports {I : Registry → Prop} (h : ∀ R R', R'.ports ⊆ R.ports → I R → I R') :
    Registry.Steady I where
  event R _ := h R _ fun _ he => he
  phase R _ _ := h R _ fun _ he => he
  running R _ hrow :=
    h R _ (Registry.ports_putInstance_subset (Registry.ports_of_row hrow) rfl rfl rfl)

/-- Nothing is recorded that was not there, but the entries that `new` admits. -/
def Adds (new : PortHolder × UInt16 → Registry → Prop) (R₀ R : Registry) : Prop :=
  ∀ e ∈ R.ports, e ∈ R₀.ports ∨ new e R

/-- The ports of instances stay what they are. -/
theorem adds_instances (hgiven : ∀ e ∈ given, ∃ name, e.1 = .pooler name) {R : Registry}
    (h : R.OwnDistinct given)
    (hadds : Adds (fun e _ => ∃ cluster ordinal, e.1 = .inst cluster ordinal) R₀ R) :
    R.OwnDistinct (Registry.givenAfter given R₀ R) := by
  have hown : ∀ e ∈ R.ports, e ∉ Registry.givenAfter given R₀ R → e ∉ given := by
    intro e he hafter hin
    rcases hadds e he with hold | ⟨cluster, ordinal, hinst⟩
    · exact hafter (.inl ⟨hold, hin⟩)
    · obtain ⟨name, hpooler⟩ := hgiven e hin
      rw [hinst] at hpooler
      cases hpooler
  intro e he f hf hne hnf
  exact h e he f hf (hown e he hne) (hown f hf hnf)

/-- One entry is new: its port was asked for, or no one had it on record. -/
theorem adds_one {new : PortHolder × UInt16} (hdistinct : R₀.OwnDistinct given) {R : Registry}
    (hadds : Adds (fun e R => e = new ∧ (R.Explicit new ∨ R₀.Unrecorded new.2)) R₀ R) :
    R.OwnDistinct (Registry.givenAfter given R₀ R) := by
  have hold : ∀ e ∈ R₀.ports, e ∉ Registry.givenAfter given R₀ R → e ∉ given :=
    fun e he hafter hin => hafter (.inl ⟨he, hin⟩)
  have hnew : ∀ e ∈ R.ports, e ∉ Registry.givenAfter given R₀ R → e ∉ R₀.ports →
      e = new ∧ R₀.Unrecorded new.2 := by
    intro e he hafter hne
    rcases hadds e he with hin | ⟨rfl, hexplicit | hfree⟩
    · exact absurd hin hne
    · exact absurd (.inr ⟨hne, hexplicit⟩) hafter
    · exact ⟨rfl, hfree⟩
  intro e he f hf hge hgf heq
  by_cases hine : e ∈ R₀.ports
  · by_cases hinf : f ∈ R₀.ports
    · exact hdistinct e hine f hinf (hold e hine hge) (hold f hinf hgf) heq
    · obtain ⟨rfl, hfree⟩ := hnew f hf hgf hinf
      exact absurd heq (hfree e hine)
  · obtain ⟨rfl, hfree⟩ := hnew e he hge hine
    by_cases hinf : f ∈ R₀.ports
    · exact absurd heq.symm (hfree f hinf)
    · rw [(hnew f hf hgf hinf).1]

/-- Nothing is new. -/
theorem adds_none (hdistinct : R₀.OwnDistinct given) {R : Registry} (h : R.ports ⊆ R₀.ports) :
    R.OwnDistinct (Registry.givenAfter given R₀ R) := by
  intro e he f hf hge hgf
  exact hdistinct e (h he) f (h hf) (fun hin => hge (.inl ⟨h he, hin⟩))
    fun hin => hgf (.inl ⟨h hf, hin⟩)

/-! ### Clusters -/

/-- No one but the instance has the port for itself. -/
def HasAlone (given : Set (PortHolder × UInt16)) (holder : PortHolder) (port : UInt16)
    (R : Registry) : Prop :=
  ∀ e ∈ R.ports, e ∉ given → e.2 = port → e.1 = holder

/-- Throughout an apply, what is new is recorded for an instance, under a port of its own. -/
theorem apply_ports (hgiven : ∀ e ∈ given, ∃ name, e.1 = .pooler name) (host : Host)
    (m : ClusterManifest) (options : ApplyOptions) :
    Throughout Registry.Unrecorded (fun R => R.OwnDistinct given ∧
      Adds (fun e _ => ∃ cluster ordinal, e.1 = .inst cluster ordinal) R₀ R)
      (applyWith host m options) := by
  have hsteady : ∀ {P : Registry → Prop}, (∀ R R', R'.ports ⊆ R.ports → P R → P R') →
      Registry.Steady fun R => (R.OwnDistinct given ∧
        Adds (fun e _ => ∃ cluster ordinal, e.1 = .inst cluster ordinal) R₀ R) ∧ P R :=
    fun hP => steady_of_ports fun R R' hsub h =>
      ⟨⟨fun e he f hf => h.1.1 e (hsub he) f (hsub hf), fun e he => h.1.2 e (hsub he)⟩,
        hP R R' hsub h.2⟩
  have hplain : Registry.Steady fun R => R.OwnDistinct given ∧
      Adds (fun e _ => ∃ cluster ordinal, e.1 = .inst cluster ordinal) R₀ R :=
    steady_of_ports fun R R' hsub h =>
      ⟨fun e he f hf => h.1 e (hsub he) f (hsub hf), fun e he => h.2 e (hsub he)⟩
  refine triple_applyWithBootstrap hplain hplain (fun _ h => h) (fun _ h => h) ?_ ?_ _ _
  · intro k phase R hk h
    have hports := R.ports_putCluster m phase
    unfold Registry.OwnDistinct Adds
    rw [hports]
    exact h
  intro k ctx hk ordinal hordinal
  refine throughout_applyInstance
    (P := HasAlone given (.inst (k.inst ordinal).cluster.name (k.inst ordinal).ordinal))
    (fun port => hsteady fun R R' hsub h e he => h e (hsub he)) ?_ ?_ ?_
  · intro R row hrow hR e he hown heq
    obtain ⟨hmem, hcluster⟩ := List.mem_filter.mp (List.mem_of_find?_eq_some hrow)
    have hordinal : row.ordinal = (k.inst ordinal).ordinal := by simpa using List.find?_some hrow
    have hcluster : row.cluster = (k.inst ordinal).cluster.name := by simpa using hcluster
    have hnot : (.inst row.cluster row.ordinal, row.hostPort) ∉ given := by
      intro hin
      obtain ⟨name, hname⟩ := hgiven _ hin
      cases hname
    rw [hR.1 e he _ (Registry.ports_of_row hmem) hown hnot heq, hcluster, hordinal]
  · intro R port hnone hfree hR e he _ heq
    exact absurd heq (hfree e he)
  · intro R port id phase hR halone
    have hold : ∀ e ∈ R.ports, e ∉ given → e.2 = port →
        e.1 = .inst (k.inst ordinal).cluster.name (k.inst ordinal).ordinal := halone
    refine ⟨⟨fun e he f hf hge hgf heq => ?_, fun e he => ?_⟩, fun e he hge heq => ?_⟩
    · rcases Registry.ports_putInstance he with he | rfl
      · rcases Registry.ports_putInstance hf with hf | rfl
        · exact hR.1 e he f hf hge hgf heq
        · exact hold e he hge heq
      · rcases Registry.ports_putInstance hf with hf | rfl
        · exact (hold f hf hgf heq.symm).symm
        · rfl
    · rcases Registry.ports_putInstance he with he | rfl
      · exact hR.2 e he
      · exact .inr ⟨_, _, rfl⟩
    · rcases Registry.ports_putInstance he with he | rfl
      · exact hold e he hge heq
      · rfl

/-! ### Deletes -/

theorem removeContainers_quiet (rows : List InstanceRecord) :
    (removeContainers rows).run.Calls Quiet := by
  induction rows with
  | nil => exact Task.calls_pure _
  | cons row rest ih =>
    refine Task.calls_bind (Task.calls_ask trivial) fun probe => ?_
    cases probe with
    | none => exact ih
    | some p =>
      refine Task.calls_bind (ignore_calls (Task.calls_ask trivial)) fun _ => ?_
      refine Task.calls_bind (Task.calls_ask trivial) fun _ => ?_
      exact Task.calls_bind ih fun _ => Task.calls_pure _

/-- No port is on record that was not. -/
def NoNew (R₀ R : Registry) : Prop := R.ports ⊆ R₀.ports

theorem stopRows_ports {rows : List InstanceRecord}
    (h : ∀ r ∈ rows, (.inst r.cluster r.ordinal, r.hostPort) ∈ R₀.ports) :
    Throughout free (NoNew R₀) (stopRows rows) := by
  induction rows with
  | nil => exact throughout_pure _
  | cons row rest ih =>
    refine throughout_bind (throughout_ask ?_) fun _ => ih fun r hr => h r (List.mem_cons_of_mem _ hr)
    rintro R r R' hR ⟨ch, hstep⟩
    simp only [RegistryOp.perform] at hstep
    split at hstep
    · exact (Prod.mk.inj hstep).2 ▸ hR
    · rw [← (Prod.mk.inj hstep).2]
      intro e he
      rcases Registry.ports_putInstance he with he | rfl
      · exact hR he
      · exact h row List.mem_cons_self

/-- A delete that keeps the volumes keeps the rows, and their ports. -/
theorem delete_ports (k : ClusterId) :
    (Registry.machine free).Triple (fun _ _ => NoNew R₀) (fun R => R = R₀) (delete k false).run
      fun _ => NoNew R₀ := by
  have hevents : ∀ (R : Registry) (events : List Event), NoNew R₀ R → NoNew R₀ { R with events } :=
    fun _ _ h => h
  have hsteady : Registry.Steady (NoNew R₀) := steady_of_ports fun _ _ hsub h => List.Subset.trans hsub h
  have hself : ∀ R, R = R₀ → NoNew R₀ R := fun R hR => hR ▸ List.Subset.refl _
  refine .task_bind (requireCluster_leaves k R₀ (List.Subset.refl _)) (fun record => ?_)
    (fun _ => Registry.stable _) fun _ => hself
  refine .task_bind (instances_are k R₀ (List.Subset.refl _)) (fun rows => ?_)
    (fun _ => Registry.stable _) fun _ R h => hself R h.1
  intro R hR
  have hrows : ∀ r ∈ rows, (.inst r.cluster r.ordinal, r.hostPort) ∈ R₀.ports := by
    rw [hR.2 rows rfl]
    exact fun r hr => Registry.ports_of_row (List.mem_of_mem_filter hr)
  have hafter : Throughout free (NoNew R₀) (stopCluster k rows) :=
    throughout_bind (stopRows_ports hrows) fun _ => throughout_setClusterPhase hsteady _ _
  have hpoolers : (registry (.poolersForCluster k)).run.Calls Quiet := Task.calls_ask trivial
  refine (throughout_bind (throughout_of_events hevents hpoolers) fun poolers => ?_)
    R (hself R hR.1)
  simp only [Bool.false_and, Bool.false_eq_true, if_false]
  refine throughout_bind (throughout_of_events hevents (removeContainers_quiet _)) fun _ => ?_
  refine throughout_bind (throughout_pure _) fun _ => ?_
  refine throughout_bind (throughout_of_events hevents (ignore_calls (Task.calls_ask trivial)))
    fun _ => ?_
  refine throughout_bind hafter fun _ => ?_
  refine throughout_bind (throughout_of_events hevents (Task.calls_ask trivial)) fun _ => ?_
  exact throughout_pure _

theorem deletionEvents_quiet (pooler : PoolerId) (pools : List PoolerPool) :
    (deletePooler.deletionEvents pooler pools).run.Calls Quiet := by
  induction pools with
  | nil => exact Task.calls_pure _
  | cons pool rest ih => exact Task.calls_bind (Task.calls_ask trivial) fun _ => ih

theorem deletePooler_ports (pooler : PoolerId) :
    Throughout free (NoNew R₀) (deletePooler pooler) := by
  have hevents : ∀ (R : Registry) (events : List Event), NoNew R₀ R → NoNew R₀ { R with events } :=
    fun _ _ h => h
  refine throughout_bind (throughout_of_events hevents (Task.calls_ask trivial)) fun found => ?_
  cases found with
  | none => exact throughout_throw _
  | some record =>
    refine throughout_bind (throughout_of_events hevents (Task.calls_ask trivial)) fun probe => ?_
    refine throughout_bind (throughout_of_events hevents (Task.calls_when ?_)) fun _ => ?_
    · refine Task.calls_bind (ignore_calls (Task.calls_ask trivial)) fun _ => ?_
      exact Task.calls_ask trivial
    refine throughout_bind (throughout_of_events hevents (deletionEvents_quiet _ _)) fun _ => ?_
    refine throughout_ask ?_
    rintro R r R' hR ⟨ch, hstep⟩
    simp only [RegistryOp.perform] at hstep
    split at hstep
    · exact (Prod.mk.inj hstep).2 ▸ hR
    · rw [← (Prod.mk.inj hstep).2]
      exact List.Subset.trans (Registry.ports_deletePooler _) hR

/-! ### Poolers -/

theorem convergePooler_quiet (m : PoolerManifest) (spec : ContainerSpec)
    (probe : Option ContainerProbe) : (convergePooler m spec probe).run.Calls Quiet := by
  cases probe with
  | some p =>
    simp only [convergePooler]
    split
    · exact Task.calls_pure _
    · exact Task.calls_bind (Task.calls_ask trivial) fun _ => Task.calls_pure _
  | none =>
    refine Task.calls_bind (Task.calls_ask trivial) fun _ => ?_
    refine Task.calls_bind (Task.calls_ask trivial) fun _ => ?_
    exact Task.calls_bind (Task.calls_ask trivial) fun _ => Task.calls_pure _

theorem pollPooler_quiet (pooler : PoolerId) (timeout : Duration) (rounds : Nat) (last : String) :
    (pollPooler pooler timeout rounds last).run.Calls Quiet := by
  refine (pollPooler_outside pooler timeout rounds last).mono fun _ op hop => ?_
  cases op with
  | registry op => exact hop.elim
  | podman op => trivial
  | host op => trivial

theorem poolerEvents_quiet (pooler : PoolerId) (clusters : List String) :
    (poolerEvents pooler clusters).run.Calls Quiet := by
  induction clusters with
  | nil => exact Task.calls_pure _
  | cons cluster rest ih => exact Task.calls_bind (Task.calls_ask trivial) fun _ => ih

theorem poolerInputs_quiet (pooler : PoolerId) (entries : List PoolerClusterRef) :
    (poolerInputs pooler entries).run.Calls Quiet := by
  induction entries with
  | nil => exact Task.calls_pure _
  | cons entry rest ih =>
    refine Task.calls_bind (Task.calls_ofExcept _) fun cluster => ?_
    refine Task.calls_bind (Task.calls_ask trivial) fun record => ?_
    cases record with
    | none => exact Task.calls_throw _
    | some record => exact Task.calls_bind ih fun _ => Task.calls_pure _

/-- What an apply of a pooler may add to the record. -/
abbrev AddsPooler (R₀ : Registry) (new : PortHolder × UInt16) (R : Registry) : Prop :=
  Adds (fun e R => e = new ∧ (R.Explicit new ∨ R₀.Unrecorded new.2)) R₀ R

/-- The port of a pooler: asked for, on record for it, or one that no one has. -/
def Chosen (R₀ : Registry) (m : PoolerManifest) (port : UInt16) : Prop :=
  m.spec.port = some port ∨ (.pooler m.metadata.name, port) ∈ R₀.ports ∨ R₀.Unrecorded port

/-- Throughout the half that tells the registry, with a port so chosen. -/
theorem applyPoolerSpec_ports {codec : PoolerCodec} {m : PoolerManifest} {wait : Duration}
    {agent : String} {spec : PoolerSpec} {rows : List PoolerPool} {existed : Bool} {port : UInt16}
    (hport : Chosen R₀ m port) :
    Throughout free (AddsPooler R₀ (.pooler m.metadata.name, port))
      (applyPoolerSpec codec m wait agent spec rows existed port) := by
  have hevents : ∀ (R : Registry) (events : List Event),
      AddsPooler R₀ (.pooler m.metadata.name, port) R →
        AddsPooler R₀ (.pooler m.metadata.name, port) { R with events } := fun _ _ h => h
  have hput : ∀ id phase, Throughout free (AddsPooler R₀ (.pooler m.metadata.name, port))
      (registry (.putPooler m spec.pooler.containerName id port phase rows)) := by
    intro id phase
    refine throughout_ask ?_
    rintro R r R' hR ⟨ch, hstep⟩
    simp only [RegistryOp.perform] at hstep
    split at hstep
    · exact (Prod.mk.inj hstep).2 ▸ hR
    · rw [← (Prod.mk.inj hstep).2]
      have hnew : ∀ {R' : Registry},
          (m.spec.port = some port → R'.Explicit (.pooler m.metadata.name, port)) →
          (.pooler m.metadata.name, port) ∈ R₀.ports ∨
            R'.Explicit (.pooler m.metadata.name, port) ∨ R₀.Unrecorded port := by
        intro R' hexplicit
        rcases hport with hm | hold | hfree
        · exact .inr (.inl (hexplicit hm))
        · exact .inl hold
        · exact .inr (.inr hfree)
      intro e he
      by_cases hnewE : e = (.pooler m.metadata.name, port)
      · subst hnewE
        rcases hnew Registry.explicit_putPooler with hold | hrest
        · exact .inl hold
        · exact .inr ⟨rfl, hrest⟩
      · rcases Registry.ports_putPooler he with he | he
        · rcases hR e he with hold | ⟨hsame, -⟩
          · exact .inl hold
          · exact absurd hsame hnewE
        · exact absurd he hnewE
  refine throughout_bind (throughout_of_events hevents
    ((ensureAdminSecret_plain _).mono fun _ _ => Plain.quiet)) fun _ => ?_
  refine throughout_bind (throughout_of_events hevents (Task.calls_ask trivial)) fun probe => ?_
  refine throughout_bind (throughout_of_events hevents (Task.calls_ofExcept _)) fun _ => ?_
  refine throughout_bind (hput _ _) fun generation => ?_
  refine throughout_bind (throughout_of_events hevents (Task.calls_ofExcept _)) fun container => ?_
  refine throughout_bind (throughout_of_events hevents (convergePooler_quiet _ _ _)) fun id => ?_
  refine throughout_bind (hput _ _) fun _ => ?_
  refine throughout_bind (throughout_of_events hevents
    (Task.calls_when (pollPooler_quiet _ _ _ _))) fun _ => ?_
  refine throughout_bind (throughout_of_events hevents (poolerEvents_quiet _ _)) fun _ => ?_
  exact throughout_pure _

theorem choosePoolerPort_ports {guard : ∀ ⦃β : Type⦄, CtlOp β → Registry → Prop}
    {m : PoolerManifest} {existing : Option PoolerRecord}
    (hguard : ∀ R, R.ports = R₀.ports → guard (.host .allocatePort) R)
    (hexisting : ∀ record, existing = some record →
      (.pooler m.metadata.name, record.hostPort) ∈ R₀.ports) :
    (Registry.machine Registry.Unrecorded).Triple guard (fun R => R.ports = R₀.ports)
      (choosePoolerPort existing m.spec.port).run
      fun r R => R.ports = R₀.ports ∧ ∀ port, r = .ok port → Chosen R₀ m port := by
  cases hm : m.spec.port with
  | some port =>
    refine .ret (Registry.stable _) fun R hR => ⟨hR, fun port' hport' => .inl ?_⟩
    rw [hm, Except.ok.inj hport']
  | none =>
    cases existing with
    | some record =>
      refine .ret (Registry.stable _) fun R hR => ⟨hR, fun port hport => .inr (.inl ?_)⟩
      rw [← Except.ok.inj hport]
      exact hexisting record rfl
    | none =>
      refine .perform (Registry.stable _) (fun _ => Registry.stable _) hguard ?_
      rintro R r R' hR ⟨rfl, hfree⟩
      refine ⟨hR, fun port hport => .inr (.inr ?_)⟩
      have hunrecorded : ∀ e ∈ R'.ports, e.2 ≠ port := hfree port hport
      rw [hR] at hunrecorded
      exact hunrecorded

/-- Throughout an apply of a pooler at most one entry is new. -/
theorem applyPooler_ports (host : Host) (codec : PoolerCodec) (m : PoolerManifest)
    (wait : Duration) :
    (Registry.machine Registry.Unrecorded).Triple (fun _ _ R => ∃ new, AddsPooler R₀ new R)
      (fun R => R = R₀) (applyPooler host codec m wait).run fun _ R => ∃ new, AddsPooler R₀ new R := by
  have hsame : ∀ R : Registry, R.ports = R₀.ports → ∃ new, AddsPooler R₀ new R := by
    intro R hR
    exact ⟨(.pooler m.metadata.name, 0), fun e he => .inl (hR ▸ he)⟩
  have hquiet : ∀ {α : Type} {t : CtlTask α}, t.run.Calls Quiet →
      (Registry.machine Registry.Unrecorded).Triple (fun _ _ R => ∃ new, AddsPooler R₀ new R)
        (fun R => R.ports = R₀.ports) t.run fun _ R => R.ports = R₀.ports := by
    intro α t ht R hR
    exact (throughout_of_events (I := fun R => R.ports = R₀.ports) (fun _ _ h => h) ht R hR).mono
      (fun _ _ _ h => hsame _ h) fun _ _ h => h
  refine Machine.Triple.strengthen ?_ fun R (hR : R = R₀) => congrArg Registry.ports hR
  refine .mapError_ofExcept_bind (fun pooler hpooler => ?_) (fun _ => Registry.stable _)
    fun _ R => hsame R
  have hname := PoolerManifest.name_of_poolerId hpooler
  refine .task_bind (hquiet ((agentBinary_plain _).mono fun _ _ => Plain.quiet)) (fun agent => ?_)
    (fun _ => Registry.stable _) fun _ R => hsame R
  refine .task_bind (hquiet (poolerInputs_quiet _ _)) (fun inputs => ?_)
    (fun _ => Registry.stable _) fun _ R => hsame R
  refine .ofExcept_bind (fun pools _ => ?_) (fun _ => Registry.stable _) fun _ R => hsame R
  obtain ⟨targets, rows⟩ := pools
  refine .task_bind (hquiet ((ensurePoolerRoles_plain _).mono fun _ _ => Plain.quiet)) (fun _ => ?_)
    (fun _ => Registry.stable _) fun _ R => hsame R
  have hread : (Registry.machine Registry.Unrecorded).Triple
      (fun _ _ R => ∃ new, AddsPooler R₀ new R) (fun R => R.ports = R₀.ports)
      (registry (.pooler pooler)).run fun r R => R.ports = R₀.ports ∧ ∀ found, r = .ok found →
        ∀ record, found = some record → (.pooler m.metadata.name, record.hostPort) ∈ R₀.ports := by
    refine .perform (Registry.stable _) (fun _ => Registry.stable _) hsame ?_
    rintro R r R' hR ⟨ch, hstep⟩
    obtain ⟨rfl, rfl⟩ := Prod.mk.inj hstep
    refine ⟨hR, fun found hfound record hrecord => ?_⟩
    split at hfound
    · cases hfound
    · rw [← Except.ok.inj hfound] at hrecord
      rw [← hR, hname]
      exact Registry.ports_of_pooler hrecord
  refine .task_bind hread (fun existing => ?_) (fun _ => Registry.stable _) fun _ R h => hsame R h.1
  intro R hR
  have hexisting := hR.2 existing rfl
  refine Machine.Triple.task_bind (choosePoolerPort_ports hsame hexisting) (fun port => ?_)
    (fun _ => Registry.stable _) (fun _ R h => hsame R h.1) R hR.1
  refine .ofExcept_bind (fun _ _ => ?_) (fun _ => Registry.stable _) fun _ R h => hsame R h.1
  refine .mapError_ofExcept_bind (fun _ _ => ?_) (fun _ => Registry.stable _)
    fun _ R h => hsame R h.1
  intro R hR
  have hspec : Throughout Registry.Unrecorded (AddsPooler R₀ (.pooler m.metadata.name, port))
      (applyPoolerSpec codec m wait agent (poolerSpec m pooler targets) rows existing.isSome port) :=
    applyPoolerSpec_ports (hR.2 port rfl)
  refine (hspec R fun e he => .inl (hR.1 ▸ he)).mono (fun _ _ _ h => ⟨_, h⟩) fun _ _ h => ⟨_, h⟩

end Request

/-! ## Histories -/

section History

variable {A : Agent.Code} {host : Host} {codec : PoolerCodec} {w u : World}
  {given : Set (PortHolder × UInt16)}

theorem kernelExec_host {β : Type} {op : CtlOp β} {b : β} (h : (kernelExec A).machine.step op w b u) :
    (hostMachine A).step op w b u := by
  obtain ⟨ch, h⟩ := h
  cases op with
  | registry op => exact ⟨ch, h⟩
  | podman op => exact ⟨ch, h⟩
  | host op =>
    cases op with
    | allocatePort =>
      simp only [kernelExec, kernelPerform] at h
      split at h
      · exact ⟨{ ch with fails := true }, h⟩
      · next hfree =>
        have hfails : ch.fails = false := by
          simp only [Bool.or_eq_true, not_or, Bool.not_eq_true] at hfree
          exact hfree.1
        refine ⟨ch, ?_⟩
        simp only [hostExec, CtlOp.perform, HostOp.perform, hfails]
        exact h
    | _ => exact ⟨ch, h⟩

theorem kernelExec_free {port : UInt16}
    (h : (kernelExec A).machine.step (.host .allocatePort) w (.ok port) u) :
    w.bound port = false := by
  obtain ⟨ch, h⟩ := h
  simp only [kernelExec, kernelPerform] at h
  split at h
  · cases h
  · next hfree =>
    simp only [Bool.or_eq_true, not_or, Bool.not_eq_true] at hfree
    obtain rfl := Except.ok.inj (Prod.mk.inj h).1
    exact hfree.2

/-- The kernel, while every port on record is listened on. -/
def boundMachine (A : Agent.Code) : Machine CtlOp World :=
  (kernelExec A).machine.restrict AllBound fun _ _ => True

theorem boundMachine_unrecorded {port : UInt16}
    (h : (boundMachine A).step (.host .allocatePort) w (.ok port) u) :
    w.registry.Unrecorded port := by
  intro e he heq
  have hbound : w.bound e.2 = true := h.2 e he
  rw [heq, kernelExec_free h.1] at hbound
  cases hbound

theorem boundMachine_registry {α : Type} {p q : Prog CtlOp α} (h : (boundMachine A).Reach p w q u) :
    (Registry.machine Registry.Unrecorded).Reach p w.registry q u.registry := by
  refine h.simulate World.registry (fun _ op s b t hstep => ?_) fun s t hd => ?_
  · refine hostMachine_registry (kernelExec_host hstep.1) ?_
    cases op with
    | registry op => trivial
    | podman op => trivial
    | host op =>
      cases op with
      | allocatePort =>
        rintro port rfl
        exact boundMachine_unrecorded hstep
      | _ => trivial
  · obtain ⟨⟨d, rfl⟩, -⟩ := hd
    exact s.registry_drift d

/-- Only a pooler is given its port. -/
theorem PortHistory.given_pooler {M : Machine CtlOp World} (h : PortHistory M host codec w given) :
    ∀ e ∈ given, ∃ name, e.1 = .pooler name := by
  induction h with
  | fresh _ => exact fun e he => absurd he (Set.notMem_empty e)
  | attempt _ _ ih =>
    rintro e (⟨-, he⟩ | ⟨-, r, -, rfl, -⟩)
    · exact ih e he
    · exact ⟨r.name, rfl⟩

/-- One request keeps the ports that pgpod allocated distinct. -/
theorem request_ports {request : PortRequest} {q : Prog CtlOp PUnit}
    (hdistinct : w.registry.OwnDistinct given)
    (hgiven : ∀ e ∈ given, ∃ name, e.1 = .pooler name)
    (h : (boundMachine A).Reach (request.program host codec) w q u) :
    u.registry.OwnDistinct (Registry.givenAfter given w.registry u.registry) := by
  have hreach := boundMachine_registry h
  have hrun : ∀ {α : Type} {t : CtlTask α} {I : Registry → Prop} {G : Registry → Prop},
      (Registry.machine Registry.Unrecorded).Triple (fun _ _ => G) I t.run (fun _ => G) →
      request.program host codec = t.run.bind (fun _ => .ret PUnit.unit) → I w.registry →
      G u.registry := by
    intro α t I G ht heq hI
    rw [heq] at hreach
    have hprogram : (Registry.machine Registry.Unrecorded).Triple (fun _ _ => G) I
        (t.run.bind fun _ => .ret PUnit.unit) fun _ => G :=
      ht.bind fun _ => .ret (Registry.stable _) fun _ h => h
    have hsafe := hprogram w.registry hI
    cases q with
    | ret r => exact hsafe.at_ret hreach
    | call op next => exact hsafe.at_call hreach
  cases request with
  | apply m options =>
    obtain ⟨hown, hadds⟩ := hrun (apply_ports hgiven host m options) rfl
      ⟨hdistinct, fun e he => .inl he⟩
    exact adds_instances hgiven hown hadds
  | delete k => exact adds_none hdistinct (hrun (delete_ports k) rfl rfl)
  | applyPooler m wait =>
    obtain ⟨new, hadds⟩ := hrun (applyPooler_ports host codec m wait) rfl rfl
    exact adds_one hdistinct hadds
  | deletePooler p =>
    exact adds_none hdistinct (hrun (deletePooler_ports p) rfl (List.Subset.refl _))

/-- **The ports pgpod allocates**: as long as every port on record is listened on whenever one is
allocated, those that pgpod allocated itself are distinct, whoever is down otherwise, and one that
is allocated is not on record. -/
theorem own_ports_distinct (h : PortHistory (boundMachine A) host codec w given) :
    w.registry.OwnDistinct given ∧
      ∀ port u, (boundMachine A).step (.host .allocatePort) w (.ok port) u →
        w.registry.Unrecorded port := by
  have hdistinct : w.registry.OwnDistinct given := by
    induction h with
    | fresh hnone =>
      intro e he
      rw [hnone] at he
      exact absurd he List.not_mem_nil
    | attempt hbefore hreach ih => exact request_ports ih hbefore.given_pooler hreach
  exact ⟨hdistinct, fun port u hstep => boundMachine_unrecorded hstep⟩

end History

namespace PortSample

def agentCode : Agent.Code := Agent.Sample.code {}

def codec : PoolerCodec := ⟨fun _ => "", fun _ => .error "expected value"⟩

def world : World where
  images _ := some ⟨"sha256:5a1e", Agent.Sample.image18⟩

/-- A second cluster. -/
def shop : ClusterManifest := { minimalManifest 999 with metadata := ⟨"shop"⟩ }

def applying (m : ClusterManifest) : PortRequest := .apply m ⟨⟨0⟩, false⟩

/-- Every call succeeds, and the kernel proposes this port. -/
def script (port : Nat) : List (CtlChoice ⊕ Drift) :=
  List.replicate 40 (.inl { number := port, text := "10.89.0.0/24" })

/-- The host after a request. -/
def after (w : World) (request : PortRequest) (port : Nat) : World :=
  ((kernelExec agentCode).follow (script port) (request.program minimalHost codec) w).2

/-- The first cluster is applied and taken down, and its port proposed for the second. -/
def first : World := after world (applying (minimalManifest 999)) 40001

def down : World := after first (.delete mydb) 40001

def second : World := after down (applying shop) 40001

/-- **A port on record is handed out again**: no one listens on it. -/
theorem port_of_stopped_instance_is_allocated :
    ¬ ∀ (A : Agent.Code) (host : Host) (codec : PoolerCodec) (w : World)
        (given : Set (PortHolder × UInt16)),
      PortHistory (kernelExec A).machine host codec w given → w.registry.OwnDistinct given := by
  intro h
  have hstep : ∀ {w : World} {given : Set (PortHolder × UInt16)} (request : PortRequest) (port : Nat),
      PortHistory (kernelExec agentCode).machine minimalHost codec w given →
      PortHistory (kernelExec agentCode).machine minimalHost codec (after w request port)
        (Registry.givenAfter given w.registry (after w request port).registry) :=
    fun request port hw =>
      hw.attempt ((kernelExec agentCode).follow_reach (script port) (request.program _ _) _)
  have hhistory := hstep (applying shop) 40001 (hstep (.delete mydb) 40001
    (hstep (applying (minimalManifest 999)) 40001 (.fresh (w := world) rfl)))
  have hinst : ∀ {given : Set (PortHolder × UInt16)},
      PortHistory (kernelExec agentCode).machine minimalHost codec second given →
      ∀ cluster ordinal port, (.inst cluster ordinal, port) ∉ given := by
    intro given hgiven cluster ordinal port hin
    obtain ⟨name, hname⟩ := hgiven.given_pooler _ hin
    cases hname
  have hsame := h agentCode minimalHost codec second _ hhistory
    (.inst "mydb" 1, 40001) (by decide +kernel) (.inst "shop" 1, 40001) (by decide +kernel)
    (hinst hhistory _ _ _) (hinst hhistory _ _ _) rfl
  exact absurd hsame (by decide)

/-- `AllBound`, evaluated. -/
def allBound : ∀ ⦃β : Type⦄, CtlOp β → World → Bool
  | _, .host .allocatePort, w => w.registry.ports.all fun e => w.bound e.2
  | _, _, _ => true

theorem allBound_of_test {β : Type} (op : CtlOp β) (w : World) (b : β) (u : World)
    (h : allBound op w = true) : AllBound op w b u := by
  cases op with
  | registry op => trivial
  | podman op => trivial
  | host op =>
    cases op with
    | allocatePort => exact List.all_eq_true.mp h
    | _ => trivial

/-- The second cluster is applied while the first is up. -/
def beside : World := after first (applying shop) 40002

theorem own_ports_distinct_beside :
    ∃ given, PortHistory (boundMachine agentCode) minimalHost codec beside given ∧
      beside.registry.OwnDistinct given := by
  have hstep : ∀ {w : World} {given : Set (PortHolder × UInt16)} (request : PortRequest) (port : Nat),
      (kernelExec agentCode).meets allBound (script port) (request.program minimalHost codec) w =
        true → PortHistory (boundMachine agentCode) minimalHost codec w given →
      PortHistory (boundMachine agentCode) minimalHost codec (after w request port)
        (Registry.givenAfter given w.registry (after w request port).registry) :=
    fun request port hmeets hw =>
      hw.attempt ((kernelExec agentCode).follow_meets (fun _ => allBound_of_test) _ _ _ hmeets)
  have hhistory := hstep (applying shop) 40002 (by decide +kernel)
    (hstep (applying (minimalManifest 999)) 40001 (by decide +kernel) (.fresh (w := world) rfl))
  exact ⟨_, hhistory, (own_ports_distinct hhistory).1⟩

end PortSample

end Control

end Pgpod
