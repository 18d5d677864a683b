import Pgpod.Control.Ledger
import Pgpod.Control.Plain

/-!
# What is written to the registry

A run on the host is a run on its registry.  `Steady` collects what an
invariant of the rows has to be kept by so that everything an apply does below
its own two rows keeps it: an event, a phase, an instance that has come up.
-/

namespace Pgpod

open Effect

namespace Registry

/-- What an operation may answer and do, as far as the registry shows it; `free` says which
ports may be allocated. -/
def step (free : Registry → UInt16 → Prop) :
    ∀ ⦃β : Type⦄, CtlOp β → Registry → β → Registry → Prop
  | _, .registry op, R, b, R' => ∃ ch, op.perform ch R = (b, R')
  | _, .podman (.createVolume name), R, b, R' => R' = R ∧ ∀ v, b = .ok v → v = name
  | _, .host .allocatePort, R, b, R' => R' = R ∧ ∀ port, b = .ok port → free R port
  | _, _, R, _, R' => R' = R

def machine (free : Registry → UInt16 → Prop) : Machine CtlOp Registry where
  step := step free
  drift _ _ := False

theorem stable {free : Registry → UInt16 → Prop} (I : Registry → Prop) : (machine free).Stable I :=
  fun _ _ h => h.elim

/-- Any port may be allocated. -/
def anyPort : Registry → UInt16 → Prop := fun _ _ => True

end Registry

namespace World

theorem registry_absorb (w : World) (c : Container) (q : Prog AgentOp (Except String Int))
    (s : AgentState) : (w.absorb c q s).registry = w.registry := by
  unfold absorb
  cases c.volume <;> rfl

theorem registry_drift (w : World) (d : Drift) : (w.drift d).registry = w.registry := by
  cases d with
  | agentStep id choice =>
    simp only [drift]
    split
    · split
      · split
        · exact registry_absorb _ _ _ _
        · rfl
      · rfl
    · rfl
  | finish id =>
    simp only [drift]
    split
    · split
      · split
        · rfl
        · rfl
      · rfl
    · rfl
  | die id code => rfl

theorem registry_execIn (w : World) (c : Container) (proc : Process) (ch : CtlChoice)
    (cmd : ExecCommand) : (w.execIn c proc ch cmd).2.registry = w.registry := by
  cases cmd with
  | psql stmt =>
    have hrun : (w.runStatement c stmt).registry = w.registry := by
      unfold runStatement
      cases c.volume <;> rfl
    simp only [execIn]
    split
    · split
      · exact hrun
      · rfl
    · rfl
  | catPgVersion =>
    simp only [execIn]
    split <;> rfl
  | _ => rfl

theorem registry_create {w w' : World} {spec : ContainerSpec} {id : String}
    (h : w.create spec = some (id, w')) : w'.registry = w.registry := by
  unfold create at h
  split at h
  · split at h
    · cases h
    · rw [← (Prod.mk.inj (Option.some.inj h)).2]
  · cases h

end World

theorem podmanCall_registry {α : Type} {ch : CtlChoice} {w w' u : World} {r b : Except Error α}
    (h : podmanCall ch w r w' = (b, u)) (hw : w'.registry = w.registry) :
    u.registry = w.registry ∧ ∀ a, b = .ok a → r = .ok a := by
  rcases podmanCall_cases h with ⟨⟨e, rfl⟩, rfl | rfl⟩ | ⟨a, hr, rfl, rfl⟩
  · exact ⟨rfl, nofun⟩
  · exact ⟨hw, nofun⟩
  · refine ⟨hw, fun a' ha => ?_⟩
    rw [hr, Except.ok.inj ha]

theorem PodmanOp.registry_step {β : Type} {A : Agent.Code} {op : PodmanOp β} {ch : CtlChoice}
    {w u : World} {b : β} {free : Registry → UInt16 → Prop} (h : op.perform A ch w = (b, u)) :
    Registry.step free (.podman op) w.registry b u.registry := by
  cases op with
  | createVolume name =>
    simp only [perform] at h
    split at h
    · obtain ⟨hsame, hanswer⟩ := podmanCall_registry h rfl
      exact ⟨hsame, fun v hv => (Except.ok.inj (hanswer v hv)).symm⟩
    · obtain ⟨hsame, hanswer⟩ := podmanCall_registry h rfl
      exact ⟨hsame, fun v hv => (Except.ok.inj (hanswer v hv)).symm⟩
  | pullImageIfAbsent image =>
    simp only [perform] at h
    split at h
    · rw [← (Prod.mk.inj h).2]
      rfl
    · split at h
      · exact (podmanCall_registry h rfl).1
      · rw [← (Prod.mk.inj h).2]
        rfl
  | ensureNetwork name =>
    simp only [perform] at h
    split at h
    · exact (podmanCall_registry h rfl).1
    · exact (podmanCall_registry h rfl).1
  | removeVolume name =>
    simp only [perform] at h
    split at h
    · rw [← (Prod.mk.inj h).2]
      rfl
    · exact (podmanCall_registry h rfl).1
  | putSecret name value =>
    simp only [perform] at h
    split at h
    · rw [← (Prod.mk.inj h).2]
      rfl
    · exact (podmanCall_registry h rfl).1
  | createContainer spec =>
    simp only [perform] at h
    split at h
    · next id w' hcreate => exact (podmanCall_registry h (World.registry_create hcreate)).1
    · rw [← (Prod.mk.inj h).2]
      rfl
  | start ref =>
    simp only [perform] at h
    split at h
    · exact (podmanCall_registry h rfl).1
    · rw [← (Prod.mk.inj h).2]
      rfl
  | stop ref timeout =>
    simp only [perform] at h
    split at h
    · exact (podmanCall_registry h rfl).1
    · rw [← (Prod.mk.inj h).2]
      rfl
  | remove ref =>
    simp only [perform] at h
    split at h
    · exact (podmanCall_registry h rfl).1
    · rw [← (Prod.mk.inj h).2]
      rfl
  | waitForExit ref timeout =>
    simp only [perform] at h
    split at h
    · exact (podmanCall_registry h rfl).1
    · rw [← (Prod.mk.inj h).2]
      rfl
  | logs ref =>
    simp only [perform] at h
    split at h
    · exact (podmanCall_registry h rfl).1
    · rw [← (Prod.mk.inj h).2]
      rfl
  | exec ref cmd =>
    simp only [perform] at h
    split at h
    · split at h
      · exact (podmanCall_registry h (w.registry_execIn _ _ ch cmd)).1
      · rw [← (Prod.mk.inj h).2]
        rfl
    · rw [← (Prod.mk.inj h).2]
      rfl
  | imageId _ | removeNetwork _ | volumeExists _ | secretExists _ | secretValue _
  | removeSecret _ | probe _ =>
    simp only [perform] at h
    exact (podmanCall_registry h rfl).1

section Host

variable {A : Agent.Code} {α : Type} {p q : Prog CtlOp α} {w u : World}

/-- A port that an operation allocates is a free one. -/
def Registry.Allocates (free : Registry → UInt16 → Prop) :
    ∀ ⦃β : Type⦄, CtlOp β → Registry → β → Prop
  | _, .host .allocatePort, R, b => ∀ port, b = .ok port → free R port
  | _, _, _, _ => True

theorem Registry.allocates_anyPort {β : Type} (op : CtlOp β) (R : Registry) (b : β) :
    Allocates anyPort op R b := by
  unfold Allocates
  split
  · exact fun _ _ => trivial
  · trivial

theorem hostMachine_registry {free : Registry → UInt16 → Prop} {β : Type} {op : CtlOp β} {b : β}
    (h : (hostMachine A).step op w b u) (hport : Registry.Allocates free op w.registry b) :
    Registry.step free op w.registry b u.registry := by
  obtain ⟨ch, h⟩ := h
  change CtlOp.perform A op ch w = (b, u) at h
  cases op with
  | registry op =>
    obtain ⟨rfl, rfl⟩ := Prod.mk.inj h
    exact ⟨ch, rfl⟩
  | podman op => exact PodmanOp.registry_step h
  | host op =>
    obtain ⟨-, rfl⟩ := Prod.mk.inj h
    cases op with
    | allocatePort => exact ⟨rfl, hport⟩
    | _ => rfl

/-- **Refinement**: a run on the host is a run on its registry. -/
theorem hostMachine_reach_registry (h : (hostMachine A).Reach p w q u) :
    (Registry.machine Registry.anyPort).Reach p w.registry q u.registry := by
  refine h.simulate World.registry
    (fun _ op s b _ hstep => hostMachine_registry hstep (Registry.allocates_anyPort op s.registry b))
    fun s t hd => ?_
  obtain ⟨d, rfl⟩ := hd
  exact s.registry_drift d

end Host

/-! ## Invariants of the rows -/

/-- An invariant that an event keeps, a cluster's phase, and an instance that has come up. -/
structure Registry.Steady (I : Registry → Prop) : Prop where
  event : ∀ R events, I R → I { R with events }
  phase : ∀ R name phase, I R → I (R.updateCluster name fun r => { r with phase })
  running : ∀ R row, row ∈ R.instances → I R → I (R.putInstance { row with phase := .running })

namespace Control

/-- The operation writes no row but an event's. -/
def Quiet : ∀ ⦃β : Type⦄, CtlOp β → Prop
  | _, .registry (.putCluster ..) | _, .registry (.setClusterPhase ..)
  | _, .registry (.deleteCluster _) | _, .registry (.putInstance _)
  | _, .registry (.putPooler ..) | _, .registry (.deletePooler _) => False
  | _, _ => True

theorem Plain.quiet {β : Type} {op : CtlOp β} (h : Plain op) : Quiet op := by
  cases op with
  | registry op => cases op <;> exact h
  | _ => trivial

theorem createAndStart_quiet (spec : ContainerSpec) : (createAndStart spec).run.Calls Quiet :=
  Task.calls_bind (Task.calls_ask trivial) fun _ =>
    Task.calls_bind (Task.calls_ask trivial) fun _ => Task.calls_pure _

theorem upgradeJob_quiet {γ : Type} (host : Host) (read : Report → Option γ) (m : ClusterManifest)
    (inst : InstanceId) (job : String) (argv : List String) (specEnv : Option String)
    (wait : Duration) : (upgradeJob host read m inst job argv specEnv wait).run.Calls Quiet := by
  have hplain : ∀ {δ : Type} {t : CtlTask δ}, t.run.Calls Plain → t.run.Calls Quiet :=
    fun ht => ht.mono fun _ _ => Plain.quiet
  refine Task.calls_bind (hplain (agentBinary_plain _)) fun agent => ?_
  refine Task.calls_bind ?_ fun _ => ?_
  · refine Task.calls_bind (Task.calls_ask trivial) fun probe => ?_
    cases probe with
    | none => exact Task.calls_pure _
    | some p =>
      refine Task.calls_bind (ignore_calls (Task.calls_ask trivial)) fun _ => ?_
      exact ignore_calls (Task.calls_ask trivial)
  refine Task.calls_bind (Task.calls_ask trivial) fun id => ?_
  refine Task.calls_bind (Task.calls_ask trivial) fun _ => ?_
  refine Task.calls_bind (hplain (waitForJob_plain _ _ _ _)) fun code => ?_
  refine Task.calls_bind (hplain (logsOrWhyNot_plain _)) fun logs => ?_
  refine Task.calls_bind (ignore_calls (Task.calls_ask trivial)) fun _ => ?_
  split
  · exact Task.calls_throw _
  · exact Task.calls_ofExcept _

theorem applyChecks_quiet (host : Host) (m : ClusterManifest) (k : ClusterId) :
    (applyChecks host m k).run.Calls Quiet := by
  refine Task.calls_bind (Task.calls_ofExcept _) fun _ => ?_
  refine Task.calls_bind ((agentBinary_plain _).mono fun _ _ => Plain.quiet) fun agent => ?_
  refine Task.calls_bind (Task.calls_ask trivial) fun existing => ?_
  refine Task.calls_bind (Task.calls_ask trivial) fun _ => ?_
  refine Task.calls_bind (Task.calls_ask trivial) fun desiredImageId => ?_
  refine Task.calls_bind ?_ fun _ => Task.calls_pure _
  refine Task.calls_bind (Task.calls_ask trivial) fun there => ?_
  split
  · exact Task.calls_pure _
  refine Task.calls_bind (Task.calls_ask trivial) fun probe => ?_
  split
  · exact Task.calls_pure _
  exact Task.calls_bind (upgradeJob_quiet _ _ _ _ _ _ _ _) fun report => Task.calls_ofExcept _

section Steady

variable {free : Registry → UInt16 → Prop} {I : Registry → Prop} {α β : Type}

/-- `I` holds at every step of the task and when it ends. -/
abbrev Throughout (free : Registry → UInt16 → Prop) (I : Registry → Prop) (t : CtlTask α) : Prop :=
  (Registry.machine free).Keeps (fun _ _ => I) I t.run

theorem throughout_bind {t : CtlTask α} {f : α → CtlTask β} (ht : Throughout free I t)
    (hf : ∀ a, Throughout free I (f a)) : Throughout free I (t >>= f) :=
  .task_bind (Registry.stable I) ht hf

theorem throughout_attempt {t : CtlTask α} (ht : Throughout free I t) :
    Throughout free I (Task.attempt t : CtlTask (Except Error α)) :=
  .bind ht fun _ => .ret (Registry.stable I) fun _ h => h

theorem throughout_pure (a : α) : Throughout free I (pure a : CtlTask α) :=
  .ret (Registry.stable I) fun _ h => h

theorem throughout_throw (e : Error) : Throughout free I (Task.throw e : CtlTask α) :=
  .ret (Registry.stable I) fun _ h => h

theorem throughout_ask {op : CtlOp (Except Error α)}
    (hstep : ∀ R b R', I R → Registry.step free op R b R' → I R') :
    Throughout free I (Task.ask op) :=
  .perform (Registry.stable I) (fun _ => Registry.stable I) (fun _ h => h) hstep

/-- The row of an instance, as it is recorded. -/
theorem instanceRow_is (k : ClusterId) (ordinal : UInt32) :
    (Registry.machine free).Triple (fun _ _ => I) I (instanceRow k ordinal).run fun r R =>
      I R ∧ ∀ found, r = .ok found → found = R.instanceAt k.name ordinal := by
  have hrows : (Registry.machine free).Triple (fun _ _ => I) I (registry (.instances k)).run
      fun r R => I R ∧ ∀ rows, r = .ok rows → rows = R.instancesOf k.name := by
    refine .perform (Registry.stable I) (fun _ => Registry.stable _) (fun _ h => h) ?_
    rintro R r R' hR ⟨ch, hstep⟩
    obtain ⟨rfl, rfl⟩ := Prod.mk.inj hstep
    refine ⟨hR, fun rows hr => ?_⟩
    split at hr
    · cases hr
    · exact (Except.ok.inj hr).symm
  refine .task_bind hrows (fun rows => ?_) (fun _ => Registry.stable _) ?_
  · refine .ret (Registry.stable _) fun R hR => ⟨hR.1, fun found hfound => ?_⟩
    rw [← Except.ok.inj hfound, hR.2 rows rfl]
    rfl
  · exact fun e R hR => ⟨hR.1, nofun⟩

/-- The rows of a cluster, as they are recorded. -/
theorem instances_are {guard : ∀ ⦃β : Type⦄, CtlOp β → Registry → Prop} (k : ClusterId)
    (R : Registry) (hguard : guard (.registry (.instances k)) R) :
    (Registry.machine free).Triple guard (fun R' => R' = R) (registry (.instances k)).run
      fun r R' => R' = R ∧ ∀ rows, r = .ok rows → rows = R.instancesOf k.name := by
  refine .perform (Registry.stable _) (fun _ => Registry.stable _) (fun _ h => h ▸ hguard) ?_
  rintro S r R' rfl ⟨ch, hstep⟩
  obtain ⟨rfl, rfl⟩ := Prod.mk.inj hstep
  refine ⟨rfl, fun rows hr => ?_⟩
  split at hr
  · cases hr
  · exact (Except.ok.inj hr).symm

theorem requireCluster_leaves {guard : ∀ ⦃β : Type⦄, CtlOp β → Registry → Prop} (k : ClusterId)
    (R : Registry) (hguard : guard (.registry (.cluster k)) R) :
    (Registry.machine free).Triple guard (fun R' => R' = R) (requireCluster k).run
      fun _ R' => R' = R := by
  have hread : (Registry.machine free).Triple guard (fun R' => R' = R) (registry (.cluster k)).run
      fun _ R' => R' = R := by
    refine .perform (Registry.stable _) (fun _ => Registry.stable _) (fun _ h => h ▸ hguard) ?_
    rintro S r R' hS ⟨ch, hstep⟩
    exact (Prod.mk.inj hstep).2.symm.trans hS
  refine .task_bind hread (fun found => ?_) (fun _ => Registry.stable _) fun _ _ h => h
  cases found with
  | none => exact .ret (Registry.stable _) fun _ h => h
  | some record => exact .ret (Registry.stable _) fun _ h => h

/-- A quiet operation records an event or nothing. -/
theorem Registry.step_quiet {op : CtlOp β} {R R' : Registry} {b : β} (hop : Quiet op)
    (h : Registry.step free op R b R') : ∃ events, R' = { R with events } := by
  cases op with
  | registry op =>
    obtain ⟨ch, h⟩ := h
    cases op with
    | recordEvent k ordinal level message =>
      simp only [RegistryOp.perform] at h
      split at h
      · exact ⟨_, (Prod.mk.inj h).2.symm⟩
      · exact ⟨_, (Prod.mk.inj h).2.symm⟩
    | cluster _ | listClusters | instances _ | listPoolers | poolersForCluster _ | pooler _ =>
      exact ⟨_, (Prod.mk.inj h).2.symm⟩
    | putCluster _ _ | setClusterPhase _ _ | deleteCluster _ | putInstance _
    | putPooler _ _ _ _ _ _ | deletePooler _ => exact hop.elim
  | podman op =>
    cases op with
    | createVolume name => exact ⟨_, h.1⟩
    | _ => exact ⟨_, h⟩
  | host op =>
    cases op with
    | allocatePort => exact ⟨_, h.1⟩
    | _ => exact ⟨_, h⟩

/-- What writes no row keeps whatever an event keeps. -/
theorem throughout_of_events (hI : ∀ R events, I R → I { R with events }) {t : CtlTask α}
    (ht : t.run.Calls Quiet) : Throughout free I t := by
  refine .of_calls (Registry.stable I) (fun _ _ _ _ h => h) ?_ ht
  intro β op R b R' hop hR hstep
  obtain ⟨events, rfl⟩ := Registry.step_quiet hop hstep
  exact hI R events hR

variable (hI : Registry.Steady I)

include hI

theorem throughout_quiet {t : CtlTask α} (ht : t.run.Calls Quiet) : Throughout free I t :=
  throughout_of_events hI.event ht

theorem throughout_plain {t : CtlTask α} (ht : t.run.Calls Plain) : Throughout free I t :=
  throughout_quiet hI (ht.mono fun _ _ => Plain.quiet)

theorem throughout_event (k : ClusterId) (ordinal : Option UInt32) (level message : String) :
    Throughout free I (recordEvent k ordinal level message) :=
  throughout_plain hI (Task.calls_ask trivial)

theorem throughout_setClusterPhase (k : ClusterId) (phase : ClusterPhase) :
    Throughout free I (registry (.setClusterPhase k phase)) := by
  refine throughout_ask ?_
  rintro R r R' hR ⟨ch, hstep⟩
  simp only [RegistryOp.perform] at hstep
  split at hstep
  · exact (Prod.mk.inj hstep).2 ▸ hR
  · exact (Prod.mk.inj hstep).2 ▸ hI.phase R _ _ hR

/-! ### Coming up -/

theorem throughout_markRunning (inst : InstanceId) : Throughout free I (markRunning inst) := by
  refine Machine.Triple.task_bind (instanceRow_is _ _) (fun found => ?_)
    (fun _ => Registry.stable I) ?_
  · cases found with
    | none => exact .strengthen (throughout_pure _) fun R hR => hR.1
    | some row =>
      refine .perform (Registry.stable _) (fun _ => Registry.stable I) (fun R hR => hR.1) ?_
      rintro R r R' ⟨hR, hrow⟩ ⟨ch, hstep⟩
      have hat : row ∈ R.instances := by
        have hfind : R.instanceAt inst.cluster.name inst.ordinal = some row := (hrow _ rfl).symm
        exact List.mem_of_mem_filter (List.mem_of_find?_eq_some hfind)
      simp only [RegistryOp.perform] at hstep
      split at hstep
      · exact (Prod.mk.inj hstep).2 ▸ hR
      · exact (Prod.mk.inj hstep).2 ▸ hI.running R row hat hR
  · exact fun e R hR => hR.1

theorem throughout_pollReady (inst : InstanceId) (timeout : Duration) (rounds : Nat)
    (last : String) : Throughout free I (pollReady inst timeout rounds last) := by
  induction rounds generalizing last with
  | zero => exact throughout_plain hI (notReady_plain _ _ _)
  | succ rounds ih =>
    have hagain : ∀ last : String, Throughout free I (do
        let probe ← podman (.probe inst.containerName)
        if probe.any fun p => !p.running then notReady inst timeout last
        else pollReady inst timeout rounds last : CtlTask Unit) := by
      intro last
      refine throughout_bind (throughout_plain hI (Task.calls_ask trivial)) fun probe => ?_
      split
      · exact throughout_plain hI (notReady_plain _ _ _)
      · exact ih _
    refine throughout_bind (throughout_plain hI (Task.calls_perform trivial)) fun time => ?_
    split
    · exact throughout_plain hI (notReady_plain _ _ _)
    refine throughout_bind (throughout_plain hI (Task.calls_attempt (Task.calls_ask trivial))) ?_
    rintro (e | out)
    · exact hagain _
    · simp only
      split
      · exact throughout_markRunning hI _
      · exact hagain _

theorem throughout_waitReady (inst : InstanceId) (timeout : Duration) :
    Throughout free I (waitReady inst timeout) :=
  throughout_pollReady hI _ _ _ _

theorem throughout_waitEach (k : ClusterId) (wait : Duration) (ordinals : List UInt32) :
    Throughout free I (waitEach k wait ordinals) := by
  induction ordinals with
  | nil => exact throughout_pure _
  | cons ordinal rest ih => exact throughout_bind (throughout_waitReady hI _ _) fun _ => ih

/-! ### Containers -/

theorem throughout_recreateInstance (host : Host) (m : ClusterManifest) (inst : InstanceId)
    (ctx : ApplyContext) (port : UInt16) :
    Throughout free I (recreateInstance host m inst ctx port) := by
  have hheld : Throughout free I (recreateHeld host m inst ctx port) := by
    refine throughout_bind (throughout_event hI _ _ _ _) fun _ => ?_
    refine throughout_bind (throughout_quiet hI (ignore_calls (Task.calls_ask trivial))) fun _ => ?_
    refine throughout_bind (throughout_quiet hI (Task.calls_ask trivial)) fun _ => ?_
    refine throughout_bind (throughout_event hI _ _ _ _) fun _ => ?_
    refine throughout_bind (throughout_quiet hI (Task.calls_ofExcept _)) fun spec => ?_
    refine throughout_bind (throughout_quiet hI (Task.calls_ask trivial)) fun id => ?_
    refine throughout_bind (throughout_quiet hI (Task.calls_ask trivial)) fun _ => ?_
    exact throughout_bind (throughout_waitReady hI _ _) fun _ => throughout_pure _
  refine throughout_bind (throughout_plain hI (Task.calls_perform trivial)) fun started => ?_
  refine throughout_bind (throughout_plain hI (acquire_plain _)) fun held => ?_
  refine throughout_bind ?_ fun _ => ?_
  · unfold Task.when
    split
    · exact throughout_event hI _ _ _ _
    · exact throughout_pure _
  refine throughout_bind (throughout_attempt hheld) ?_
  rintro (e | id)
  · refine throughout_bind (throughout_plain hI (release_plain _ _)) fun _ => ?_
    exact throughout_bind (throughout_event hI _ _ _ _) fun _ => throughout_throw _
  · refine throughout_bind (throughout_plain hI (releaseAfterRecreate_plain _ _)) fun _ => ?_
    refine throughout_bind (throughout_plain hI (Task.calls_perform trivial)) fun elapsed => ?_
    exact throughout_bind (throughout_event hI _ _ _ _) fun _ => throughout_pure _

theorem throughout_convergeContainer (host : Host) (m : ClusterManifest) (inst : InstanceId)
    (ctx : ApplyContext) (port : UInt16) :
    Throughout free I (convergeContainer host m inst ctx port) := by
  refine throughout_bind (throughout_plain hI (Task.calls_ask trivial)) fun probe => ?_
  cases probe with
  | none =>
    refine throughout_bind (throughout_quiet hI (Task.calls_ofExcept _)) fun spec => ?_
    refine throughout_bind (throughout_quiet hI (Task.calls_ask trivial)) fun _ => ?_
    exact throughout_quiet hI (createAndStart_quiet _)
  | some p =>
    simp only
    split
    · exact throughout_pure _
    · split
      · refine throughout_bind (throughout_event hI _ _ _ _) fun _ => ?_
        exact throughout_recreateInstance hI _ _ _ _ _
      · exact throughout_throw _
    · exact throughout_bind (throughout_quiet hI (Task.calls_ask trivial)) fun _ => throughout_pure _
    · refine throughout_bind (throughout_event hI _ _ _ _) fun _ => ?_
      refine throughout_bind (throughout_quiet hI (Task.calls_ofExcept _)) fun spec => ?_
      refine throughout_bind (throughout_quiet hI (Task.calls_ask trivial)) fun _ => ?_
      refine throughout_bind (throughout_quiet hI (Task.calls_ask trivial)) fun _ => ?_
      exact throughout_quiet hI (createAndStart_quiet _)

theorem throughout_settleInstances (k : ClusterId) (m : ClusterManifest) (options : ApplyOptions)
    (rotate : List (String × String)) :
    Throughout free I (settleInstances k m options rotate) := by
  unfold settleInstances
  split
  · refine throughout_bind (throughout_waitEach hI _ _ _) fun _ => ?_
    exact throughout_plain hI (rotateRestoredRoles_plain _ _)
  · unfold Task.when
    split
    · exact throughout_event hI _ _ _ _
    · exact throughout_pure _

/-! ### Apply -/

omit hI in
/-- **One instance**: its port is the one on record or a free one, and with a port that has `P`
its row may be written. -/
theorem throughout_applyInstance {P : UInt16 → Registry → Prop} {host : Host} {m : ClusterManifest}
    {inst : InstanceId} {ctx : ApplyContext}
    (hI : ∀ port, Registry.Steady fun R => I R ∧ P port R)
    (hkept : ∀ R row, R.instanceAt inst.cluster.name inst.ordinal = some row → I R →
      P row.hostPort R)
    (hfree : ∀ R port, R.instanceAt inst.cluster.name inst.ordinal = none → free R port → I R →
      P port R)
    (hput : ∀ R port id phase, I R → P port R →
      let R' := R.putInstance (instanceRecordOf inst inst.volumeName port id phase)
      I R' ∧ P port R') :
    Throughout free I (applyInstance host m inst ctx) := by
  have hwrite : ∀ port volume id phase, volume = inst.volumeName →
      Throughout free (fun R => I R ∧ P port R)
        (registry (.putInstance (instanceRecordOf inst volume port id phase))) := by
    rintro port volume id phase rfl
    refine throughout_ask ?_
    rintro R r R' hR ⟨ch, hstep⟩
    simp only [RegistryOp.perform] at hstep
    split at hstep
    · exact (Prod.mk.inj hstep).2 ▸ hR
    · exact (Prod.mk.inj hstep).2 ▸ hput R port id phase hR.1 hR.2
  have hafter : ∀ port : UInt16, (Registry.machine free).Triple (fun _ _ => I)
      (fun R => I R ∧ P port R) (do
      let volume ← podman (.createVolume inst.volumeName)
      registry (.putInstance (instanceRecordOf inst volume port none .creating))
      let id ← convergeContainer host m inst ctx port
      registry (.putInstance (instanceRecordOf inst volume port (some id) .bootstrapping))
      pure
        { inst := inst.toText
          container := inst.containerName
          volume
          hostPort := port
          connectionUri := connectionUri port m } : CtlTask InstanceSummary).run fun _ => I := by
    intro port
    have hvolume : (Registry.machine free).Triple (fun _ _ => I) (fun R => I R ∧ P port R)
        (podman (.createVolume inst.volumeName)).run
        fun r R => (I R ∧ P port R) ∧ ∀ v, r = .ok v → v = inst.volumeName := by
      refine .perform (Registry.stable _) (fun _ => Registry.stable _) (fun _ h => h.1) ?_
      rintro R r R' hR ⟨rfl, hanswer⟩
      exact ⟨hR, hanswer⟩
    refine .task_bind hvolume (fun volume => ?_) (fun _ => Registry.stable _) fun _ _ h => h.1.1
    intro R hR
    have hname : volume = inst.volumeName := hR.2 volume rfl
    have hrest : Throughout free (fun R => I R ∧ P port R) (do
        registry (.putInstance (instanceRecordOf inst volume port none .creating))
        let id ← convergeContainer host m inst ctx port
        registry (.putInstance (instanceRecordOf inst volume port (some id) .bootstrapping))
        pure
          { inst := inst.toText
            container := inst.containerName
            volume
            hostPort := port
            connectionUri := connectionUri port m } : CtlTask InstanceSummary) := by
      refine throughout_bind (hwrite _ _ _ _ hname) fun _ => ?_
      refine throughout_bind (throughout_convergeContainer (hI port) _ _ _ _ _) fun id => ?_
      exact throughout_bind (hwrite _ _ _ _ hname) fun _ => throughout_pure _
    exact (hrest R hR.1).mono (fun _ _ _ h => h.1) fun _ _ h => h.1
  refine Machine.Triple.task_bind (instanceRow_is _ _) (fun existing => ?_)
    (fun _ => Registry.stable _) fun _ _ h => h.1
  cases existing with
  | some row =>
    refine (hafter row.hostPort).strengthen fun R hR => ⟨hR.1, ?_⟩
    exact hkept R row (hR.2 _ rfl).symm hR.1
  | none =>
    have hport : (Registry.machine free).Triple (fun _ _ => I)
        (fun R => I R ∧ R.instanceAt inst.cluster.name inst.ordinal = none)
        (Task.ask (.host .allocatePort) : CtlTask UInt16).run
        fun r R => I R ∧ ∀ port, r = .ok port → P port R := by
      refine .perform (Registry.stable _) (fun _ => Registry.stable _) (fun _ h => h.1) ?_
      rintro R r R' ⟨hR, hnone⟩ ⟨rfl, hanswer⟩
      exact ⟨hR, fun port hport => hfree _ port hnone (hanswer port hport) hR⟩
    refine (Machine.Triple.task_bind hport (fun port => ?_) (fun _ => Registry.stable _)
      fun _ _ h => h.1).strengthen fun R hR => ⟨hR.1, (hR.2 _ rfl).symm⟩
    exact (hafter port).strengthen fun R hR => ⟨hR.1, hR.2 port rfl⟩

theorem throughout_applyRecorded {host : Host} {m : ClusterManifest} {k : ClusterId}
    (hinst : ∀ ctx, ∀ ordinal ∈ ordinals m.spec.instances,
      Throughout free I (applyInstance host m (k.inst ordinal) ctx))
    (bootstrap : Bootstrap) (options : ApplyOptions) (agent : String)
    (desiredImageId : Option String) :
    Throughout free I (applyRecorded host m k bootstrap options agent desiredImageId) := by
  have heach : ∀ ctx os, (∀ o ∈ os, o ∈ ordinals m.spec.instances) →
      Throughout free I (applyEach host m k ctx os) := by
    intro ctx os hos
    induction os with
    | nil => exact throughout_pure _
    | cons ordinal rest ih =>
      refine throughout_bind (hinst ctx ordinal (hos _ List.mem_cons_self)) fun _ => ?_
      refine throughout_bind (ih fun o ho => hos o (List.mem_cons_of_mem _ ho)) fun _ => ?_
      exact throughout_pure _
  refine throughout_bind (throughout_quiet hI (Task.calls_ask trivial)) fun networkCidr => ?_
  have hafter : Throughout free I (do
      let ensured ← ensureSecrets k m bootstrap
      let summaries ← applyEach host m k
        { bootstrap, networkCidr, secrets := ensured.names, agent, recreate := options.recreate
          desiredImageId } (ordinals m.spec.instances)
      settleInstances k m options ensured.rotate
      pure summaries : CtlTask (List InstanceSummary)) := by
    refine throughout_bind (throughout_plain hI (ensureSecrets_plain _ _ _)) fun ensured => ?_
    refine throughout_bind (heach _ _ fun _ ho => ho) fun summaries => ?_
    exact throughout_bind (throughout_settleInstances hI _ _ _ _) fun _ => throughout_pure _
  split
  · exact throughout_bind (throughout_plain hI (Task.calls_ask trivial)) fun _ => hafter
  · exact hafter

/-- **An apply, from what it writes**: `J` until the cluster is recorded and `I` from there on
hold throughout, and `G` follows from both. -/
theorem triple_applyWithBootstrap {G J : Registry → Prop} {host : Host} {m : ClusterManifest}
    (hJ : Registry.Steady J) (hJG : ∀ R, J R → G R) (hIG : ∀ R, I R → G R)
    (hput : ∀ k phase R, m.clusterId = .ok k → J R → I (R.putCluster m phase).2)
    (hinst : ∀ k ctx, m.clusterId = .ok k → ∀ ordinal ∈ ordinals m.spec.instances,
      Throughout free I (applyInstance host m (k.inst ordinal) ctx))
    (bootstrap : Bootstrap) (options : ApplyOptions) :
    (Registry.machine free).Triple (fun _ _ => G) J
      (applyWithBootstrap host m bootstrap options).run fun _ => G := by
  have hguard : ∀ {γ : Type} {K : Registry → Prop} {t : CtlTask γ}, (∀ R, K R → G R) →
      Throughout free K t → (Registry.machine free).Triple (fun _ _ => G) K t.run fun _ => K :=
    fun hKG ht R hR => (ht R hR).mono (fun _ _ _ h => hKG _ h) fun _ _ h => h
  refine .mapError_ofExcept_bind (fun k hk => ?_) (fun _ => Registry.stable G) fun _ => hJG
  have hk' : m.clusterId = .ok k := hk
  refine .task_bind (hguard hJG (throughout_quiet hJ (applyChecks_quiet host m k)))
    (fun checked => ?_) (fun _ => Registry.stable G) fun _ => hJG
  obtain ⟨existed, agent, desiredImageId⟩ := checked
  have hrecord : (Registry.machine free).Triple (fun _ _ => G) J
      (registry (.putCluster m .applying)).run
        fun r R => (∀ g, r = .ok g → I R) ∧ G R := by
    refine .perform (Registry.stable J) (fun _ => Registry.stable _) hJG ?_
    rintro R r R' hR ⟨ch, hstep⟩
    simp only [RegistryOp.perform] at hstep
    split at hstep
    · obtain ⟨rfl, rfl⟩ := Prod.mk.inj hstep
      exact ⟨by simp, hJG R hR⟩
    · obtain ⟨rfl, rfl⟩ := Prod.mk.inj hstep
      have hI' := hput k .applying R hk' hR
      exact ⟨fun _ _ => hI', hIG _ hI'⟩
  refine .task_bind hrecord (fun generation => ?_) (fun _ => Registry.stable G) fun _ _ h => h.2
  refine ((hguard hIG ?_).weaken fun _ => hIG).strengthen fun R hR => hR.1 generation rfl
  refine throughout_bind (throughout_event hI _ _ _ _) fun _ => ?_
  refine throughout_bind (throughout_attempt
    (throughout_applyRecorded hI (fun ctx => hinst k ctx hk') _ _ _ _)) ?_
  rintro (e | summaries)
  · refine throughout_bind ?_ fun _ => throughout_throw _
    refine throughout_bind (throughout_bind
      (throughout_attempt (throughout_setClusterPhase hI _ _)) fun _ => throughout_pure _) fun _ => ?_
    exact throughout_quiet hI (ignore_calls (Task.calls_ask trivial))
  · refine throughout_bind (throughout_setClusterPhase hI _ _) fun _ => ?_
    exact throughout_bind (throughout_event hI _ _ _ _) fun _ => throughout_pure _

end Steady

end Control

end Pgpod
