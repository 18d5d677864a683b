import Pgpod.Control.Adoption
import Pgpod.Control.LedgerFrame
import Pgpod.Control.Rows

/-!
# A refused apply

An apply that may not recreate refuses an instance whose running container was
made of another spec.  By then the instance's row has been overwritten with one
of an instance that is being created; the container has not been touched.
-/

namespace Pgpod

open Effect

def Error.isDiverged : Error → Bool
  | .diverged .. => true
  | _ => false

/-! ## Where the refusal comes from -/

def failure {α : Type} : Except Error α → Option Error
  | .ok _ => none
  | .error e => some e

@[simp] theorem failure_eq_some {α : Type} {b : Except Error α} {e : Error} :
    failure b = some e ↔ b = .error e := by
  cases b with
  | ok a => exact ⟨nofun, nofun⟩
  | error e' => exact ⟨fun h => congrArg _ (Option.some.inj h), fun h => congrArg _ (Except.error.inj h)⟩

/-- The error in the answer of an operation. -/
def RegistryOp.error? {β : Type} : RegistryOp β → β → Option Error
  | .cluster _, b | .listClusters, b | .putCluster .., b | .setClusterPhase .., b
  | .deleteCluster _, b | .instances _, b | .putInstance _, b | .listPoolers, b
  | .poolersForCluster _, b | .pooler _, b | .putPooler .., b | .deletePooler _, b
  | .recordEvent .., b => failure b

def PodmanOp.error? {β : Type} : PodmanOp β → β → Option Error
  | .pullImageIfAbsent _, b | .imageId _, b | .ensureNetwork _, b | .removeNetwork _, b
  | .createVolume _, b | .volumeExists _, b | .removeVolume _, b | .secretExists _, b
  | .secretValue _, b | .putSecret .., b | .removeSecret _, b | .probe _, b
  | .createContainer _, b | .start _, b | .stop .., b | .remove _, b | .waitForExit .., b
  | .logs _, b | .exec .., b => failure b

def HostOp.error? {β : Type} : HostOp β → β → Option Error
  | .allocatePort, b => failure b
  | _, _ => none

def CtlOp.error? {β : Type} : CtlOp β → β → Option Error
  | .registry op, b => op.error? b
  | .podman op, b => op.error? b
  | .host op, b => op.error? b

/-- An answer that is not a divergence: podman, the registry and the host know of none. -/
def CtlOp.Admits ⦃β : Type⦄ (op : CtlOp β) (b : β) : Prop :=
  ∀ e, op.error? b = some e → e.isDiverged = false

theorem podmanCall_error {α : Type} {ch : CtlChoice} {w u : World} {a : α} {e : Error}
    (h : (podmanCall ch w (.ok a) u).1 = .error e) : e.isDiverged = false := by
  unfold podmanCall at h
  split at h
  · rw [← Except.error.inj h]
    rfl
  · cases h

/-- **A divergence is never an answer.** -/
theorem hostMachine_admits {A : Agent.Code} {β : Type} {op : CtlOp β} {w u : World} {b : β}
    (h : (hostMachine A).step op w b u) : op.Admits b := by
  obtain ⟨ch, h⟩ := h
  change CtlOp.perform A op ch w = (b, u) at h
  obtain rfl : (op.perform A ch w).1 = b := congrArg Prod.fst h
  intro e he
  cases op with
  | registry op =>
    cases op <;> simp only [CtlOp.error?, RegistryOp.error?, CtlOp.perform, RegistryOp.perform,
      failure_eq_some] at he <;> split at he <;>
      first
      | (rw [← Except.error.inj he]; rfl)
      | cases he
  | podman op =>
    cases op <;> simp only [CtlOp.error?, PodmanOp.error?, CtlOp.perform, PodmanOp.perform,
      failure_eq_some] at he <;> repeat' split at he
    all_goals
      first
      | exact podmanCall_error he
      | (rw [← Except.error.inj he]; rfl)
      | cases he
  | host op =>
    cases op with
    | allocatePort =>
      simp only [CtlOp.error?, HostOp.error?, CtlOp.perform, HostOp.perform, failure_eq_some] at he
      split at he
      · rw [← Except.error.inj he]
        rfl
      · cases he
    | _ => cases he

namespace Control

/-- The task never ends with a divergence. -/
abbrev Firm {α : Type} (t : CtlTask α) : Prop :=
  Task.FailsOnly CtlOp.Admits (fun e => e.isDiverged = false) t

theorem firm_ask {α : Type} {op : CtlOp (Except Error α)}
    (h : ∀ e, op.error? (.error e) = some e) : Firm (Task.ask op) :=
  .ask fun e he => he e (h e)

theorem firm_registry {α : Type} {op : RegistryOp (Except Error α)}
    (h : ∀ e, op.error? (.error e) = some e) : Firm (registry op) := firm_ask h

theorem firm_podman {α : Type} {op : PodmanOp (Except Error α)}
    (h : ∀ e, op.error? (.error e) = some e) : Firm (podman op) := firm_ask h

theorem firm_event (k : ClusterId) (ordinal : Option UInt32) (level message : String) :
    Firm (recordEvent k ordinal level message) := firm_registry fun _ => rfl

theorem firm_ignore {α : Type} (t : CtlTask α) : Firm (ignore t) :=
  .bind (.attempt t) fun _ => .pure _

theorem firm_instanceRow (k : ClusterId) (ordinal : UInt32) : Firm (instanceRow k ordinal) :=
  .bind (firm_registry fun _ => rfl) fun _ => .pure _

/-! ### Jobs -/

theorem firm_agentBinary (host : Host) : Firm (agentBinary host) := by
  refine .bind (.perform _) fun there => ?_
  split
  · exact .pure _
  · exact .throw rfl

theorem firm_logsOrWhyNot (ref : String) : Firm (logsOrWhyNot ref) := by
  refine .bind (.attempt _) fun r => ?_
  cases r <;> exact .pure _

theorem firm_upgradeJob {α : Type} (host : Host) (read : Report → Option α) (m : ClusterManifest)
    (inst : InstanceId) (job : String) (argv : List String) (specEnv : Option String)
    (wait : Duration) : Firm (upgradeJob host read m inst job argv specEnv wait) := by
  refine .bind (firm_agentBinary _) fun agent => ?_
  refine .bind ?_ fun _ => ?_
  · refine .bind (firm_podman fun _ => rfl) fun probe => ?_
    cases probe with
    | none => exact .pure _
    | some p => exact .bind (firm_ignore _) fun _ => firm_ignore _
  refine .bind (firm_podman fun _ => rfl) fun id => ?_
  refine .bind (firm_podman fun _ => rfl) fun _ => ?_
  refine .bind ?_ fun code => ?_
  · refine .bind (firm_podman fun _ => rfl) fun code => ?_
    cases code with
    | some code => exact .pure _
    | none => exact .throw rfl
  refine .bind (firm_logsOrWhyNot _) fun logs => ?_
  refine .bind (firm_ignore _) fun _ => ?_
  split
  · exact .throw rfl
  · refine .ofExcept fun e he => ?_
    cases hparse : parseReport read logs with
    | ok report =>
      rw [hparse] at he
      cases he
    | error why =>
      rw [hparse] at he
      rw [← Except.error.inj he]
      rfl

theorem firm_applyChecks (host : Host) (m : ClusterManifest) (k : ClusterId) :
    Firm (applyChecks host m k) := by
  refine .bind (.ofExcept fun e he => ?_) fun _ => ?_
  · unfold validateParameters at he
    split at he
    · rw [← Except.error.inj he]
      rfl
    · cases he
  refine .bind (firm_agentBinary _) fun agent => ?_
  refine .bind (firm_registry fun _ => rfl) fun existing => ?_
  refine .bind (firm_podman fun _ => rfl) fun _ => ?_
  refine .bind (firm_podman fun _ => rfl) fun desiredImageId => ?_
  refine .bind ?_ fun _ => .pure _
  refine .bind (firm_podman fun _ => rfl) fun there => ?_
  split
  · exact .pure _
  refine .bind (firm_podman fun _ => rfl) fun probe => ?_
  split
  · exact .pure _
  refine .bind (firm_upgradeJob _ _ _ _ _ _ _ _) fun report => .ofExcept fun e he => ?_
  unfold compareVersions at he
  split at he
  · cases he
  · simp only at he
    split at he
    · cases he
    · split at he <;> rw [← Except.error.inj he] <;> rfl

/-! ### Secrets -/

theorem firm_ensureSecret (restoring : Bool) (name source : String) :
    Firm (ensureSecret restoring name source) := by
  have hput (value : String) : Firm (podman (.putSecret name value)) := firm_podman fun _ => rfl
  have hgenerated : Firm (do
      let generated ← Task.perform (.host .generatePassword)
      podman (.putSecret name generated)
      pure restoring : CtlTask Bool) :=
    .bind (.perform _) fun generated => .bind (hput generated) fun _ => .pure _
  refine .bind (firm_podman fun _ => rfl) fun there => ?_
  split
  · exact .pure _
  split
  · refine .bind (firm_podman fun _ => rfl) fun adopted => ?_
    cases adopted with
    | some value => exact .bind (hput value) fun _ => .pure _
    | none => exact hgenerated
  · exact hgenerated

theorem firm_ensureSecrets (k : ClusterId) (m : ClusterManifest) (b : Bootstrap) :
    Firm (ensureSecrets k m b) := by
  have heach : ∀ restoring wantsApp appOwner pairs,
      Firm (ensureEach k restoring wantsApp appOwner pairs) := by
    intro restoring wantsApp appOwner pairs
    induction pairs with
    | nil => exact .pure _
    | cons pair rest ih =>
      obtain ⟨name, source⟩ := pair
      unfold ensureEach
      split
      · exact ih
      · exact .bind (firm_ensureSecret _ _ _) fun _ => .bind ih fun _ => .pure _
  refine .bind (.ofExcept fun e he => ?_) fun source => ?_
  · cases b with
    | initdb _ => cases he
    | recovery r =>
      simp only [recoverySource] at he
      split at he
      · cases he
      · rw [← Except.error.inj he]
        rfl
  refine .bind (heach _ _ _ _) fun unavailable => ?_
  split
  · exact .pure _
  · exact .bind (firm_event _ _ _ _) fun _ => .pure _

/-! ### Waiting, and the rotation -/

theorem firm_notReady {α : Type} (inst : InstanceId) (timeout : Duration) (last : String) :
    Firm (notReady inst timeout last : CtlTask α) :=
  .bind (firm_logsOrWhyNot _) fun _ => .throw rfl

theorem firm_markRunning (inst : InstanceId) : Firm (markRunning inst) := by
  refine .bind (firm_instanceRow _ _) fun row => ?_
  cases row with
  | some row => exact firm_registry fun _ => rfl
  | none => exact .pure _

theorem firm_pollReady (inst : InstanceId) (timeout : Duration) (rounds : Nat) (last : String) :
    Firm (pollReady inst timeout rounds last) := by
  induction rounds generalizing last with
  | zero => exact firm_notReady _ _ _
  | succ rounds ih =>
    have hagain : ∀ last : String, Firm (do
        let probe ← podman (.probe inst.containerName)
        if probe.any fun p => !p.running then notReady inst timeout last
        else pollReady inst timeout rounds last : CtlTask Unit) := by
      intro last
      refine .bind (firm_podman fun _ => rfl) fun probe => ?_
      split
      · exact firm_notReady _ _ _
      · exact ih _
    refine .bind (.perform _) fun time => ?_
    split
    · exact firm_notReady _ _ _
    refine .bind (.attempt _) fun r => ?_
    cases r with
    | error e => exact hagain _
    | ok out =>
      simp only
      split
      · exact firm_markRunning _
      · exact hagain _

theorem firm_pollWritable (inst : InstanceId) (timeout : Duration) (rounds : Nat) (last : String) :
    Firm (pollWritable inst timeout rounds last) := by
  induction rounds generalizing last with
  | zero => exact .throw rfl
  | succ rounds ih =>
    have hagain : ∀ last : String, Firm (do
        let probe ← podman (.probe inst.containerName)
        if probe.any fun p => !p.running then neverWritable inst timeout last
        else pollWritable inst timeout rounds last : CtlTask Unit) := by
      intro last
      refine .bind (firm_podman fun _ => rfl) fun probe => ?_
      split
      · exact .throw rfl
      · exact ih _
    refine .bind (.perform _) fun time => ?_
    split
    · exact .throw rfl
    refine .bind (.attempt _) fun r => ?_
    cases r with
    | error e => exact hagain _
    | ok out =>
      simp only
      split
      · exact .pure _
      · split
        · exact hagain _
        · exact hagain _

theorem firm_rotateRestoredRoles (k : ClusterId) (rotate : List (String × String)) :
    Firm (rotateRestoredRoles k rotate) := by
  have hrole : ∀ container names role which, Firm (rotateRole k container names role which) := by
    intro container names role which
    refine .bind (firm_podman fun _ => rfl) fun value => ?_
    cases value with
    | none => exact .throw rfl
    | some password =>
      refine .bind (.ofExcept fun e he => ?_) fun sql => ?_
      · unfold alterRolePasswordSql at he
        split at he
        · cases he
        · rw [← Except.error.inj he]
          rfl
      refine .bind (firm_podman fun _ => rfl) fun out => ?_
      split
      · exact .throw rfl
      · exact firm_event _ _ _ _
  have heach : ∀ container names roles, Firm (rotateEach k container names roles) := by
    intro container names roles
    induction roles with
    | nil => exact .pure _
    | cons role rest ih => exact .bind (hrole _ _ _ _) fun _ => ih
  unfold rotateRestoredRoles
  split
  · exact .pure _
  refine .bind ?_ fun container => .bind (firm_pollWritable _ _ _ _) fun _ => heach _ _ _
  refine .bind (firm_podman fun _ => rfl) fun probe => ?_
  cases probe with
  | none => exact .throw rfl
  | some p =>
    simp only
    split
    · exact .pure _
    · exact .throw rfl

theorem firm_settleInstances (k : ClusterId) (m : ClusterManifest) (options : ApplyOptions)
    (rotate : List (String × String)) : Firm (settleInstances k m options rotate) := by
  have hwait : ∀ wait os, Firm (waitEach k wait os) := by
    intro wait os
    induction os with
    | nil => exact .pure _
    | cons ordinal rest ih => exact .bind (firm_pollReady _ _ _ _) fun _ => ih
  unfold settleInstances
  split
  · exact .bind (hwait _ _) fun _ => firm_rotateRestoredRoles _ _
  · exact .when (firm_event _ _ _ _)

theorem addBackupMounts_eq_error {host : Host} {m : ClusterManifest} {spec : InstanceSpec}
    {c : ContainerSpec} {e : Error} (h : addBackupMounts host m spec c = .error e) :
    e = .pgBackRestMissing host.pgbackrestBundle := by
  unfold addBackupMounts pgbackrestBundle at h
  by_cases hneeds : (spec.backup.isEnabled || spec.recovery.isSome) = true
  · rw [if_pos hneeds] at h
    by_cases hinst : host.bundleInstalled = true
    · rw [if_pos hinst] at h
      cases hvolume : archiveVolume m <;> simp [hvolume, bind, Except.bind, pure, Except.pure] at h
    · simp only [hinst, bind, Except.bind] at h
      exact (Except.error.inj h).symm
  · rw [if_neg hneeds] at h
    cases hvolume : archiveVolume m <;> simp [hvolume, bind, Except.bind, pure, Except.pure] at h

theorem firm_containerSpec (host : Host) (m : ClusterManifest) (inst : InstanceId)
    (ctx : ApplyContext) (port : UInt16) :
    Firm (Task.ofExcept (containerSpec host m inst ctx port)) := by
  refine .ofExcept fun e he => ?_
  simp only [containerSpec, except_bind_eq_error] at he
  rcases he with he | ⟨spec, -, he | ⟨env, -, he | ⟨c, -, he⟩⟩⟩
  · simp only [instanceSpec] at he
    split at he
    · cases he
    · rw [← Except.error.inj he]
      rfl
  · cases henv : spec.toEnvValue host.crates with
    | ok text =>
      rw [henv] at he
      cases he
    | error why =>
      rw [henv] at he
      rw [← Except.error.inj he]
      rfl
  · rw [addBackupMounts_eq_error he]
    rfl
  · cases he

theorem firm_createAndStart (spec : ContainerSpec) : Firm (createAndStart spec) :=
  .bind (firm_podman fun _ => rfl) fun _ => .bind (firm_podman fun _ => rfl) fun _ => .pure _

/-! ## What a refusal leaves behind -/

/-- The operation makes, starts, stops and removes no container. -/
def Idle : ∀ ⦃β : Type⦄, CtlOp β → Prop
  | _, .podman (.createContainer _) | _, .podman (.start _) | _, .podman (.stop ..)
  | _, .podman (.remove _) => False
  | _, _ => True

theorem Plain.idle {β : Type} {op : CtlOp β} (h : Plain op) : Idle op := by
  cases op with
  | podman op => cases op <;> first | exact h | trivial
  | _ => trivial

/-- The operation writes and removes no instance's row. -/
def KeepsRows : ∀ ⦃β : Type⦄, CtlOp β → Prop
  | _, .registry (.putInstance _) | _, .registry (.deleteCluster _) => False
  | _, _ => True

theorem Quiet.keepsRows {β : Type} {op : CtlOp β} (h : Quiet op) : KeepsRows op := by
  cases op with
  | registry op => cases op <;> first | exact h | trivial
  | _ => trivial

/-- What a refusal says of the instance: it is being created, on the port it had if it had one. -/
def LeftCreating (inst : InstanceId) (before : Option InstanceRecord) (R : Registry) : Prop :=
  ∃ port, R.instanceAt inst.cluster.name inst.ordinal =
      some (instanceRecordOf inst inst.volumeName port none .creating) ∧
    ∀ row, before = some row → port = row.hostPort

theorem instanceAt_congr {R R' : Registry} (h : R'.instances = R.instances) (name : String)
    (ordinal : UInt32) : R'.instanceAt name ordinal = R.instanceAt name ordinal := by
  unfold Registry.instanceAt Registry.instancesOf
  rw [h]

theorem instanceAt_putInstance (R : Registry) (rec : InstanceRecord) :
    (R.putInstance rec).instanceAt rec.cluster rec.ordinal = some rec := by
  unfold Registry.instanceAt Registry.instancesOf Registry.putInstance
  have hnone : (R.instances.filter fun r => !(r.cluster = rec.cluster && r.ordinal = rec.ordinal)).find?
      (fun r => decide (r.cluster = rec.cluster ∧ r.ordinal = rec.ordinal)) = none := by
    rw [List.find?_eq_none]
    intro r hr
    have hne := (List.mem_filter.mp hr).2
    grind
  rw [List.find?_filter, List.find?_append]
  grind

/-- A host on which the containers do on their own what `calm` allows. -/
abbrev calmHost (A : Agent.Code) (calm : World → World → Prop) : Machine CtlOp World :=
  (hostMachine A).restrict (fun _ _ _ _ _ => True) calm

section Refusal

variable {A : Agent.Code} {calm : World → World → Prop} {α β : Type} {w u : World} {e : Error}

theorem Firm.error {t : CtlTask α} (ht : Firm t)
    (h : (calmHost A calm).Reach t.run w (.ret (.error e)) u) : e.isDiverged = false :=
  h.ends (M := calmHost A calm) (fun _ _ _ _ _ hstep => hostMachine_admits hstep.1) ht e rfl

/-- A divergence comes out of the second part when the first part knows of none. -/
theorem refused_bind {t : CtlTask α} {f : α → CtlTask β} (ht : Firm t) (he : e.isDiverged = true)
    (h : (calmHost A calm).Reach (t >>= f).run w (.ret (.error e)) u) :
    ∃ a v, (calmHost A calm).Reach t.run w (.ret (.ok a)) v ∧
      (calmHost A calm).Reach (f a).run v (.ret (.error e)) u := by
  rcases h.task_bind_inv with hok | ⟨e', heq, hfirst⟩
  · exact hok
  · obtain rfl := Except.error.inj heq
    rw [ht.error hfirst] at he
    cases he

theorem reach_host {p q : Prog CtlOp α} (h : (calmHost A calm).Reach p w q u) :
    (hostMachine A).Reach p w q u :=
  h.mono (M := calmHost A calm) (fun _ _ _ _ _ hstep => hstep.1) fun _ _ hd => hd.1

theorem registry_step {op : CtlOp β} {b : β} (h : (calmHost A calm).step op w b u) :
    Registry.step Registry.anyPort op w.registry b u.registry :=
  hostMachine_registry h.1 (Registry.allocates_anyPort op w.registry b)

theorem Registry.instances_kept {op : CtlOp β} {R R' : Registry} {b : β} (hop : KeepsRows op)
    (h : Registry.step Registry.anyPort op R b R') : R'.instances = R.instances := by
  cases op with
  | registry op =>
    obtain ⟨ch, h⟩ := h
    cases op with
    | putCluster m phase =>
      simp only [RegistryOp.perform] at h
      split at h <;> rw [← (Prod.mk.inj h).2]
      exact Registry.putCluster_instances R m phase
    | putPooler m containerName containerId hostPort phase pools =>
      simp only [RegistryOp.perform] at h
      split at h <;> rw [← (Prod.mk.inj h).2]
      unfold Registry.putPooler
      cases R.pooler m.metadata.name <;> rfl
    | putInstance _ | deleteCluster _ => exact hop.elim
    | setClusterPhase _ _ | deletePooler _ =>
      simp only [RegistryOp.perform] at h
      split at h <;> rw [← (Prod.mk.inj h).2]
      rfl
    | _ =>
      simp only [RegistryOp.perform] at h
      split at h <;> rw [← (Prod.mk.inj h).2]
  | podman op =>
    cases op with
    | createVolume name => rw [h.1]
    | _ =>
      obtain rfl := h
      rfl
  | host op =>
    cases op with
    | allocatePort => rw [h.1]
    | _ =>
      obtain rfl := h
      rfl

theorem instances_kept {t : CtlTask α} {q : Prog CtlOp (Except Error α)}
    (ht : t.run.Calls KeepsRows) (h : (calmHost A calm).Reach t.run w q u) :
    u.registry.instances = w.registry.instances := by
  refine h.keeps (I := fun s => s.registry.instances = w.registry.instances) (fun s t hd hs => ?_)
    (fun β op s b t hop hs hstep => ?_) ht rfl
  · obtain ⟨d, rfl⟩ := hd.1
    have hsame : ((hostExec A).move d s).registry = s.registry := s.registry_drift d
    rw [hsame, hs]
  · rw [Registry.instances_kept hop (registry_step hstep), hs]

variable {C : World → Prop}
  (hidle : ∀ {γ : Type} {t : CtlTask γ} {w u : World} {r : Except Error γ}, t.run.Calls Idle → C w →
    (calmHost A calm).Reach t.run w (.ret r) u → C u)

include hidle

/-- A running container that is not to be recreated: the refusal comes right after the probe. -/
theorem convergeContainer_refused {host : Host} {m : ClusterManifest} {inst : InstanceId}
    {ctx : ApplyContext} {port : UInt16} (hrec : ctx.recreate = false) (he : e.isDiverged = true)
    (hw : C w) (h : (calmHost A calm).Reach (convergeContainer host m inst ctx port).run w
      (.ret (.error e)) u) : C u ∧ u.registry.instances = w.registry.instances := by
  obtain ⟨probe, v, hprobe, h⟩ := refused_bind (firm_podman fun _ => rfl) he h
  have hv : C v := hidle (t := podman (.probe inst.containerName)) (Task.calls_ask trivial) hw hprobe
  have hrows := instances_kept (t := podman (.probe inst.containerName)) (Task.calls_ask trivial)
    hprobe
  have hfirm : ∀ {t : CtlTask String}, Firm t → ¬ (calmHost A calm).Reach t.run v (.ret (.error e)) u := by
    intro t ht hr
    rw [ht.error hr] at he
    cases he
  cases probe with
  | none =>
    refine absurd h (hfirm ?_)
    exact .bind (firm_containerSpec _ _ _ _ _) fun spec =>
      .bind (firm_podman fun _ => rfl) fun _ => firm_createAndStart _
  | some p =>
    cases hrun : p.running <;> cases hsame : refuseIfDiverged host m inst ctx p <;>
      simp only [hrun, hsame] at h
    · refine absurd h (hfirm ?_)
      refine .bind (firm_event _ _ _ _) fun _ => .bind (firm_containerSpec _ _ _ _ _) fun spec => ?_
      refine .bind (firm_podman fun _ => rfl) fun _ => .bind (firm_podman fun _ => rfl) fun _ => ?_
      exact firm_createAndStart _
    · exact absurd h (hfirm (.bind (firm_podman fun _ => rfl) fun _ => .pure _))
    · next e' =>
      rw [hrec, if_neg Bool.false_ne_true] at h
      refine ⟨hidle (t := (Task.throw e' : CtlTask String)) trivial hv h, ?_⟩
      exact (instances_kept (t := (Task.throw e' : CtlTask String)) trivial h).trans hrows
    · exact absurd h (hfirm (.pure _))

/-- The row is written before the container is looked at. -/
theorem placed_refused {host : Host} {m : ClusterManifest} {inst : InstanceId} {ctx : ApplyContext}
    (hrec : ctx.recreate = false) (he : e.isDiverged = true) (port : UInt16) (hw : C w)
    (h : (calmHost A calm).Reach (do
      let volume ← podman (.createVolume inst.volumeName)
      registry (.putInstance (instanceRecordOf inst volume port none .creating))
      let id ← convergeContainer host m inst ctx port
      registry (.putInstance (instanceRecordOf inst volume port (some id) .bootstrapping))
      pure
        { inst := inst.toText
          container := inst.containerName
          volume
          hostPort := port
          connectionUri := connectionUri port m } : CtlTask InstanceSummary).run w
      (.ret (.error e)) u) :
    C u ∧ u.registry.instanceAt inst.cluster.name inst.ordinal =
      some (instanceRecordOf inst inst.volumeName port none .creating) := by
  obtain ⟨volume, w₁, hcreate, h⟩ := refused_bind (firm_podman fun _ => rfl) he h
  have hw₁ : C w₁ := hidle (t := podman (.createVolume inst.volumeName)) (Task.calls_ask trivial) hw
    hcreate
  have hvolume : volume = inst.volumeName := by
    obtain ⟨v, x, -, hstep, -⟩ := hcreate.perform_inv
    exact (registry_step hstep).2 volume rfl
  obtain ⟨_, w₂, hput, h⟩ := refused_bind (firm_registry fun _ => rfl) he h
  have hw₂ : C w₂ := hidle (t := registry (.putInstance
    (instanceRecordOf inst volume port none .creating))) (Task.calls_ask trivial) hw₁ hput
  have hrow : w₂.registry.instanceAt inst.cluster.name inst.ordinal =
      some (instanceRecordOf inst inst.volumeName port none .creating) := by
    obtain ⟨v, x, -, hstep, hdrifts⟩ := hput.perform_inv
    obtain ⟨ch, hstep⟩ := registry_step hstep
    simp only [RegistryOp.perform] at hstep
    split at hstep
    · cases (Prod.mk.inj hstep).1
    · have hrows := instances_kept (t := (pure () : CtlTask Unit)) trivial (.of_drifts hdrifts)
      rw [instanceAt_congr hrows, ← (Prod.mk.inj hstep).2, hvolume]
      exact instanceAt_putInstance _ _
  rcases h.task_bind_inv with ⟨id, w₃, -, hafter⟩ | ⟨e', heq, hconverge⟩
  · have hfirm : Firm (do
        registry (.putInstance (instanceRecordOf inst volume port (some id) .bootstrapping))
        pure
          { inst := inst.toText
            container := inst.containerName
            volume
            hostPort := port
            connectionUri := connectionUri port m } : CtlTask InstanceSummary) :=
      .bind (firm_registry fun _ => rfl) fun _ => .pure _
    rw [hfirm.error hafter] at he
    cases he
  · obtain rfl := Except.error.inj heq
    obtain ⟨hu, hrows⟩ := convergeContainer_refused hidle hrec he hw₂ hconverge
    exact ⟨hu, (instanceAt_congr hrows _ _).trans hrow⟩

theorem applyInstance_refused {host : Host} {m : ClusterManifest} {inst : InstanceId}
    {ctx : ApplyContext} (hrec : ctx.recreate = false) (he : e.isDiverged = true) (hw : C w)
    (h : (calmHost A calm).Reach (applyInstance host m inst ctx).run w (.ret (.error e)) u) :
    C u ∧ LeftCreating inst (w.registry.instanceAt inst.cluster.name inst.ordinal) u.registry := by
  obtain ⟨existing, w₁, hrow, h⟩ := refused_bind (firm_instanceRow _ _) he h
  have hw₁ : C w₁ := hidle ((instanceRow_plain _ _).mono fun _ _ => Plain.idle) hw hrow
  have hrows₁ := instances_kept ((instanceRow_plain _ _).mono fun _ _ h => h.quiet.keepsRows) hrow
  have hexisting : existing = w.registry.instanceAt inst.cluster.name inst.ordinal := by
    have hfound := (instanceRow_is (I := fun _ => True) inst.cluster inst.ordinal w.registry
      trivial).at_ret (hostMachine_reach_registry (reach_host hrow))
    rw [hfound.2 existing rfl, instanceAt_congr hrows₁]
  rw [← hexisting]
  cases existing with
  | some row =>
    obtain ⟨hu, hleft⟩ := placed_refused hidle hrec he row.hostPort hw₁ h
    exact ⟨hu, row.hostPort, hleft, fun _ heq => by rw [Option.some.inj heq]⟩
  | none =>
    obtain ⟨port, w₂, hport, h⟩ := refused_bind (firm_ask fun _ => rfl) he h
    have hw₂ : C w₂ := hidle (t := Task.ask (.host .allocatePort)) (Task.calls_ask trivial) hw₁ hport
    obtain ⟨hu, hleft⟩ := placed_refused hidle hrec he port hw₂ h
    exact ⟨hu, port, hleft, nofun⟩

theorem applyRecorded_refused {host : Host} {m : ClusterManifest} {k : ClusterId} {b : Bootstrap}
    {options : ApplyOptions} {agent : String} {desired : Option String}
    (hsingle : m.spec.instances = 1) (hrec : options.recreate = false) (he : e.isDiverged = true)
    (hw : C w) (h : (calmHost A calm).Reach
      (applyRecorded host m k b options agent desired).run w (.ret (.error e)) u) :
    C u ∧ LeftCreating (k.inst 1) (w.registry.instanceAt k.name 1) u.registry := by
  obtain ⟨cidr, w₁, hnetwork, h⟩ := refused_bind (firm_podman fun _ => rfl) he h
  have hw₁ : C w₁ := hidle (t := podman (.ensureNetwork k.networkName)) (Task.calls_ask trivial) hw
    hnetwork
  have hrows₁ := instances_kept (t := podman (.ensureNetwork k.networkName)) (Task.calls_ask trivial)
    hnetwork
  have hafter : ∀ v, C v → v.registry.instances = w₁.registry.instances →
      (calmHost A calm).Reach (do
        let ensured ← ensureSecrets k m b
        let summaries ← applyEach host m k
          { bootstrap := b, networkCidr := cidr, secrets := ensured.names, agent
            recreate := options.recreate, desiredImageId := desired } (ordinals m.spec.instances)
        settleInstances k m options ensured.rotate
        pure summaries : CtlTask (List InstanceSummary)).run v (.ret (.error e)) u →
      C u ∧ LeftCreating (k.inst 1) (w.registry.instanceAt k.name 1) u.registry := by
    intro v hv hrows h
    obtain ⟨ensured, w₂, hsecrets, h⟩ := refused_bind (firm_ensureSecrets _ _ _) he h
    have hw₂ : C w₂ := hidle ((ensureSecrets_plain _ _ _).mono fun _ _ => Plain.idle) hv hsecrets
    have hrows₂ := instances_kept
      ((ensureSecrets_plain _ _ _).mono fun _ _ h => h.quiet.keepsRows) hsecrets
    rcases h.task_bind_inv with ⟨summaries, w₃, -, hsettle⟩ | ⟨e', heq, heach⟩
    · have hfirm : Firm (do
          settleInstances k m options ensured.rotate
          pure summaries : CtlTask (List InstanceSummary)) :=
        .bind (firm_settleInstances _ _ _ _) fun _ => .pure _
      rw [hfirm.error hsettle] at he
      cases he
    · obtain rfl := Except.error.inj heq
      rw [hsingle] at heach
      rcases heach.task_bind_inv with ⟨summary, w₄, -, hpure⟩ | ⟨e', heq, hinst⟩
      · rw [Firm.error (.bind (.pure _) fun _ => .pure _) hpure] at he
        cases he
      · obtain rfl := Except.error.inj heq
        obtain ⟨hu, hleft⟩ := applyInstance_refused hidle hrec he hw₂ hinst
        rw [instanceAt_congr ((hrows₂.trans hrows).trans hrows₁)] at hleft
        exact ⟨hu, hleft⟩
  cases hvolume : m.spec.backup.volume with
  | none =>
    simp only [hvolume] at h
    exact hafter w₁ hw₁ rfl h
  | some volume =>
    simp only [hvolume] at h
    obtain ⟨_, w₂, hcreate, h⟩ := refused_bind (firm_podman fun _ => rfl) he h
    have hcalls : (podman (.createVolume volume)).run.Calls Plain := Task.calls_ask trivial
    refine hafter w₂ (hidle (hcalls.mono fun _ _ => Plain.idle) hw₁ hcreate) ?_ h
    exact instances_kept (hcalls.mono fun _ _ h => h.quiet.keepsRows) hcreate

/-- **A refused apply** leaves the row of an instance that is being created. -/
theorem applyWith_refused {host : Host} (m : AcceptedManifest) {options : ApplyOptions}
    (hchecks : ∀ {w u : World} {r}, C w →
      (calmHost A calm).Reach (applyChecks host m.manifest m.cluster).run w (.ret r) u → C u)
    (hrec : options.recreate = false) (he : e.isDiverged = true) (hw : C w)
    (h : (calmHost A calm).Reach (applyWith host m.manifest options).run w (.ret (.error e)) u) :
    C u ∧ LeftCreating (m.cluster.inst 1) (w.registry.instanceAt m.cluster.name 1) u.registry := by
  unfold applyWith applyWithBootstrap at h
  rw [m.clusterId_eq] at h
  obtain ⟨k, w₁, hcluster, h⟩ := refused_bind (.ofExcept fun _ heq => by cases heq) he h
  obtain rfl := Except.ok.inj (Prog.ret.inj hcluster.of_ret.1)
  have hw₁ : C w₁ := hidle (t := Task.ofExcept _) trivial hw hcluster
  have hrows₁ := instances_kept (t := Task.ofExcept _) trivial hcluster
  obtain ⟨⟨existed, agent, desired⟩, w₂, hrun, h⟩ := refused_bind (firm_applyChecks _ _ _) he h
  have hw₂ : C w₂ := hchecks hw₁ hrun
  have hrows₂ := instances_kept ((applyChecks_quiet _ _ _).mono fun _ _ => Quiet.keepsRows) hrun
  obtain ⟨generation, w₃, hput, h⟩ := refused_bind (firm_registry fun _ => rfl) he h
  have hw₃ : C w₃ := hidle (t := registry (.putCluster m.manifest .applying))
    (Task.calls_ask trivial) hw₂ hput
  have hrows₃ := instances_kept (t := registry (.putCluster m.manifest .applying))
    (Task.calls_ask trivial) hput
  obtain ⟨_, w₄, hevent, h⟩ := refused_bind (firm_event _ _ _ _) he h
  have hw₄ : C w₄ := hidle (t := recordEvent m.cluster none "info" "apply requested")
    (Task.calls_ask trivial) hw₃ hevent
  have hrows₄ := instances_kept (t := recordEvent m.cluster none "info" "apply requested")
    (Task.calls_ask trivial) hevent
  obtain ⟨r, w₅, hrecorded, h⟩ := h.attempt_bind_inv
  cases r with
  | ok summaries =>
    have hfirm : Firm (do
        registry (.setClusterPhase m.cluster .running)
        recordEvent m.cluster none "info" "apply complete"
        pure { cluster := m.cluster.name, generation, created := !existed, instances := summaries } :
          CtlTask ApplyReport) :=
      .bind (firm_registry fun _ => rfl) fun _ => .bind (firm_event _ _ _ _) fun _ => .pure _
    rw [hfirm.error h] at he
    cases he
  | error e' =>
    have hfailure : (recordApplyFailure m.cluster e').run.Calls Idle :=
      Task.calls_bind (ignore_calls (Task.calls_ask trivial)) fun _ =>
        ignore_calls (Task.calls_ask trivial)
    have hfailureRows : (recordApplyFailure m.cluster e').run.Calls KeepsRows :=
      Task.calls_bind (ignore_calls (Task.calls_ask trivial)) fun _ =>
        ignore_calls (Task.calls_ask trivial)
    obtain ⟨_, w₆, hrecord, h⟩ := refused_bind
      (.bind (firm_ignore _) fun _ => firm_ignore _) he h
    obtain rfl : e' = e := Except.error.inj (Prog.ret.inj h.of_ret.1).symm
    obtain ⟨hw₅, port, hleft, hport⟩ := applyRecorded_refused hidle m.instances_eq hrec he hw₄ hrecorded
    have hw₆ : C w₆ := hidle hfailure hw₅ hrecord
    have hrows₆ := instances_kept hfailureRows hrecord
    have hu : C u := hidle (t := Task.throw e') trivial hw₆ h
    have hrows := instances_kept (t := (Task.throw e' : CtlTask ApplyReport)) trivial h
    refine ⟨hu, port, ?_, fun row hrow => hport row ?_⟩
    · rw [instanceAt_congr (hrows.trans hrows₆)]
      exact hleft
    · rw [instanceAt_congr (((hrows₄.trans hrows₃).trans hrows₂).trans hrows₁)]
      exact hrow

end Refusal

/-! ## The container -/

/-- The container of a name, as it is. -/
structure Stands (name : String) (c : Container) (w : World) : Prop where
  found : w.find name = some c
  named : c.name = some name
  front : ∃ rest, name = "pgpod-" ++ rest
  id : ∃ n < w.nextId, c.id = "id-" ++ toString n

section Stands

variable {A : Agent.Code} {name : String} {c : Container} {w u : World}

/-- Everything runs on but the container of this name. -/
abbrev stillHost (A : Agent.Code) (name : String) : Machine CtlOp World :=
  calmHost A fun s t => t.find name = s.find name

namespace Stands

theorem congr (h : Stands name c w) (hcontainers : u.containers = w.containers)
    (hnext : u.nextId = w.nextId) : Stands name c u := by
  refine ⟨?_, h.named, h.front, hnext ▸ h.id⟩
  rw [← h.found]
  unfold World.find
  rw [hcontainers]

theorem update (h : Stands name c w) {ref : String} (href : c.answersTo ref = false)
    {f : Container → Container} (hid : ∀ c, (f c).id = c.id) (hspec : ∀ c, (f c).spec = c.spec) :
    Stands name c (w.update ref f) := by
  refine ⟨?_, h.named, h.front, h.id⟩
  rw [World.find_update hid hspec, h.found, Option.map_some, href]
  rfl

theorem drop (h : Stands name c w) {ref : String} (href : c.answersTo ref = false) :
    Stands name c (w.drop ref) := by
  refine ⟨?_, h.named, h.front, h.id⟩
  have hfound := h.found
  obtain ⟨hanswers, before, after, heq, hbefore⟩ := List.find?_eq_some_iff_append.mp hfound
  unfold World.find World.drop
  refine List.find?_eq_some_iff_append.mpr ⟨hanswers, before.filter fun c => !c.answersTo ref,
    after.filter fun c => !c.answersTo ref, ?_, fun a ha => hbefore a (List.mem_filter.mp ha).1⟩
  simp [heq, href]

/-- A container that is made is another one. -/
theorem create (h : Stands name c w) {spec : ContainerSpec} {id : String}
    (hcreate : w.create spec = some (id, u)) : Stands name c u ∧ c.answersTo id = false := by
  obtain ⟨n, hn, hid⟩ := h.id
  obtain ⟨rest, hrest⟩ := h.front
  unfold World.create at hcreate
  split at hcreate
  · split at hcreate
    · cases hcreate
    · obtain ⟨rfl, rfl⟩ := Prod.mk.inj (Option.some.inj hcreate)
      refine ⟨⟨?_, h.named, h.front, n, Nat.lt_succ_of_lt hn, hid⟩, ?_⟩
      · have hfound := h.found
        unfold World.find at hfound ⊢
        rw [List.find?_append, hfound, Option.some_or]
      · have hname : c.name ≠ some ("id-" ++ toString w.nextId) := by
          rw [h.named, hrest]
          exact fun heq => id_ne_name w.nextId rest (Option.some.inj heq).symm
        have hother : c.id ≠ "id-" ++ toString w.nextId := by
          rw [hid]
          intro heq
          have hlist := congrArg String.toList heq
          simp only [String.toList_append, List.append_cancel_left_eq] at hlist
          have hsame := Text.toString_inj (String.toList_injective hlist)
          omega
        rw [Container.answersTo, decide_eq_false hother, decide_eq_false hname]
        rfl
  · cases hcreate

/-- A job's container has another name. -/
theorem spares (h : Stands name c w) {rest : String} (hne : name ≠ "pgpod-" ++ rest) :
    c.answersTo ("pgpod-" ++ rest) = false := by
  obtain ⟨n, -, hid⟩ := h.id
  have hname : c.name ≠ some ("pgpod-" ++ rest) := by
    rw [h.named]
    exact fun heq => hne (Option.some.inj heq)
  have hother : c.id ≠ "pgpod-" ++ rest := hid ▸ id_ne_name n rest
  simp [Container.answersTo, hname, hother]

theorem drift (h : Stands name c w) (hd : (stillHost A name).drift w u) : Stands name c u := by
  obtain ⟨⟨d, hd⟩, hcalm⟩ := hd
  have hnext : u.nextId = w.nextId := by
    rw [← hd]
    exact congrArg Ledger.nextId (w.ledger_drift d)
  exact ⟨hcalm.trans h.found, h.named, h.front, hnext ▸ h.id⟩

end Stands

theorem stable_stands : (stillHost A name).Stable (Stands name c) := fun _ _ hd h => h.drift hd

theorem podmanCall_containers {α : Type} {ch : CtlChoice} {w u : World} {r : Except Error α}
    (h : u.containers = w.containers ∧ u.nextId = w.nextId) :
    (podmanCall ch w r u).2.containers = w.containers ∧ (podmanCall ch w r u).2.nextId = w.nextId := by
  cases hcall : podmanCall ch w r u with
  | mk b v =>
    rcases podmanCall_cases hcall with ⟨-, rfl | rfl⟩ | ⟨a, -, -, rfl⟩
    · exact ⟨rfl, rfl⟩
    · exact h
    · exact h

theorem containers_execIn (w : World) (c : Container) (proc : Process) (ch : CtlChoice)
    (cmd : ExecCommand) : (w.execIn c proc ch cmd).2.containers = w.containers ∧
      (w.execIn c proc ch cmd).2.nextId = w.nextId := by
  cases cmd with
  | psql stmt =>
    simp only [World.execIn, World.runStatement]
    split
    · split
      · cases c.volume <;> exact ⟨rfl, rfl⟩
      · exact ⟨rfl, rfl⟩
    · exact ⟨rfl, rfl⟩
  | catPgVersion =>
    simp only [World.execIn]
    split <;> exact ⟨rfl, rfl⟩
  | _ => exact ⟨rfl, rfl⟩

/-- What makes, starts, stops and removes no container leaves all of them alone. -/
theorem containers_idle {β : Type} {op : CtlOp β} {b : β} (hop : Idle op)
    (h : (hostMachine A).step op w b u) : u.containers = w.containers ∧ u.nextId = w.nextId := by
  obtain ⟨ch, h⟩ := h
  change CtlOp.perform A op ch w = (b, u) at h
  obtain rfl : (op.perform A ch w).2 = u := congrArg Prod.snd h
  cases op with
  | registry op => exact ⟨rfl, rfl⟩
  | host op => exact ⟨rfl, rfl⟩
  | podman op =>
    simp only [CtlOp.perform]
    cases op with
    | createContainer _ | start _ | stop _ _ | remove _ => exact hop.elim
    | exec ref cmd =>
      simp only [PodmanOp.perform]
      split
      · split
        · exact podmanCall_containers (containers_execIn _ _ _ _ _)
        · exact ⟨rfl, rfl⟩
      · exact ⟨rfl, rfl⟩
    | imageId _ | removeNetwork _ | volumeExists _ | secretExists _ | secretValue _
    | removeSecret _ | probe _ => exact podmanCall_containers ⟨rfl, rfl⟩
    | _ =>
      simp only [PodmanOp.perform]
      repeat' split
      all_goals first
        | exact podmanCall_containers ⟨rfl, rfl⟩
        | exact ⟨rfl, rfl⟩

theorem stands_idle {α : Type} {t : CtlTask α} (ht : t.run.Calls Idle) :
    (stillHost A name).Upholds (Stands name c) t fun _ => True :=
  .of_calls stable_stands (fun _ _ _ _ _ hop hs hstep =>
    hs.congr (containers_idle hop hstep.1).1 (containers_idle hop hstep.1).2) ht

theorem stands_plain {α : Type} {t : CtlTask α} (ht : t.run.Calls Plain) :
    (stillHost A name).Upholds (Stands name c) t fun _ => True :=
  stands_idle (ht.mono fun _ _ => Plain.idle)

theorem stands_ignore {α : Type} {t : CtlTask α}
    (ht : (stillHost A name).Upholds (Stands name c) t fun _ => True) :
    (stillHost A name).Upholds (Stands name c) (ignore t) fun _ => True :=
  .bind (ht.attempt stable_stands) fun _ _ => .pure stable_stands trivial

/-- A call on another container. -/
theorem stands_call {op : PodmanOp (Except Error Unit)} {f : CtlChoice → World → World}
    (hperform : ∀ ch w, op.perform A ch w = podmanCall ch w (.ok ()) (f ch w) ∨
      (op.perform A ch w).2 = w)
    (hf : ∀ ch w, Stands name c w → Stands name c (f ch w)) :
    (stillHost A name).Upholds (Stands name c) (podman op) fun _ => True := by
  refine .ask stable_stands fun w b u hs hstep => ⟨?_, fun _ _ => trivial⟩
  obtain ⟨ch, h⟩ := hstep.1
  change op.perform A ch w = (b, u) at h
  rcases hperform ch w with hcall | hsame
  · rw [hcall] at h
    rcases podmanCall_cases h with ⟨-, rfl | rfl⟩ | ⟨a, -, -, rfl⟩
    · exact hs
    · exact hf ch w hs
    · exact hf ch w hs
  · obtain rfl : u = w := by rw [← hsame, h]
    exact hs

theorem stands_create (spec : ContainerSpec) : (stillHost A name).Upholds (Stands name c)
    (podman (.createContainer spec)) fun id => c.answersTo id = false := by
  refine .ask stable_stands fun w b u hs hstep => ?_
  obtain ⟨ch, h⟩ := hstep.1
  change PodmanOp.perform A (.createContainer spec) ch w = (b, u) at h
  simp only [PodmanOp.perform] at h
  split at h
  · next id w' hmade =>
    obtain ⟨hs', hid⟩ := hs.create hmade
    rcases podmanCall_cases h with ⟨⟨e, rfl⟩, rfl | rfl⟩ | ⟨a, ha, rfl, rfl⟩
    · exact ⟨hs, by simp⟩
    · exact ⟨hs', by simp⟩
    · refine ⟨hs', fun id' hid' => ?_⟩
      rw [← Except.ok.inj hid', ← Except.ok.inj ha]
      exact hid
  · obtain ⟨rfl, rfl⟩ := Prod.mk.inj h
    exact ⟨hs, by simp⟩

section Other

variable {ref : String} (href : c.answersTo ref = false)

include href

theorem stands_start :
    (stillHost A name).Upholds (Stands name c) (podman (.start ref)) fun _ => True := by
  refine stands_call (f := fun _ w => w.boot A ref) (fun ch w => ?_) fun _ w hs => ?_
  · simp only [PodmanOp.perform]
    split
    · exact .inl rfl
    · exact .inr rfl
  · exact hs.update href (fun c => by split <;> rfl) fun c => by split <;> rfl

theorem stands_stop (timeout : Duration) :
    (stillHost A name).Upholds (Stands name c) (podman (.stop ref timeout)) fun _ => True := by
  refine stands_call (f := fun ch w => w.halt ref ch.code) (fun ch w => ?_) fun _ w hs => ?_
  · simp only [PodmanOp.perform]
    split
    · exact .inl rfl
    · exact .inr rfl
  · exact hs.update href (fun c => by split <;> rfl) fun c => by split <;> rfl

theorem stands_remove :
    (stillHost A name).Upholds (Stands name c) (podman (.remove ref)) fun _ => True := by
  refine stands_call (f := fun _ w => w.drop ref) (fun ch w => ?_) fun _ w hs => hs.drop href
  simp only [PodmanOp.perform]
  split
  · exact .inl rfl
  · exact .inr rfl

end Other

/-- A job runs beside the container and is cleared away again. -/
theorem stands_upgradeJob {γ : Type} {host : Host} {read : Report → Option γ} {m : ClusterManifest}
    {inst : InstanceId} {job : String} {argv : List String} {specEnv : Option String}
    {wait : Duration} (hne : name ≠ inst.jobContainerName job) :
    (stillHost A name).Upholds (Stands name c)
      (upgradeJob host read m inst job argv specEnv wait) fun _ => True := by
  have hspares : ∀ w, Stands name c w → c.answersTo (inst.jobContainerName job) = false := by
    have hfront : inst.jobContainerName job =
        "pgpod-" ++ (inst.cluster.name ++ "-" ++ inst.ordinalText ++ "-" ++ job) := by
      simp [InstanceId.jobContainerName, String.append_assoc]
    rw [hfront] at hne ⊢
    exact fun w hs => hs.spares hne
  have hrun : c.answersTo (inst.jobContainerName job) = false →
      (stillHost A name).Upholds (Stands name c)
        (upgradeJob host read m inst job argv specEnv wait) fun _ => True := by
    intro hspares
    refine .bind (stands_plain (agentBinary_plain _)) fun agent _ => ?_
    refine .bind (Q := fun _ => True) ?_ fun _ _ => ?_
    · refine .bind (stands_plain (Task.calls_ask trivial)) fun probe _ => ?_
      cases probe with
      | none => exact .pure stable_stands trivial
      | some p =>
        refine .bind (stands_ignore (stands_stop hspares _)) fun _ _ => ?_
        exact stands_ignore (stands_remove hspares)
    refine .bind (stands_create _) fun id hid => ?_
    refine .bind (stands_start hid) fun _ _ => ?_
    refine .bind (stands_plain (waitForJob_plain _ _ _ _)) fun code _ => ?_
    refine .bind (stands_plain (logsOrWhyNot_plain _)) fun logs _ => ?_
    refine .bind (stands_ignore (stands_remove hid)) fun _ _ => ?_
    split
    · exact .throw stable_stands
    · exact stands_plain (Task.calls_ofExcept _)
  exact fun w r u hs => hrun (hspares w hs) w r u hs

theorem stands_applyChecks (host : Host) (m : ClusterManifest) (k : ClusterId) :
    (stillHost A (k.inst 1).containerName).Upholds (Stands (k.inst 1).containerName c)
      (applyChecks host m k) fun _ => True := by
  refine .bind (stands_plain (Task.calls_ofExcept _)) fun _ _ => ?_
  refine .bind (stands_plain (agentBinary_plain _)) fun agent _ => ?_
  refine .bind (stands_plain (Task.calls_ask trivial)) fun existing _ => ?_
  refine .bind (stands_idle (Task.calls_ask trivial)) fun _ _ => ?_
  refine .bind (stands_plain (Task.calls_ask trivial)) fun desired _ => ?_
  refine .bind (Q := fun _ => True) ?_ fun _ _ => .pure stable_stands trivial
  refine .bind (stands_plain (Task.calls_ask trivial)) fun there _ => ?_
  split
  · exact .pure stable_stands trivial
  refine .bind (stands_plain (Task.calls_ask trivial)) fun probe _ => ?_
  split
  · exact .pure stable_stands trivial
  refine .bind (stands_upgradeJob fun heq => ?_) fun report _ => stands_plain (Task.calls_ofExcept _)
  exact (k.inst 1).jobContainerName_ne "image-probe" heq.symm

end Stands

/-! ## The refusal -/

/-- **What a refusal changes**: the row of the instance, unless it was already the row of one that
is being created.  The container is the one it was, as far as apply is concerned. -/
theorem refused_apply_spares_iff {A : Agent.Code} {host : Host} (m : AcceptedManifest)
    {options : ApplyOptions} (hrec : options.recreate = false) {w u : World} {inst detail : String}
    (h : (hostMachine A).Reach (applyWith host m.manifest options).run w
      (.ret (.error (.diverged inst detail))) u) :
    (u.registry.instanceAt m.cluster.name 1 = w.registry.instanceAt m.cluster.name 1 ↔
      ∃ port, w.registry.instanceAt m.cluster.name 1 = some (instanceRecordOf (m.cluster.inst 1)
        (m.cluster.inst 1).volumeName port none .creating)) ∧
    ∀ c, Stands (m.cluster.inst 1).containerName c w →
      (stillHost A (m.cluster.inst 1).containerName).Reach (applyWith host m.manifest options).run w
        (.ret (.error (.diverged inst detail))) u →
      u.find (m.cluster.inst 1).containerName = some c := by
  constructor
  · have hany : (calmHost A fun _ _ => True).Reach (applyWith host m.manifest options).run w
        (.ret (.error (.diverged inst detail))) u :=
      h.mono (N := calmHost A fun _ _ => True) (fun _ _ _ _ _ hs => ⟨hs, trivial⟩)
        fun _ _ hd => ⟨hd, trivial⟩
    obtain ⟨-, port, hleft, hport⟩ := applyWith_refused (C := fun _ => True)
      (fun _ _ _ => trivial) m (fun _ _ => trivial) hrec rfl trivial hany
    constructor
    · intro hsame
      exact ⟨port, hsame.symm.trans hleft⟩
    · rintro ⟨port', hbefore⟩
      obtain rfl : port = port' := hport _ hbefore
      rw [hbefore]
      exact hleft
  · intro c hc hstill
    have hidle : ∀ {γ : Type} {t : CtlTask γ} {v x : World} {r : Except Error γ},
        t.run.Calls Idle → Stands (m.cluster.inst 1).containerName c v →
        (stillHost A (m.cluster.inst 1).containerName).Reach t.run v (.ret r) x →
        Stands (m.cluster.inst 1).containerName c x :=
      fun ht hv hr => (stands_idle ht _ _ _ hv hr).1
    obtain ⟨hu, -⟩ := applyWith_refused hidle m
      (fun hv hr => (stands_applyChecks host m.manifest m.cluster _ _ _ hv hr).1) hrec rfl hc hstill
    exact hu.found

namespace RefusalSample

/-- The minimal manifest with one more parameter. -/
def changed : AcceptedManifest where
  manifest :=
    { minimalManifest 999 with
      spec := { (minimalManifest 999).spec with
        postgresql := { parameters := .single "work_mem" "64MB" } } }
  accepted := by decide +kernel

def agentCode : Agent.Code := Agent.Sample.code {}

def options : ApplyOptions := ⟨⟨0⟩, false⟩

def script : List (CtlChoice ⊕ Drift) :=
  List.replicate 40 (.inl { number := 40001, text := "10.89.0.0/24" })

/-- The one spec that is read here is the one the container was made of. -/
def host : Host :=
  { minimalHost with
    crates := { minimalHost.crates with instanceSpecFromJson := fun _ => .ok minimalSpec } }

/-- A host on which the minimal manifest was applied, with this row of its instance. -/
def world (row : InstanceRecord) : World where
  registry := { clusters := [⟨"mydb", minimalManifest 999, 1, "running"⟩], instances := [row] }
  containers :=
    [{ id := "id-0"
       spec := minimalContainer 999
       image := ⟨"sha256:5a1e", Agent.Sample.image18⟩
       mounts := fun _ => some "s3cr3t"
       status := .running ⟨none, some 5432⟩
       reports := [] }]
  images _ := some ⟨"sha256:5a1e", Agent.Sample.image18⟩
  volumes _ := some fun _ => none
  secrets _ := some "s3cr3t"
  networks _ := some (some "10.89.0.0/24")
  nextId := 1

def running : InstanceRecord :=
  instanceRecordOf (mydb.inst 1) "pgpod-mydb-1-pgdata" 40001 (some "id-0") .running

def creating : InstanceRecord :=
  instanceRecordOf (changed.cluster.inst 1) (changed.cluster.inst 1).volumeName 40001 none .creating

/-- An apply of the changed manifest, without recreating. -/
def refusal (row : InstanceRecord) : Prog CtlOp (Except Error ApplyReport) × World :=
  (hostExec agentCode).follow script (applyWith host changed.manifest options).run (world row)

def refuses (p : Prog CtlOp (Except Error ApplyReport)) : Bool :=
  match p.value? with
  | some (.error e) => e.isDiverged
  | _ => false

theorem exists_of_refuses {p : Prog CtlOp (Except Error ApplyReport)} (h : refuses p = true) :
    ∃ inst detail, p = .ret (.error (.diverged inst detail)) := by
  unfold refuses at h
  cases hvalue : p.value? with
  | none =>
    rw [hvalue] at h
    cases h
  | some r =>
    rw [hvalue] at h
    obtain rfl := Prog.eq_ret_of_value hvalue
    cases r with
    | ok report => cases h
    | error e =>
      cases e with
      | diverged inst detail => exact ⟨inst, detail, rfl⟩
      | _ => cases h

/-- **A refused apply forgets the running instance**: its row says that it is being created and
has no container. -/
theorem refusal_rewrites_row : ∃ inst detail,
    (hostMachine agentCode).Reach (applyWith host changed.manifest options).run (world running)
      (.ret (.error (.diverged inst detail))) (refusal running).2 ∧
    ((world running).find "pgpod-mydb-1").any (fun c => c.status.isRunning) = true ∧
    (refusal running).2.registry.instanceAt "mydb" 1 ≠
      (world running).registry.instanceAt "mydb" 1 := by
  obtain ⟨inst, detail, heq⟩ := exists_of_refuses (p := (refusal running).1) (by decide +kernel)
  have hreach := (hostExec agentCode).follow_reach script
    (applyWith host changed.manifest options).run (world running)
  change (hostMachine agentCode).Reach _ _ (refusal running).1 (refusal running).2 at hreach
  rw [heq] at hreach
  refine ⟨inst, detail, hreach, by decide +kernel, ?_⟩
  have hcluster : changed.cluster.name = "mydb" := by decide +kernel
  have hrow : (world running).registry.instanceAt "mydb" 1 = some running := by decide +kernel
  obtain ⟨-, port, hleft, -⟩ := applyWith_refused (C := fun _ => True) (fun _ _ _ => trivial) changed
    (fun _ _ => trivial) (by decide) rfl trivial
    (hreach.mono (N := calmHost agentCode fun _ _ => True) (fun _ _ _ _ _ hs => ⟨hs, trivial⟩)
      fun _ _ hd => ⟨hd, trivial⟩)
  rw [hrow, ← hcluster]
  intro hsame
  have hphase : InstancePhase.creating = InstancePhase.running :=
    congrArg InstanceRecord.phase (Option.some.inj (hleft.symm.trans hsame))
  cases hphase

/-- Refused once more, the same apply changes nothing. -/
theorem refused_apply_spares_again :
    (refusal creating).2.registry.instanceAt "mydb" 1 =
      (world creating).registry.instanceAt "mydb" 1 ∧
    (refusal creating).2.find "pgpod-mydb-1" = (world creating).find "pgpod-mydb-1" := by
  obtain ⟨inst, detail, heq⟩ := exists_of_refuses (p := (refusal creating).1) (by decide +kernel)
  have hreach := (hostExec agentCode).follow_reach script
    (applyWith host changed.manifest options).run (world creating)
  have hstill : (stillHost agentCode "pgpod-mydb-1").Reach
      (applyWith host changed.manifest options).run (world creating) (refusal creating).1
      (refusal creating).2 := by
    refine (hostExec agentCode).follow_restrict script (fun _ _ _ _ _ => trivial) ?_ _ _
    intro d hd
    cases List.eq_of_mem_replicate hd
  change (hostMachine agentCode).Reach _ _ (refusal creating).1 (refusal creating).2 at hreach
  rw [heq] at hreach hstill
  have hcluster : changed.cluster.name = "mydb" := by decide +kernel
  have hinst : (changed.cluster.inst 1).containerName = "pgpod-mydb-1" := by decide +kernel
  have hrow : (world creating).registry.instanceAt "mydb" 1 = some creating := by decide +kernel
  obtain ⟨c, hc⟩ : ∃ c, (world creating).find "pgpod-mydb-1" = some c :=
    Option.isSome_iff_exists.mp (by decide +kernel)
  have hid : ((world creating).find "pgpod-mydb-1").map Container.id = some "id-0" := by
    decide +kernel
  have hnamed : ((world creating).find "pgpod-mydb-1").map Container.name =
      some (some "pgpod-mydb-1") := by decide +kernel
  rw [hc] at hid hnamed
  have hstands : Stands "pgpod-mydb-1" c (world creating) :=
    ⟨hc, Option.some.inj hnamed, ⟨"mydb-1", by decide +kernel⟩, 0, Nat.zero_lt_one,
      Option.some.inj hid⟩
  have hboth := refused_apply_spares_iff changed (by decide) hreach
  rw [hcluster, hinst] at hboth
  exact ⟨hboth.1.mpr ⟨40001, hrow⟩, (hboth.2 c hstands hstill).trans hc.symm⟩

end RefusalSample

end Control

end Pgpod
