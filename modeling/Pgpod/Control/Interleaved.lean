import Pgpod.Control.Refusal
import Pgpod.Control.Resumed
import Pgpod.Effect.Foreground

/-!
# Boot recovery beside other processes

The phases of all clusters are read once, when a recovery begins, and those of a cluster's
instances when it comes to the cluster; containers are started long after.  Nothing keeps another
process from recording another phase meanwhile, and nothing is read again before a start.
-/

namespace Pgpod

open Effect

namespace Control

/-! ## What the record says -/

/-- The cluster is recorded running. -/
def RecordedRunning (R : Registry) (name : String) : Prop :=
  ∃ c ∈ R.clusters, c.name = name ∧ c.phase = "running"

/-- The row is of an instance, whose container it names. -/
def OfInstance (row : InstanceRecord) : Prop :=
  ∃ i : InstanceId, row.cluster = i.cluster.name ∧ row.ordinal = i.ordinal ∧
    row.containerName = i.containerName

/-- Every row of an instance names the container of that instance. -/
def WellNamed (R : Registry) : Prop := ∀ row ∈ R.instances, OfInstance row

/-- A row of the instance says that it may be started. -/
def MayRestart (R : Registry) (i : InstanceId) : Prop :=
  ∃ row ∈ R.instances, row.cluster = i.cluster.name ∧ row.ordinal = i.ordinal ∧
    row.phase.blocksRestart = false

/-- The cluster is recorded running and the instance in a phase that does not block restart; or
the container of this name is a pooler's. -/
def LetsStart (i : InstanceId) (R : Registry) : Prop :=
  (RecordedRunning R i.cluster.name ∧ MayRestart R i) ∨
    ∃ p ∈ R.poolers, p.containerName = i.containerName

/-- What lets the instance be started is not taken away. -/
structure Respects (i : InstanceId) (R R' : Registry) : Prop where
  named : WellNamed R → WellNamed R'
  running : RecordedRunning R i.cluster.name → RecordedRunning R' i.cluster.name
  restartable : MayRestart R i → MayRestart R' i
  pooler : (∃ p ∈ R.poolers, p.containerName = i.containerName) →
    ∃ p ∈ R'.poolers, p.containerName = i.containerName

namespace Respects

variable {i : InstanceId} {R R' R'' : Registry}

theorem of_rows (hclusters : R'.clusters = R.clusters) (hinstances : R'.instances = R.instances)
    (hpoolers : R'.poolers = R.poolers) : Respects i R R' where
  named h := by
    unfold WellNamed
    rw [hinstances]
    exact h
  running h := by
    unfold RecordedRunning
    rw [hclusters]
    exact h
  restartable h := by
    unfold MayRestart
    rw [hinstances]
    exact h
  pooler h := by
    rw [hpoolers]
    exact h

theorem refl (R : Registry) : Respects i R R := of_rows rfl rfl rfl

theorem trans (h : Respects i R R') (h' : Respects i R' R'') : Respects i R R'' where
  named hR := h'.named (h.named hR)
  running hR := h'.running (h.running hR)
  restartable hR := h'.restartable (h.restartable hR)
  pooler hR := h'.pooler (h.pooler hR)

theorem letsStart (h : Respects i R R') (hstart : LetsStart i R) : LetsStart i R' :=
  hstart.imp (fun hboth => ⟨h.running hboth.1, h.restartable hboth.2⟩) h.pooler

/-- An instance that has come up is recorded running. -/
theorem putInstance {rec : InstanceRecord} (hrec : OfInstance rec) :
    Respects i R (R.putInstance { rec with phase := .running }) where
  named h row hrow := by
    rcases List.mem_append.1 hrow with hkept | hnew
    · exact h row (List.mem_of_mem_filter hkept)
    · obtain rfl := List.mem_singleton.1 hnew
      exact hrec
  running h := h
  restartable h := by
    obtain ⟨row, hrow, hcluster, hordinal, hunit⟩ := h
    by_cases hkey : row.cluster = rec.cluster ∧ row.ordinal = rec.ordinal
    · exact ⟨_, List.mem_append_right _ List.mem_cons_self, hkey.1.symm.trans hcluster,
        hkey.2.symm.trans hordinal, rfl⟩
    · refine ⟨row, List.mem_append_left _ (List.mem_filter.2 ⟨hrow, ?_⟩), hcluster, hordinal, hunit⟩
      rw [not_and_or] at hkey
      simpa using hkey
  pooler h := h

/-- What is written of another cluster takes nothing away. -/
theorem putCluster {m : ClusterManifest} (hne : m.metadata.name ≠ i.cluster.name)
    (phase : ClusterPhase) : Respects i R (R.putCluster m phase).2 where
  named h := by
    unfold WellNamed
    rw [R.putCluster_instances]
    exact h
  running h := by
    obtain ⟨c, hc, hname, hphase⟩ := h
    unfold Registry.putCluster
    cases R.cluster m.metadata.name with
    | none => exact ⟨c, List.mem_append_left _ hc, hname, hphase⟩
    | some old =>
      refine ⟨c, List.mem_map.mpr ⟨c, hc, if_neg fun heq => hne ?_⟩, hname, hphase⟩
      exact heq.symm.trans hname
  restartable h := by
    unfold MayRestart
    rw [R.putCluster_instances]
    exact h
  pooler h := by
    unfold Registry.putCluster
    cases R.cluster m.metadata.name with
    | none => exact h
    | some old => exact h

end Respects

/-- The registry as it came to be from an earlier one. -/
structure Since (i : InstanceId) (R₀ R : Registry) : Prop where
  named : WellNamed R
  respects : Respects i R₀ R

namespace Since

variable {i : InstanceId} {R₀ R R' : Registry}

theorem refl (h : WellNamed R) : Since i R R := ⟨h, .refl R⟩

theorem step (h : Since i R₀ R) (h' : Respects i R R') : Since i R₀ R' :=
  ⟨h'.named h.named, h.respects.trans h'⟩

theorem trans (h : Since i R₀ R) (h' : Since i R R') : Since i R₀ R' := h.step h'.respects

end Since

/-! ## One recovery, while the others respect what is recorded -/

/-- The registry under one process, the others respecting what is recorded. -/
def shared (i : InstanceId) : Machine CtlOp Registry where
  step := Registry.step Registry.anyPort
  drift := Respects i

/-- The container of the instance is started where the record lets it. -/
def StartsRecorded (i : InstanceId) : ∀ ⦃β : Type⦄, CtlOp β → Registry → Prop
  | _, .podman (.start ref), R => ref = i.containerName → LetsStart i R
  | _, _, _ => True

section Recovery

variable {i : InstanceId} {R₀ : Registry} {options : ResumeOptions}

theorem since_stable (i : InstanceId) (R₀ : Registry) : (shared i).Stable (Since i R₀) :=
  fun _ _ hd h => h.step hd

/-- What holds from a reading on held from the one before it. -/
theorem Since.carry {R₁ R : Registry} (h₀ : Since i R₀ R₁) (h₁ : Since i R₁ R) {α : Type}
    {p : Prog CtlOp α} (hp : (shared i).Keeps (StartsRecorded i) (Since i R₁) p) :
    (shared i).Safe (StartsRecorded i) (fun _ => Since i R₀) p R :=
  (hp R h₁).weaken fun _ _ h => h₀.trans h

/-- What does not write a row leaves what is recorded. -/
theorem respects_of_waits {β : Type} {op : CtlOp β} {R R' : Registry} {b : β} (hop : Waits op)
    (h : (shared i).step op R b R') : Respects i R R' := by
  cases op with
  | registry op =>
    cases op with
    | recordEvent k ordinal level message =>
      obtain ⟨ch, h⟩ := h
      simp only [RegistryOp.perform] at h
      split at h
      · obtain ⟨-, rfl⟩ := Prod.mk.inj h
        exact .refl R
      · obtain ⟨-, rfl⟩ := Prod.mk.inj h
        exact .of_rows rfl rfl rfl
    | _ => exact hop.elim
  | podman op =>
    cases op with
    | probe _ =>
      obtain rfl : R' = R := h
      exact .refl _
    | logs _ =>
      obtain rfl : R' = R := h
      exact .refl _
    | exec _ _ =>
      obtain rfl : R' = R := h
      exact .refl _
    | _ => exact hop.elim
  | host op =>
    cases op with
    | beforeDeadline =>
      obtain rfl : R' = R := h
      exact .refl _
    | _ => exact hop.elim

theorem waits_since {α : Type} {p : Prog CtlOp α} (hp : p.Calls Waits) :
    (shared i).Keeps (StartsRecorded i) (Since i R₀) p := by
  refine Machine.Triple.of_calls (since_stable i R₀) (fun β op R hop _ => ?_)
    (fun β op R b R' hop hR h => hR.step (respects_of_waits hop h)) hp
  cases op with
  | podman op => cases op <;> first | exact hop.elim | trivial
  | _ => trivial

/-! ### One container -/

theorem portProblem_since (port : Option UInt16) :
    (shared i).Keeps (StartsRecorded i) (Since i R₀) (portProblem port).run := by
  cases port with
  | none => exact .ret (since_stable i R₀) fun _ h => h
  | some port =>
    have hstep : ∀ (R : Registry) (b : Except String Unit) (R' : Registry), Since i R₀ R →
        (shared i).step (.host (.portAvailable port)) R b R' → Since i R₀ R' := by
      rintro R b R' hR rfl
      exact hR
    refine Machine.Triple.call (since_stable i R₀) (fun _ _ => trivial) hstep fun b => ?_
    cases b <;> exact .ret (since_stable i R₀) fun _ h => h

theorem startContainer_since {name cn : String} {port : Option UInt16} {dryRun : Bool}
    (hstart : cn = i.containerName → LetsStart i R₀) :
    (shared i).Keeps (StartsRecorded i) (Since i R₀) (startContainer name cn port dryRun).run := by
  refine Machine.Keeps.task_bind (since_stable i R₀) (portProblem_since port) fun problem => ?_
  cases dryRun with
  | true => exact .ret (since_stable i R₀) fun _ h => h
  | false =>
    cases problem with
    | some fact => exact .ret (since_stable i R₀) fun _ h => h
    | none =>
      have hone : (shared i).Keeps (StartsRecorded i) (Since i R₀) (podman (.start cn)).run := by
        refine .perform (since_stable i R₀) (fun _ => since_stable i R₀)
          (fun R hR href => hR.respects.letsStart (hstart href)) ?_
        rintro R b R' hR rfl
        exact hR
      refine Machine.Triple.attempt_bind hone fun r => ?_
      cases r <;> exact .ret (since_stable i R₀) fun _ h => h

theorem resumeContainer_since {name cn : String} {phase : ClusterPhase} {unit : InstancePhase}
    {port : Option UInt16} {dryRun : Bool}
    (hstart : phase.skipReason = none → unit.blocksRestart = false → cn = i.containerName →
      LetsStart i R₀) :
    (shared i).Keeps (StartsRecorded i) (Since i R₀)
      (resumeContainer name cn phase unit port dryRun).run := by
  refine Machine.Triple.attempt_bind (waits_since (Task.calls_ask trivial)) fun r => ?_
  cases r with
  | error e => exact .ret (since_stable i R₀) fun _ h => h
  | ok probe =>
    simp only
    cases hdecision : decideContainer phase unit probe with
    | adopt => exact .ret (since_stable i R₀) fun _ h => h
    | skip why => exact .ret (since_stable i R₀) fun _ h => h
    | missing => exact .ret (since_stable i R₀) fun _ h => h
    | start =>
      obtain ⟨hskip, hunit, -⟩ := decideContainer_start hdecision
      exact startContainer_since (hstart hskip hunit)

/-! ### What is read -/

/-- A list of rows, as they were when they were read. -/
theorem listed_since {α : Type} {op : RegistryOp (Except Error (List α))}
    (rows : Registry → List α) (hop : ∀ ch R, op.perform ch R =
      (if ch.fails then .error (.registry ch.text) else .ok (rows R), R)) :
    (shared i).Triple (StartsRecorded i) (Since i R₀) (registry op).run fun r R =>
      ∃ R₁, Since i R₀ R₁ ∧ Since i R₁ R ∧ ∀ found, r = .ok found → found = rows R₁ := by
  refine .perform (since_stable i R₀) (fun r => ?_) (fun _ _ => trivial) ?_
  · rintro R R' hd ⟨R₁, h₀, h₁, hrows⟩
    exact ⟨R₁, h₀, h₁.step hd, hrows⟩
  · rintro R b R' hR ⟨ch, h⟩
    rw [hop] at h
    obtain ⟨rfl, rfl⟩ := Prod.mk.inj h
    refine ⟨R, hR, .refl hR.named, fun found hfound => ?_⟩
    split at hfound
    · cases hfound
    · exact (Except.ok.inj hfound).symm

theorem instances_since (cluster : ClusterId) :
    (shared i).Triple (StartsRecorded i) (Since i R₀) (registry (.instances cluster)).run fun r R =>
      ∃ R₁, Since i R₀ R₁ ∧ Since i R₁ R ∧
        ∀ rows, r = .ok rows → rows = R₁.instancesOf cluster.name :=
  listed_since (Registry.instancesOf · cluster.name) fun _ _ => rfl

/-! ### Waiting -/

theorem markRunning_since (inst : InstanceId) :
    (shared i).Keeps (StartsRecorded i) (Since i R₀) (markRunning inst).run := by
  unfold markRunning instanceRow
  rw [Task.bind_assoc]
  refine Machine.Triple.task_bind (instances_since inst.cluster) (fun rows => ?_)
    (fun _ => since_stable i R₀) ?_
  · rintro R ⟨R₁, h₀, h₁, hrows⟩
    have hfound : ∀ row ∈ rows, OfInstance row := fun row hrow => by
      rw [hrows rows rfl] at hrow
      exact h₀.named row (List.mem_of_mem_filter hrow)
    refine Machine.Triple.strengthen (I := Since i R₀) ?_ (fun _ h => h) R (h₀.trans h₁)
    rw [Task.pure_bind]
    cases hfind : rows.find? fun row => row.ordinal = inst.ordinal with
    | none => exact .ret (since_stable i R₀) fun _ h => h
    | some row =>
      have hrow := hfound row (List.mem_of_find?_eq_some hfind)
      refine .perform (since_stable i R₀) (fun _ => since_stable i R₀) (fun _ _ => trivial) ?_
      rintro R b R' hR ⟨ch, h⟩
      simp only [RegistryOp.perform] at h
      split at h
      · obtain ⟨-, rfl⟩ := Prod.mk.inj h
        exact hR
      · obtain ⟨-, rfl⟩ := Prod.mk.inj h
        exact hR.step (.putInstance hrow)
  · rintro _ R ⟨R₁, h₀, h₁, -⟩
    exact h₀.trans h₁

theorem pollReady_since (inst : InstanceId) (timeout : Duration) (rounds : Nat) (last : String) :
    (shared i).Keeps (StartsRecorded i) (Since i R₀) (pollReady inst timeout rounds last).run := by
  induction rounds generalizing last with
  | zero => exact waits_since (notReady_waits _ _ _)
  | succ rounds ih =>
    have hagain : ∀ last, (shared i).Keeps (StartsRecorded i) (Since i R₀) (do
        let probe ← podman (.probe inst.containerName)
        if probe.any fun p => !p.running then notReady inst timeout last
        else pollReady inst timeout rounds last : CtlTask Unit).run := by
      intro last
      refine Machine.Keeps.task_bind (since_stable i R₀)
        (waits_since (Task.calls_ask trivial)) fun probe => ?_
      split
      · exact waits_since (notReady_waits _ _ _)
      · exact ih last
    unfold pollReady
    refine Machine.Keeps.task_bind (since_stable i R₀)
      (waits_since (Task.calls_perform trivial)) fun time => ?_
    split
    · exact waits_since (notReady_waits _ _ _)
    refine Machine.Triple.attempt_bind (waits_since (Task.calls_ask (.inl rfl))) fun r => ?_
    cases r with
    | error e => exact hagain _
    | ok out =>
      simp only
      split
      · exact markRunning_since inst
      · exact hagain _

theorem awaitStarted_since (inst : InstanceId) (outcome : UnitResume) :
    (shared i).Keeps (StartsRecorded i) (Since i R₀) (awaitStarted inst options outcome).run := by
  unfold awaitStarted
  cases decide (outcome.action = .started) with
  | false => exact .ret (since_stable i R₀) fun _ h => h
  | true =>
    rw [Task.when_true]
    refine Machine.Triple.attempt_bind (pollReady_since inst _ _ _) fun r => ?_
    cases r with
    | ok _ => exact .ret (since_stable i R₀) fun _ h => h
    | error e => exact waits_since (recordResumeEvent_waits _ _ _)

/-! ### Clusters and poolers -/

theorem resumeInstances_since {cluster : ClusterId} {phase : ClusterPhase}
    {todo : List InstanceRecord} (hstart : phase.skipReason = none → ∀ row ∈ todo,
      row.phase.blocksRestart = false → row.containerName = i.containerName → LetsStart i R₀) :
    (shared i).Keeps (StartsRecorded i) (Since i R₀)
      (resumeInstances cluster phase options todo).run := by
  induction todo with
  | nil => exact .ret (since_stable i R₀) fun _ h => h
  | cons row rest ih =>
    refine Machine.Keeps.task_bind (since_stable i R₀)
      (resumeContainer_since fun hskip => hstart hskip row List.mem_cons_self) fun outcome => ?_
    refine Machine.Keeps.task_bind (since_stable i R₀) (awaitStarted_since _ outcome) fun _ => ?_
    refine Machine.Keeps.task_bind (since_stable i R₀)
      (ih fun hskip row' hrow' => hstart hskip row' (List.mem_cons_of_mem _ hrow')) fun _ => ?_
    exact .ret (since_stable i R₀) fun _ h => h

theorem whenRecorded_since (b : Bool) (cluster level detail : String) :
    (shared i).Keeps (StartsRecorded i) (Since i R₀)
      (Task.when b (recordResumeEvent cluster level detail)).run := by
  cases b with
  | false => exact .ret (since_stable i R₀) fun _ h => h
  | true => exact waits_since (recordResumeEvent_waits _ _ _)

theorem resumeCluster_since {record : ClusterRecord} (hrecord : record ∈ R₀.clusters) :
    (shared i).Keeps (StartsRecorded i) (Since i R₀)
      (resumeCluster record.name record.phase options).run := by
  unfold resumeCluster
  cases hid : ClusterId.new record.name with
  | error e => exact .ret (since_stable i R₀) fun _ h => h
  | ok cluster =>
    have hname : cluster.name = record.name := ClusterId.new_eq_ok.1 hid
    simp only
    cases hskip : (ClusterPhase.parseLenient record.phase).skipReason with
    | some why =>
      refine Machine.Keeps.task_bind (since_stable i R₀) (whenRecorded_since _ _ _ _) fun _ => ?_
      exact .ret (since_stable i R₀) fun _ h => h
    | none =>
      have hrun : RecordedRunning R₀ cluster.name :=
        ⟨record, hrecord, hname.symm, parseLenient_running.1 hskip⟩
      refine Machine.Triple.task_bind (instances_since cluster) (fun rows => ?_)
        (fun _ => since_stable i R₀) ?_
      · rintro R ⟨R₁, h₀, h₁, hrows⟩
        have hstart : ∀ row ∈ resumeOrder rows, row.phase.blocksRestart = false →
            row.containerName = i.containerName → LetsStart i R₁ := by
          intro row hrow hunit href
          have hmem := List.mem_mergeSort.1 hrow
          rw [hrows rows rfl] at hmem
          obtain ⟨hmem, hcluster⟩ := List.mem_filter.1 hmem
          have hcluster : row.cluster = cluster.name := of_decide_eq_true hcluster
          obtain ⟨j, hj, hordinal, hjname⟩ := h₀.named row hmem
          obtain rfl := Named.inst_containerName_inj (hjname.symm.trans href)
          refine .inl ⟨h₀.respects.running ?_, row, hmem, hj, hordinal, hunit⟩
          rw [← hj, hcluster]
          exact hrun
        refine h₀.carry h₁ ?_
        refine Machine.Keeps.task_bind (since_stable i R₁)
          (resumeInstances_since fun _ => hstart) fun units => ?_
        refine Machine.Keeps.task_bind (since_stable i R₁) (whenRecorded_since _ _ _ _) fun _ => ?_
        exact .ret (since_stable i R₁) fun _ h => h
      · rintro _ R ⟨R₁, h₀, h₁, -⟩
        exact h₀.trans h₁

theorem resumeClusters_since {todo : List ClusterRecord} (htodo : ∀ c ∈ todo, c ∈ R₀.clusters) :
    (shared i).Keeps (StartsRecorded i) (Since i R₀) (resumeClusters options todo).run := by
  induction todo with
  | nil => exact .ret (since_stable i R₀) fun _ h => h
  | cons record rest ih =>
    refine Machine.Keeps.task_bind (since_stable i R₀)
      (resumeCluster_since (htodo record List.mem_cons_self)) fun cluster => ?_
    refine Machine.Keeps.task_bind (since_stable i R₀)
      (ih fun c hc => htodo c (List.mem_cons_of_mem _ hc)) fun clusters => ?_
    exact .ret (since_stable i R₀) fun _ h => h

theorem checkPoolerUp_since (name : String) (outcome : UnitResume) :
    (shared i).Keeps (StartsRecorded i) (Since i R₀) (checkPoolerUp name options outcome).run := by
  unfold checkPoolerUp
  split
  · refine Machine.Triple.attempt_bind (waits_since (pollPooler_waits _ _ _ _)) fun r => ?_
    cases r <;> exact .ret (since_stable i R₀) fun _ h => h
  · exact .ret (since_stable i R₀) fun _ h => h

theorem resumePoolers_since {todo : List PoolerRecord} (htodo : ∀ p ∈ todo, p ∈ R₀.poolers) :
    (shared i).Keeps (StartsRecorded i) (Since i R₀) (resumePoolers options todo).run := by
  induction todo with
  | nil => exact .ret (since_stable i R₀) fun _ h => h
  | cons record rest ih =>
    have hrecord := htodo record List.mem_cons_self
    refine Machine.Keeps.task_bind (since_stable i R₀)
      (resumeContainer_since fun _ _ href => .inr ⟨record, hrecord, href⟩) fun outcome => ?_
    refine Machine.Keeps.task_bind (since_stable i R₀) (checkPoolerUp_since _ _) fun _ => ?_
    refine Machine.Keeps.task_bind (since_stable i R₀)
      (ih fun p hp => htodo p (List.mem_cons_of_mem _ hp)) fun _ => ?_
    exact .ret (since_stable i R₀) fun _ h => h

theorem resumeWith_since :
    (shared i).Triple (StartsRecorded i) (Since i R₀) (resumeWith options).run
      fun _ => Since i R₀ := by
  have hclusters := @listed_since i R₀ ClusterRecord .listClusters Registry.clusters fun _ _ => rfl
  refine Machine.Triple.task_bind hclusters (fun records => ?_) (fun _ => since_stable i R₀) ?_
  swap
  · rintro _ R ⟨R₁, h₀, h₁, -⟩
    exact h₀.trans h₁
  rintro R ⟨R₁, h₀, h₁, hrecords⟩
  refine h₀.carry h₁ ?_
  refine Machine.Keeps.task_bind (since_stable i R₁) (resumeClusters_since fun c hc => by
    rw [hrecords records rfl] at hc
    exact hc) fun clusters => ?_
  have hpoolers := @listed_since i R₁ PoolerRecord .listPoolers Registry.poolers fun _ _ => rfl
  refine Machine.Triple.task_bind hpoolers (fun found => ?_) (fun _ => since_stable i R₁) ?_
  swap
  · rintro _ R ⟨R₂, h₁, h₂, -⟩
    exact h₁.trans h₂
  rintro R ⟨R₂, h₁, h₂, hfound⟩
  refine h₁.carry h₂ ?_
  refine Machine.Keeps.task_bind (since_stable i R₂) (resumePoolers_since fun p hp => by
    rw [hfound found rfl] at hp
    exact hp) fun _ => ?_
  exact .ret (since_stable i R₂) fun _ h => h

end Recovery

/-! ## The processes of a host -/

inductive Role
  | recovery
  | other
deriving DecidableEq

/-- A recovery and what other processes run, some of which come up later; between any two
operations a container may take a step on its own. -/
def processes (A : Agent.Code) : System CtlOp World Role where
  step _ _ op w b u := (hostMachine A).step op w b u
  drift w u := (hostMachine A).drift w u
  start w u th := u = w ∧ th.role = .other

def recovering (options : ResumeOptions) : Prog CtlOp Unit :=
  (resumeWith options).run.bind fun _ => .ret ()

/-- What another process does to the registry takes nothing away that lets the instance start. -/
def OthersRespect (i : InstanceId) (th : Thread CtlOp Role) ⦃β : Type⦄ (_ : CtlOp β) (w : World)
    (_ : β) (u : World) : Prop :=
  th.role = .other → Respects i w.registry u.registry

/-- Where the recovery is about to start the instance's container, the record lets it. -/
def StartsAsRecorded (i : InstanceId) (c : Config CtlOp World Role) : Prop :=
  ∀ next, ⟨.recovery, .call (.podman (.start i.containerName)) next⟩ ∈ c.threads →
    LetsStart i c.state.registry

/-- **A recovery starts an instance that is recorded to run**, at the moment it starts it, while
no other process, from the beginning of the recovery, takes away what lets it. -/
theorem recovery_starts_as_recorded (A : Agent.Code) (options : ResumeOptions) (i : InstanceId)
    {w : World} {others : List (Thread CtlOp Role)} (hothers : ∀ th ∈ others, th.role = .other)
    (hnamed : WellNamed w.registry) {c : Config CtlOp World Role}
    (h : ((processes A).restrict (OthersRespect i)).Steps
      ⟨w, ⟨.recovery, recovering options⟩ :: others⟩ c) : StartsAsRecorded i c := by
  have hsafe : (shared i).Triple (StartsRecorded i) (Since i w.registry) (recovering options)
      fun _ _ => True :=
    Machine.Triple.bind resumeWith_since fun _ => .ret (fun _ _ _ h => h) fun _ _ => trivial
  have hother : ∀ (th : Thread CtlOp Role) ⦃β⦄ (op : CtlOp β) v b u, th.role ≠ .recovery →
      ((processes A).restrict (OthersRespect i)).step th op v b u →
      (shared i).drift v.registry u.registry := by
    intro th β op v b u hne hstep
    refine hstep.2 ?_
    cases hrole : th.role with
    | recovery => exact absurd hrole hne
    | other => rfl
  have hdrift : ∀ v u, (hostMachine A).drift v u → (shared i).drift v.registry u.registry := by
    rintro v u ⟨d, rfl⟩
    rw [show ((hostExec A).move d v).registry = v.registry from v.registry_drift d]
    exact .refl _
  -- seen from the registry, the recovery runs alone and the others drift
  obtain ⟨q, rest, hthreads, hrest, hreach⟩ := System.Steps.front
    (Y := (processes A).restrict (OthersRespect i)) (N := shared i) World.registry
    (fun β op next v b u hstep =>
      hostMachine_registry hstep.1 (Registry.allocates_anyPort op v.registry b))
    hother hdrift (fun v u th hs => ⟨by simp [hs.2], hs.1 ▸ .refl _⟩)
    (fun th hth => by simp [hothers th hth]) h
  intro next hmem
  rw [hthreads] at hmem
  rcases List.mem_cons.1 hmem with heq | hmem
  · obtain ⟨-, rfl⟩ := Thread.mk.inj heq
    exact (hsafe _ (.refl hnamed)).at_call hreach rfl
  · exact absurd rfl (hrest _ hmem)

namespace InterleavedSample

def options : ResumeOptions := ⟨⟨0⟩, false⟩

/-- The host on which the minimal manifest was applied, its container about to die. -/
def world : World := RefusalSample.world RefusalSample.running

/-- The same manifest, applied again. -/
def applying : Prog CtlOp Unit :=
  (applyWith RefusalSample.host (minimalManifest 999) RefusalSample.options).run.bind
    fun _ => .ret ()

/-- The checks of the apply, and the end of the container. -/
def checked : Prog CtlOp Unit × World :=
  (hostExec RefusalSample.agentCode).follow (List.replicate 6 (.inl {}) ++ [.inr (.die "id-0" 137)])
    applying world

/-- The recovery has read the phases, asked podman, and tried the port. -/
def asked : Prog CtlOp Unit × World :=
  (hostExec RefusalSample.agentCode).follow (List.replicate 4 (.inl {})) (recovering options)
    checked.2

/-- The apply records its phase. -/
def recorded : Prog CtlOp Unit × World :=
  (hostExec RefusalSample.agentCode).follow [.inl {}] checked.1 asked.2

/-- The recovery is about to start a container, and nothing is recorded running. -/
def startsUnrecorded : ∀ ⦃β : Type⦄, CtlOp β → World → Bool
  | _, .podman (.start ref), w =>
    ref = "pgpod-mydb-1" && w.registry.clusters.all (fun c => c.phase = "applying") &&
      w.registry.poolers.isEmpty
  | _, _, _ => false

/-- The recovery is about to start a container, and its cluster is recorded running. -/
def startsRecorded : ∀ ⦃β : Type⦄, CtlOp β → World → Bool
  | _, .podman (.start ref), w =>
    ref = "pgpod-mydb-1" && w.registry.phaseOf "mydb" = some .running
  | _, _, _ => false

theorem steps_follow (role : Role) (script : List (CtlChoice ⊕ Drift)) (p : Prog CtlOp Unit)
    (w : World) (pre post : List (Thread CtlOp Role)) :
    (processes RefusalSample.agentCode).Steps ⟨w, pre ++ ⟨role, p⟩ :: post⟩
      ⟨((hostExec RefusalSample.agentCode).follow script p w).2,
        pre ++ ⟨role, ((hostExec RefusalSample.agentCode).follow script p w).1⟩ :: post⟩ :=
  System.Steps.run (M := hostMachine RefusalSample.agentCode) (fun _ _ _ _ _ _ h => h)
    (fun _ _ h => h) ((hostExec RefusalSample.agentCode).follow_reach script p w) pre post

/-- Another cluster. -/
def shop : ClusterManifest := { minimalManifest 999 with metadata := ⟨"shop"⟩ }

/-- The host has one volume, of the first cluster. -/
def oneVolume : World :=
  { world with volumes := fun v => if v = "pgpod-mydb-1-pgdata" then some fun _ => none else none }

/-- The checks of an apply of the other cluster, and the end of the container. -/
def shopChecked : Prog CtlOp Unit × World :=
  (hostExec RefusalSample.agentCode).follow (List.replicate 5 (.inl {}) ++ [.inr (.die "id-0" 137)])
    ((applyWith RefusalSample.host shop RefusalSample.options).run.bind fun _ => .ret ()) oneVolume

/-- A recovery has read the phases, asked podman, and tried the port. -/
def askedBeside : Prog CtlOp Unit × World :=
  (hostExec RefusalSample.agentCode).follow (List.replicate 4 (.inl {})) (recovering options)
    shopChecked.2

/-- The apply records its phase. -/
def shopRecorded : Prog CtlOp Unit × World :=
  (hostExec RefusalSample.agentCode).follow [.inl {}] shopChecked.1 askedBeside.2

/-- The apply is about to record the other cluster. -/
def recordsShop : ∀ ⦃β : Type⦄, CtlOp β → World → Bool
  | _, .registry (.putCluster m _), _ => m.metadata.name = "shop"
  | _, _, _ => false

/-- Beside an apply of another cluster, which records its phase in between. -/
theorem recovery_starts_as_recorded_beside_shop :
    shopRecorded.2.registry.phaseOf "shop" = some .applying ∧
      Executable.standsAt startsRecorded (askedBeside.1, shopRecorded.2) = true ∧
      StartsAsRecorded (mydb.inst 1)
        ⟨shopRecorded.2, [⟨.recovery, askedBeside.1⟩, ⟨.other, shopRecorded.1⟩]⟩ := by
  have hnamed : WellNamed shopChecked.2.registry := by
    have hrows : shopChecked.2.registry.instances = [RefusalSample.running] := by decide +kernel
    intro row hrow
    rw [hrows] at hrow
    obtain rfl := List.mem_singleton.1 hrow
    exact ⟨mydb.inst 1, rfl, rfl, rfl⟩
  have hasked : ((processes RefusalSample.agentCode).restrict (OthersRespect (mydb.inst 1))).Steps
      ⟨shopChecked.2, [] ++ ⟨.recovery, recovering options⟩ :: [⟨.other, shopChecked.1⟩]⟩
      ⟨askedBeside.2, [] ++ ⟨.recovery, askedBeside.1⟩ :: [⟨.other, shopChecked.1⟩]⟩ :=
    System.Steps.run
      (Y := (processes RefusalSample.agentCode).restrict (OthersRespect (mydb.inst 1)))
      (M := hostMachine RefusalSample.agentCode)
      (fun _ _ _ _ _ _ h => ⟨h, fun hrole => Role.noConfusion hrole⟩) (fun _ _ h => h)
      ((hostExec RefusalSample.agentCode).follow_reach _ _ _) _ _
  have hrecorded : ((processes RefusalSample.agentCode).restrict
      (OthersRespect (mydb.inst 1))).Steps
      ⟨askedBeside.2, [⟨.recovery, askedBeside.1⟩] ++ ⟨.other, shopChecked.1⟩ :: []⟩
      ⟨shopRecorded.2, [⟨.recovery, askedBeside.1⟩] ++ ⟨.other, shopRecorded.1⟩ :: []⟩ := by
    refine System.Steps.run
      (Y := (processes RefusalSample.agentCode).restrict (OthersRespect (mydb.inst 1)))
      (M := (hostMachine RefusalSample.agentCode).restrict
        (fun _ op s _ _ => recordsShop op s = true) fun _ _ => True)
      (fun β op next s b t h => ⟨h.1, fun _ => ?_⟩) (fun _ _ h => h.1)
      ((hostExec RefusalSample.agentCode).follow_meets (fun _ _ _ _ _ h => h) _ _ _
        (by decide +kernel)) _ _
    cases op with
    | registry op =>
      cases op with
      | putCluster m phase =>
        have hshop : m.metadata.name = "shop" := by simpa [recordsShop] using h.2
        obtain ⟨ch, hch⟩ := hostMachine_registry h.1 (Registry.allocates_anyPort _ s.registry b)
        simp only [RegistryOp.perform] at hch
        split at hch
        · exact (Prod.mk.inj hch).2 ▸ .refl _
        · refine (Prod.mk.inj hch).2 ▸ .putCluster ?_ phase
          rw [hshop]
          decide
      | _ => exact absurd h.2 (by simp [recordsShop])
    | _ => exact absurd h.2 (by simp [recordsShop])
  exact ⟨by decide +kernel, by decide +kernel, recovery_starts_as_recorded RefusalSample.agentCode
    options _ (by simp) hnamed (hasked.trans hrecorded)⟩

/-- **A recovery starts a container under an apply**: the phases were read before the apply
recorded its own, and the container is started after. -/
theorem starts_under_apply : ∃ c d,
    (processes RefusalSample.agentCode).Steps
      ⟨world, [⟨.recovery, recovering options⟩, ⟨.other, applying⟩]⟩ c ∧
    ¬ StartsAsRecorded (mydb.inst 1) c ∧ (processes RefusalSample.agentCode).Steps c d ∧
    (c.state.find "pgpod-mydb-1").any (fun c => c.status.isRunning) = false ∧
    (d.state.find "pgpod-mydb-1").any (fun c => c.status.isRunning) = true ∧
    d.state.registry.phaseOf "mydb" = some .applying := by
  have hchecked := steps_follow .other (List.replicate 6 (.inl {}) ++ [.inr (.die "id-0" 137)])
    applying world [⟨.recovery, recovering options⟩] []
  have hasked := steps_follow .recovery (List.replicate 4 (.inl {})) (recovering options) checked.2
    [] [⟨.other, checked.1⟩]
  have hrecorded := steps_follow .other [.inl {}] checked.1 asked.2 [⟨.recovery, asked.1⟩] []
  have hbegun := steps_follow .recovery [.inl {}] asked.1 recorded.2 [] [⟨.other, recorded.1⟩]
  refine ⟨_, _, (hchecked.trans hasked).trans hrecorded, fun hstarts => ?_, hbegun,
    by decide +kernel, by decide +kernel, by decide +kernel⟩
  have hstands : Executable.standsAt startsUnrecorded (asked.1, recorded.2) = true := by
    decide +kernel
  obtain ⟨β, op, next, hcall, htest⟩ := Executable.of_standsAt hstands
  cases op with
  | registry op => exact absurd htest (by simp [startsUnrecorded])
  | host op => exact absurd htest (by simp [startsUnrecorded])
  | podman op =>
    cases op with
    | start ref =>
      simp only [startsUnrecorded, Bool.and_eq_true, List.all_eq_true, List.isEmpty_iff,
        decide_eq_true_eq] at htest
      obtain ⟨⟨rfl, hphases⟩, hpoolers⟩ := htest
      have hmem : (⟨.recovery, .call (.podman (.start "pgpod-mydb-1")) next⟩ : Thread CtlOp Role) ∈
          [⟨.recovery, asked.1⟩, ⟨.other, recorded.1⟩] :=
        List.mem_cons.2 (.inl (congrArg (Thread.mk Role.recovery) hcall.symm))
      have hname : (mydb.inst 1).containerName = "pgpod-mydb-1" := by decide +kernel
      rw [← hname] at hmem
      rcases hstarts next hmem with ⟨⟨c, hc, -, hrun⟩, -⟩ | ⟨p, hp, -⟩
      · exact absurd ((hphases c hc).symm.trans hrun) (by decide)
      · have hempty : recorded.2.registry.poolers = [] := hpoolers
        have hp' : p ∈ recorded.2.registry.poolers := hp
        rw [hempty] at hp'
        cases hp'
    | _ => exact absurd htest (by simp [startsUnrecorded])

end InterleavedSample

end Control

end Pgpod
