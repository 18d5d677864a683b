import Pgpod.Control.Resume
import Pgpod.Effect.Yields
import Pgpod.Registry.Rows

/-!
# Boot recovery and the rows it cannot read

Boot recovery reads every cluster, the instances of those that are to come up,
and every pooler.  Each of these readers fails as a whole, so the recovery of
one cluster depends on rows that have nothing to do with it.
-/

namespace Pgpod

open Effect

namespace Control

/-! ## The host at boot -/

/-- What podman was asked, and what it did. -/
inductive BootEvent
  | probed (ref : String) (p : ContainerProbe)
  | started (ref : String)

structure Boot where
  tables : Tables
  log : List BootEvent

namespace Boot

/-- The registry answers what its tables hold; podman and the host answer anything. -/
def answers (json : StoredJson) : ∀ ⦃β : Type⦄, CtlOp β → Boot → β → Boot → Prop
  | _, .registry .listClusters, s, b, t => b = s.tables.listClusters json ∧ t = s
  | _, .registry (.instances c), s, b, t => b = s.tables.instancesOf c ∧ t = s
  | _, .registry .listPoolers, s, b, t => b = s.tables.listPoolers json ∧ t = s
  | _, .registry (.putInstance rec), s, b, t =>
    (b = .ok () ∧ t = { s with tables := s.tables.putInstance rec }) ∨ ((∃ e, b = .error e) ∧ t = s)
  | _, .podman (.probe ref), s, b, t => match b with
    | .ok (some p) => t = { s with log := s.log ++ [.probed ref p] }
    | _ => t = s
  | _, .podman (.start ref), s, b, t => match b with
    | .ok () => t = { s with log := s.log ++ [.started ref] }
    | .error _ => t = s
  | _, _, s, _, t => t = s

/-- The containers of these rows are there, their ports are free, and podman starts them. -/
def Startable (rows : List InstanceRecord) : ∀ ⦃β : Type⦄, CtlOp β → Boot → β → Boot → Prop
  | _, .podman (.probe ref), _, b, _ =>
    (∃ row ∈ rows, row.containerName = ref) → ∃ p, b = .ok (some p)
  | _, .podman (.start ref), _, b, _ => (∃ row ∈ rows, row.containerName = ref) → b = .ok ()
  | _, .host (.portAvailable port), _, b, _ => (∃ row ∈ rows, row.hostPort = port) → b = .ok ()
  | _, _, _, _, _ => True

def machine (json : StoredJson) : Machine CtlOp Boot where
  step := answers json
  drift _ _ := False

/-- The host on which the containers of these rows can be started. -/
def startable (json : StoredJson) (rows : List InstanceRecord) : Machine CtlOp Boot :=
  (machine json).restrict (Startable rows) fun _ _ => True

/-- The container of a row was found running, or started; a dry run only looks. -/
def BroughtUp (dryRun : Bool) (log : List BootEvent) (row : InstanceRecord) : Prop :=
  (∃ p, .probed row.containerName p ∈ log ∧ (p.running = true ∨ dryRun = true)) ∨
    .started row.containerName ∈ log

theorem BroughtUp.mono {dryRun : Bool} {log log' : List BootEvent} {row : InstanceRecord}
    (h : BroughtUp dryRun log row) (hlog : log <+: log') : BroughtUp dryRun log' row := by
  rcases h with ⟨p, hp, hrun⟩ | hs
  · exact .inl ⟨p, hlog.subset hp, hrun⟩
  · exact .inr (hlog.subset hs)

end Boot

/-! ## What the recovery of one cluster leaves alone -/

/-- The rows of cluster `k` may have been written; every other row is as it was. -/
structure Within (k : String) (s t : Boot) : Prop where
  poolers : t.tables.poolers = s.tables.poolers
  others : ∀ n, n ≠ k → t.tables.instances.filter (fun r => r.cluster = n) =
    s.tables.instances.filter fun r => r.cluster = n
  log : s.log <+: t.log

namespace Within

variable {k : String} {s t u : Boot}

theorem refl (k : String) (s : Boot) : Within k s s := ⟨rfl, fun _ _ => rfl, List.prefix_rfl⟩

theorem trans (h : Within k s t) (h' : Within k t u) : Within k s u :=
  ⟨h'.poolers.trans h.poolers, fun n hn => (h'.others n hn).trans (h.others n hn),
    h.log.trans h'.log⟩

theorem putInstance {rec : InstanceRecord} (hk : rec.cluster = k) (s : Boot) :
    Within k s { s with tables := s.tables.putInstance rec } := by
  refine ⟨rfl, fun n hn => ?_, List.prefix_rfl⟩
  have hrow : (InstanceRow.encode rec).cluster = k := hk
  have hne : ¬ k = n := fun h => hn h.symm
  simp only [Tables.putInstance, Tables.replaced, List.filter_append, List.filter_cons, hrow, hne,
    decide_false, Bool.false_eq_true, if_false, List.filter_nil, List.append_nil, List.filter_filter]
  refine List.filter_congr fun r _ => ?_
  by_cases hr : r.cluster = n
  · simp [hr, hn]
  · simp [hr]

end Within

/-- The operation writes no instance row. -/
def WritesNoInstance : ∀ ⦃β : Type⦄, CtlOp β → Prop
  | _, .registry (.putInstance _) => False
  | _, _ => True

section Runs

variable {json : StoredJson} {rows : List InstanceRecord} {k : String} {s t u : Boot}

theorem startable_drifts (h : (Boot.startable json rows).Drifts s t) : t = s := by
  induction h with
  | refl => rfl
  | tail _ hd _ => exact hd.1.elim

theorem step_within {β : Type} {op : CtlOp β} {b : β} (hop : WritesNoInstance op)
    (h : (Boot.startable json rows).step op s b t) : Within k s t := by
  have hsame : t = s → Within k s t := by
    rintro rfl
    exact .refl k t
  have hlog : ∀ {log}, s.log <+: log → t = { s with log } → Within k s t := by
    rintro log hlog rfl
    exact ⟨rfl, fun _ _ => rfl, hlog⟩
  obtain ⟨h, -⟩ := h
  cases op with
  | registry op =>
    cases op with
    | putInstance rec => exact hop.elim
    | listClusters => exact hsame h.2
    | instances c => exact hsame h.2
    | listPoolers => exact hsame h.2
    | _ => exact hsame h
  | podman op =>
    cases op with
    | probe ref =>
      match b, h with
      | .ok (some p), h => exact hlog (List.prefix_append _ _) h
      | .ok none, h => exact hsame h
      | .error _, h => exact hsame h
    | start ref =>
      match b, h with
      | .ok (), h => exact hlog (List.prefix_append _ _) h
      | .error _, h => exact hsame h
    | _ => exact hsame h
  | host op => exact hsame h

/-- A run that writes no instance row. -/
theorem within_of_calls {α : Type} {p q : Prog CtlOp α}
    (h : (Boot.startable json rows).Reach p s q t) (hp : p.Calls WritesNoInstance) :
    Within k s t :=
  h.keeps (I := Within k s) (fun _ _ (hd : False ∧ True) _ => hd.1.elim)
    (fun _ _ _ _ _ hop hs hstep => hs.trans (step_within hop hstep)) hp (.refl k s)

theorem startable_ask {β : Type} {op : CtlOp (Except Error β)} {r : Except Error β}
    (h : (Boot.startable json rows).Reach (Task.ask op).run s (.ret r) t) :
    (Boot.startable json rows).step op s r t := by
  obtain ⟨v, w, hv, hop, hw⟩ := Machine.Reach.perform_inv h
  rw [startable_drifts hw, ← startable_drifts hv]
  exact hop

theorem startable_ret {α : Type} {a b : α}
    (h : (Boot.startable json rows).Reach (.ret a) s (.ret b) t) : b = a ∧ t = s := by
  obtain ⟨heq, hd⟩ := h.of_ret
  exact ⟨Prog.ret.inj heq, startable_drifts hd⟩

/-! ### Waiting -/

theorem logsOrWhyNot_writes (ref : String) : (logsOrWhyNot ref).run.Calls WritesNoInstance := by
  refine Task.calls_bind (Task.calls_attempt (Task.calls_ask trivial)) fun r => ?_
  cases r <;> exact Task.calls_pure _

theorem notReady_writes {α : Type} (inst : InstanceId) (timeout : Duration) (last : String) :
    (notReady inst timeout last : CtlTask α).run.Calls WritesNoInstance :=
  Task.calls_bind (logsOrWhyNot_writes _) fun _ => Task.calls_throw _

theorem markRunning_within {inst : InstanceId} {r : Except Error Unit}
    (h : (Boot.startable json rows).Reach (markRunning inst).run s (.ret r) t) :
    Within inst.cluster.name s t := by
  unfold markRunning instanceRow at h
  rw [Task.bind_assoc] at h
  rcases h.task_bind_inv with ⟨recs, w, hread, hrest⟩ | ⟨e, -, hread⟩
  · obtain ⟨hrecs, rfl⟩ := (startable_ask hread).1
    rw [Task.pure_bind] at hrest
    cases hfind : recs.find? fun rec => rec.ordinal = inst.ordinal with
    | none =>
      rw [hfind] at hrest
      obtain ⟨-, rfl⟩ := startable_ret hrest
      exact .refl _ _
    | some rec =>
      rw [hfind] at hrest
      have hcluster := Tables.cluster_of_mem_instancesOf hrecs.symm (List.mem_of_find?_eq_some hfind)
      rcases (startable_ask hrest).1 with ⟨-, rfl⟩ | ⟨-, rfl⟩
      · refine Within.putInstance ?_ w
        exact hcluster
      · exact .refl _ _
  · obtain ⟨-, rfl⟩ := (startable_ask hread).1
    exact .refl _ _

theorem pollReady_within {inst : InstanceId} {timeout : Duration} {rounds : Nat} {last : String}
    {r : Except Error Unit}
    (h : (Boot.startable json rows).Reach (pollReady inst timeout rounds last).run s (.ret r) t) :
    Within inst.cluster.name s t := by
  induction rounds generalizing last s with
  | zero => exact within_of_calls h (notReady_writes _ _ _)
  | succ rounds ih =>
    have hagain : ∀ {last : String} {v : Boot},
        (Boot.startable json rows).Reach (do
          let probe ← podman (.probe inst.containerName)
          if probe.any fun p => !p.running then notReady inst timeout last
          else pollReady inst timeout rounds last : CtlTask Unit).run v (.ret r) t →
        Within inst.cluster.name v t := by
      intro last v hrun
      rcases hrun.task_bind_inv with ⟨probe, w, hprobe, hrest⟩ | ⟨e, -, hprobe⟩
      · have hfirst := within_of_calls (k := inst.cluster.name) hprobe (Task.calls_ask trivial)
        split at hrest
        · exact hfirst.trans (within_of_calls hrest (notReady_writes _ _ _))
        · exact hfirst.trans (ih hrest)
      · exact within_of_calls hprobe (Task.calls_ask trivial)
    unfold pollReady at h
    rcases h.task_bind_inv with ⟨time, w, htime, hrest⟩ | ⟨e, -, htime⟩
    · have hfirst := within_of_calls (k := inst.cluster.name) htime (Task.calls_perform trivial)
      split at hrest
      · exact hfirst.trans (within_of_calls hrest (notReady_writes _ _ _))
      obtain ⟨b, v, hexec, hrest⟩ := hrest.attempt_bind_inv
      have hsecond := hfirst.trans
        (within_of_calls (k := inst.cluster.name) hexec (Task.calls_ask trivial))
      cases b with
      | error e => exact hsecond.trans (hagain hrest)
      | ok out =>
        simp only at hrest
        split at hrest
        · exact hsecond.trans (markRunning_within hrest)
        · exact hsecond.trans (hagain hrest)
    · exact within_of_calls htime (Task.calls_perform trivial)

theorem recordResumeEvent_writes (cluster level detail : String) :
    (recordResumeEvent cluster level detail).run.Calls WritesNoInstance :=
  Task.calls_bind (Task.calls_attempt (Task.calls_ask trivial)) fun _ => Task.calls_pure _

theorem recordResumeEvent_infallible (cluster level detail : String) :
    (recordResumeEvent cluster level detail).Infallible :=
  .bind (.attempt _) fun _ => .pure _

theorem awaitStarted_run {inst : InstanceId} {options : ResumeOptions} {outcome : UnitResume}
    {r : Except Error Unit}
    (h : (Boot.startable json rows).Reach (awaitStarted inst options outcome).run s (.ret r) t) :
    (∃ a, r = .ok a) ∧ Within inst.cluster.name s t := by
  constructor
  · refine h.of_infallible (.when (.bind (.attempt _) fun b => ?_))
    cases b with
    | ok _ => exact .pure _
    | error e => exact recordResumeEvent_infallible _ _ _
  · unfold awaitStarted at h
    cases hstarted : decide (outcome.action = .started) with
    | false =>
      rw [hstarted, Task.when_false] at h
      obtain ⟨-, rfl⟩ := startable_ret h
      exact .refl _ _
    | true =>
      rw [hstarted, Task.when_true] at h
      obtain ⟨b, w, hwait, hrest⟩ := h.attempt_bind_inv
      have hfirst := pollReady_within hwait
      cases b with
      | ok _ =>
        obtain ⟨-, rfl⟩ := startable_ret hrest
        exact hfirst
      | error e => exact hfirst.trans (within_of_calls hrest (recordResumeEvent_writes _ _ _))

/-! ### One container -/

theorem portProblem_calls (port : Option UInt16) : (portProblem port).run.Calls WritesNoInstance := by
  cases port with
  | none => exact Task.calls_pure _
  | some port =>
    refine Task.calls_bind (Task.calls_perform trivial) fun b => ?_
    cases b <;> exact Task.calls_pure _

theorem portProblem_infallible (port : Option UInt16) : (portProblem port).Infallible := by
  cases port with
  | none => exact .pure _
  | some port =>
    refine .bind (.perform _) fun b => ?_
    cases b <;> exact .pure _

theorem startContainer_writes (name cn : String) (port : Option UInt16) (dryRun : Bool) :
    (startContainer name cn port dryRun).run.Calls WritesNoInstance := by
  refine Task.calls_bind (portProblem_calls port) fun problem => ?_
  cases dryRun with
  | true => exact Task.calls_pure _
  | false =>
    cases problem with
    | some fact => exact Task.calls_pure _
    | none =>
      refine Task.calls_bind (Task.calls_attempt (Task.calls_ask trivial)) fun b => ?_
      cases b <;> exact Task.calls_pure _

theorem startContainer_infallible (name cn : String) (port : Option UInt16) (dryRun : Bool) :
    (startContainer name cn port dryRun).Infallible := by
  refine .bind (portProblem_infallible port) fun problem => ?_
  cases dryRun with
  | true => exact .pure _
  | false =>
    cases problem with
    | some fact => exact .pure _
    | none =>
      refine .bind (.attempt _) fun b => ?_
      cases b <;> exact .pure _

theorem resumeContainer_writes (name cn : String) (phase : ClusterPhase) (unit : InstancePhase)
    (port : Option UInt16) (dryRun : Bool) :
    (resumeContainer name cn phase unit port dryRun).run.Calls WritesNoInstance := by
  refine Task.calls_bind (Task.calls_attempt (Task.calls_ask trivial)) fun b => ?_
  cases b with
  | error e => exact Task.calls_pure _
  | ok probe =>
    simp only
    split
    · exact Task.calls_pure _
    · exact Task.calls_pure _
    · exact Task.calls_pure _
    · exact startContainer_writes _ _ _ _

theorem resumeContainer_infallible (name cn : String) (phase : ClusterPhase) (unit : InstancePhase)
    (port : Option UInt16) (dryRun : Bool) :
    (resumeContainer name cn phase unit port dryRun).Infallible := by
  refine .bind (.attempt _) fun b => ?_
  cases b with
  | error e => exact .pure _
  | ok probe =>
    simp only
    split
    · exact .pure _
    · exact .pure _
    · exact .pure _
    · exact startContainer_infallible _ _ _ _

/-- A recorded port that is free is no problem. -/
theorem portProblem_free {row : InstanceRecord} (hrow : row ∈ rows)
    {r : Except Error (Option String)}
    (h : (Boot.startable json rows).Reach (portProblem (some row.hostPort)).run s (.ret r) t) :
    r = .ok none ∧ t = s := by
  obtain ⟨v, b, w, hv, hop, hrest⟩ := Machine.Reach.perform_bind_inv h
  obtain ⟨hw, hfree⟩ := hop
  have hb : b = .ok () := hfree ⟨row, hrow, rfl⟩
  subst hb
  obtain ⟨hr, rfl⟩ := startable_ret hrest
  exact ⟨hr, hw.trans (startable_drifts hv)⟩

theorem startContainer_up {row : InstanceRecord} (hrow : row ∈ rows) {name : String}
    {dryRun : Bool} {p : ContainerProbe} {r : Except Error UnitResume}
    (hprobed : .probed row.containerName p ∈ s.log)
    (h : (Boot.startable json rows).Reach
      (startContainer name row.containerName (some row.hostPort) dryRun).run s (.ret r) t) :
    Boot.BroughtUp dryRun t.log row := by
  rcases h.task_bind_inv with ⟨problem, v, hport, hrest⟩ | ⟨e, -, hport⟩
  · obtain ⟨hproblem, rfl⟩ := portProblem_free hrow hport
    cases hproblem
    cases dryRun with
    | true =>
      obtain ⟨-, rfl⟩ := startable_ret hrest
      exact .inl ⟨p, hprobed, .inr rfl⟩
    | false =>
      obtain ⟨b, w, hstart, hrest⟩ := Machine.Reach.attempt_bind_inv hrest
      obtain ⟨hlog, hok⟩ := startable_ask hstart
      have hb : b = .ok () := hok ⟨row, hrow, rfl⟩
      subst hb
      obtain ⟨-, rfl⟩ := startable_ret hrest
      have hw : t = { v with log := v.log ++ [.started row.containerName] } := hlog
      exact .inr (by simp [hw])
  · cases (portProblem_free hrow hport).1

/-- Under a phase that lets it, a container that podman has is brought up. -/
theorem resumeContainer_up {row : InstanceRecord} (hrow : row ∈ rows) {name : String}
    {phase : ClusterPhase} {dryRun : Bool} {r : Except Error UnitResume}
    (hphase : phase.skipReason = none) (hunit : row.phase.blocksRestart = false)
    (h : (Boot.startable json rows).Reach (resumeContainer name row.containerName phase row.phase
      (some row.hostPort) dryRun).run s (.ret r) t) :
    Boot.BroughtUp dryRun t.log row := by
  obtain ⟨b, w, hprobe, hrest⟩ := Machine.Reach.attempt_bind_inv h
  obtain ⟨hlog, hthere⟩ := startable_ask hprobe
  obtain ⟨p, rfl⟩ := hthere ⟨row, hrow, rfl⟩
  have hw : w = { s with log := s.log ++ [.probed row.containerName p] } := hlog
  have hprobed : .probed row.containerName p ∈ w.log := by simp [hw]
  have hdecision : decideContainer phase row.phase (some p) =
      if p.running then .adopt else .start := by
    simp [decideContainer, hphase, hunit]
  simp only [hdecision] at hrest
  by_cases hrunning : p.running = true
  · rw [if_pos hrunning] at hrest
    obtain ⟨-, rfl⟩ := startable_ret hrest
    exact .inl ⟨p, hprobed, .inl hrunning⟩
  · rw [if_neg hrunning] at hrest
    exact startContainer_up hrow hprobed hrest

/-! ### The containers of a cluster -/

theorem resumeInstances_run {cluster : ClusterId} {phase : ClusterPhase} {options : ResumeOptions}
    (hphase : phase.skipReason = none) {todo : List InstanceRecord}
    {r : Except Error (List UnitResume)}
    (h : (Boot.startable json rows).Reach (resumeInstances cluster phase options todo).run s
      (.ret r) t) :
    (∃ us, r = .ok us) ∧ Within cluster.name s t ∧ ∀ row ∈ todo, row ∈ rows →
      row.phase.blocksRestart = false → Boot.BroughtUp options.dryRun t.log row := by
  induction todo generalizing s r t with
  | nil =>
    obtain ⟨rfl, rfl⟩ := startable_ret h
    exact ⟨⟨_, rfl⟩, .refl _ _, by simp⟩
  | cons row rest ih =>
    rcases h.task_bind_inv with ⟨outcome, v, hone, hafter⟩ | ⟨e, -, hone⟩
    · have hv : Within cluster.name s v := within_of_calls hone (resumeContainer_writes _ _ _ _ _ _)
      rcases hafter.task_bind_inv with ⟨u, w, hwait, hafter⟩ | ⟨e, -, hwait⟩
      · have hw := (awaitStarted_run hwait).2
        rcases hafter.task_bind_inv with ⟨us, x, hrest, hafter⟩ | ⟨e, -, hrest⟩
        · obtain ⟨-, hx, hup⟩ := ih hrest
          obtain ⟨hr, rfl⟩ := startable_ret hafter
          refine ⟨⟨_, hr⟩, (hv.trans hw).trans hx, fun row' hmem hrow hunit => ?_⟩
          rcases List.mem_cons.mp hmem with rfl | hmem
          · exact (resumeContainer_up hrow hphase hunit hone).mono (hw.trans hx).log
          · exact hup row' hmem hrow hunit
        · obtain ⟨⟨_, hok⟩, -⟩ := ih hrest
          cases hok
      · obtain ⟨⟨_, hok⟩, -⟩ := awaitStarted_run hwait
        cases hok
    · obtain ⟨_, hok⟩ := hone.of_infallible (resumeContainer_infallible _ _ _ _ _ _)
      cases hok

/-- The instance rows of a cluster can all be read. -/
def InstancesReadable (T : Tables) (cluster : String) : Prop :=
  ∀ r ∈ T.instances, r.cluster = cluster → r.Readable

/-- One cluster: it ends in an error exactly when it is to come up and an instance row of it
cannot be read. -/
theorem resumeCluster_run {name storedPhase : String} {options : ResumeOptions}
    (hname : validClusterName name = true) {r : Except Error ClusterResume}
    (h : (Boot.startable json rows).Reach (resumeCluster name storedPhase options).run s
      (.ret r) t) :
    Within name s t ∧
      (r.isOk = true ↔
        ((ClusterPhase.parseLenient storedPhase).skipReason = none → InstancesReadable s.tables name)) ∧
      ((ClusterPhase.parseLenient storedPhase).skipReason = none →
        ∀ recs, s.tables.instancesOf ⟨name, hname⟩ = .ok recs → ∀ row ∈ recs, row ∈ rows →
          row.phase.blocksRestart = false → Boot.BroughtUp options.dryRun t.log row) := by
  unfold resumeCluster at h
  rw [show ClusterId.new name = .ok ⟨name, hname⟩ from dif_pos hname] at h
  simp only at h
  cases hskip : (ClusterPhase.parseLenient storedPhase).skipReason with
  | some why =>
    simp only [hskip] at h
    refine ⟨within_of_calls h (Task.calls_bind (Task.calls_when (recordResumeEvent_writes _ _ _))
      fun _ => Task.calls_pure _), ?_, fun hnone => by cases hnone⟩
    obtain ⟨_, rfl⟩ := h.of_infallible
      (.bind (.when (recordResumeEvent_infallible _ _ _)) fun _ => .pure _)
    exact iff_of_true rfl fun hnone => by cases hnone
  | none =>
    simp only [hskip] at h
    have hreadable : (s.tables.instancesOf ⟨name, hname⟩).isOk = true ↔
        InstancesReadable s.tables name := Tables.instancesOf_isOk
    rcases h.task_bind_inv with ⟨recs, v, hread, hafter⟩ | ⟨e, rfl, hread⟩
    · obtain ⟨hrecs, rfl⟩ := (startable_ask hread).1
      rw [← hrecs] at hreadable ⊢
      rcases hafter.task_bind_inv with ⟨us, w, hunits, hafter⟩ | ⟨e, -, hunits⟩
      · obtain ⟨-, hwithin, hup⟩ := resumeInstances_run hskip hunits
        have hlast : Within name w t := within_of_calls hafter
          (Task.calls_bind (Task.calls_when (recordResumeEvent_writes _ _ _))
            fun _ => Task.calls_pure _)
        refine ⟨hwithin.trans hlast, ?_, fun _ recs' heq row hmem hrow hunit => ?_⟩
        · obtain ⟨_, rfl⟩ := hafter.of_infallible
            (.bind (.when (recordResumeEvent_infallible _ _ _)) fun _ => .pure _)
          exact iff_of_true rfl fun _ => hreadable.mp rfl
        · cases heq
          have hordered : row ∈ resumeOrder recs := List.mem_mergeSort.mpr hmem
          exact (hup row hordered hrow hunit).mono hlast.log
      · obtain ⟨⟨_, hok⟩, -⟩ := resumeInstances_run hskip hunits
        cases hok
    · obtain ⟨hrecs, rfl⟩ := (startable_ask hread).1
      rw [← hrecs] at hreadable ⊢
      refine ⟨.refl _ _, iff_of_false (by simp) fun hall => ?_,
        fun _ _ heq => by cases heq⟩
      exact absurd (hreadable.mpr (hall rfl)) (by simp)

/-! ### The whole registry -/

theorem Within.instancesOf (h : Within k s t) {c : ClusterId} (hc : c.name ≠ k) :
    t.tables.instancesOf c = s.tables.instancesOf c := by
  unfold Tables.instancesOf Tables.instanceRows
  rw [h.others c.name hc]

theorem Within.instancesReadable (h : Within k s t) {n : String} (hn : n ≠ k) :
    InstancesReadable t.tables n ↔ InstancesReadable s.tables n := by
  have hmem : ∀ r : InstanceRow, r ∈ t.tables.instances ∧ r.cluster = n ↔
      r ∈ s.tables.instances ∧ r.cluster = n := by
    intro r
    have hrow := congrArg (r ∈ ·) (h.others n hn)
    simpa [List.mem_filter] using hrow
  constructor
  · exact fun hall r hr hcluster => hall r ((hmem r).mpr ⟨hr, hcluster⟩).1 hcluster
  · exact fun hall r hr hcluster => hall r ((hmem r).mp ⟨hr, hcluster⟩).1 hcluster

/-- The record is of a cluster that boot recovery is to bring up. -/
def ToComeUp (record : ClusterRecord) : Prop :=
  (ClusterPhase.parseLenient record.phase).skipReason = none

theorem resumeClusters_run {options : ResumeOptions} {todo : List ClusterRecord}
    (hvalid : ∀ record ∈ todo, validClusterName record.name = true)
    (hnodup : (todo.map ClusterRecord.name).Nodup) {r : Except Error (List ClusterResume)}
    (h : (Boot.startable json rows).Reach (resumeClusters options todo).run s (.ret r) t) :
    t.tables.poolers = s.tables.poolers ∧ s.log <+: t.log ∧
      (r.isOk = true ↔
        ∀ record ∈ todo, ToComeUp record → InstancesReadable s.tables record.name) ∧
      (r.isOk = true → ∀ record ∈ todo, ToComeUp record →
        ∀ c : ClusterId, c.name = record.name → ∀ recs, s.tables.instancesOf c = .ok recs →
          ∀ row ∈ recs, row ∈ rows → row.phase.blocksRestart = false →
            Boot.BroughtUp options.dryRun t.log row) := by
  induction todo generalizing s r t with
  | nil =>
    obtain ⟨rfl, rfl⟩ := startable_ret h
    exact ⟨rfl, List.prefix_rfl, iff_of_true rfl (by simp), fun _ => by simp⟩
  | cons record rest ih =>
    have hname := hvalid record List.mem_cons_self
    rw [List.map_cons, List.nodup_cons] at hnodup
    have hother : ∀ record' ∈ rest, record'.name ≠ record.name :=
      fun record' hmem heq => hnodup.1 (heq ▸ List.mem_map_of_mem hmem)
    have hrestValid : ∀ record' ∈ rest, validClusterName record'.name = true :=
      fun record' hmem => hvalid record' (List.mem_cons_of_mem _ hmem)
    rcases h.task_bind_inv with ⟨one, v, hone, hafter⟩ | ⟨e, rfl, hone⟩
    · obtain ⟨hwithin, hok, hup⟩ := resumeCluster_run hname hone
      have hfirst := hok.mp rfl
      rcases hafter.task_bind_inv with ⟨others, w, hrest, hafter⟩ | ⟨e, rfl, hrest⟩
      · obtain ⟨hpoolers, hlog, hok', hup'⟩ := ih hrestValid hnodup.2 hrest
        obtain ⟨rfl, rfl⟩ := startable_ret hafter
        refine ⟨hpoolers.trans hwithin.poolers, hwithin.log.trans hlog, iff_of_true rfl ?_, ?_⟩
        · intro record' hmem hcome
          rcases List.mem_cons.mp hmem with rfl | hmem
          · exact hfirst hcome
          · exact (hwithin.instancesReadable (hother record' hmem)).mp (hok'.mp rfl record' hmem hcome)
        · intro _ record' hmem hcome c hc recs hrecs row hrow hlisted hunit
          rcases List.mem_cons.mp hmem with rfl | hmem
          · obtain rfl : c = ⟨record'.name, hname⟩ := by cases c; cases hc; rfl
            exact (hup hcome recs hrecs row hrow hlisted hunit).mono hlog
          · refine hup' rfl record' hmem hcome c hc recs ?_ row hrow hlisted hunit
            rw [hwithin.instancesOf (hc ▸ hother record' hmem), hrecs]
      · obtain ⟨hpoolers, hlog, hok', -⟩ := ih hrestValid hnodup.2 hrest
        refine ⟨hpoolers.trans hwithin.poolers, hwithin.log.trans hlog,
          iff_of_false (by simp) fun hall => ?_,
          fun hfalse => by cases hfalse⟩
        refine absurd (hok'.mpr fun record' hmem hcome => ?_) (by simp)
        exact (hwithin.instancesReadable (hother record' hmem)).mpr
          (hall record' (List.mem_cons_of_mem _ hmem) hcome)
    · obtain ⟨hwithin, hok, -⟩ := resumeCluster_run hname hone
      refine ⟨hwithin.poolers, hwithin.log,
        iff_of_false (by simp) fun hall => ?_,
        fun hfalse => by cases hfalse⟩
      exact absurd (hok.mpr (hall record List.mem_cons_self)) (by simp)

theorem checkPoolerUp_writes (name : String) (options : ResumeOptions) (outcome : UnitResume) :
    (checkPoolerUp name options outcome).run.Calls WritesNoInstance := by
  unfold checkPoolerUp
  split
  · refine Task.calls_bind (Task.calls_attempt ?_) fun b => ?_
    · refine (pollPooler_outside _ _ _ _).mono fun _ op hop => ?_
      cases op with
      | registry op => exact hop.elim
      | podman op => trivial
      | host op => trivial
    · cases b <;> exact Task.calls_pure _
  · exact Task.calls_pure _

theorem checkPoolerUp_infallible (name : String) (options : ResumeOptions) (outcome : UnitResume) :
    (checkPoolerUp name options outcome).Infallible := by
  unfold checkPoolerUp
  split
  · refine .bind (.attempt _) fun b => ?_
    cases b <;> exact .pure _
  · exact .pure _

theorem resumePoolers_writes (options : ResumeOptions) (todo : List PoolerRecord) :
    (resumePoolers options todo).run.Calls WritesNoInstance := by
  induction todo with
  | nil => exact Task.calls_pure _
  | cons record rest ih =>
    refine Task.calls_bind (resumeContainer_writes _ _ _ _ _ _) fun outcome => ?_
    refine Task.calls_bind (checkPoolerUp_writes _ _ _) fun outcome => ?_
    exact Task.calls_bind ih fun _ => Task.calls_pure _

theorem resumePoolers_infallible (options : ResumeOptions) (todo : List PoolerRecord) :
    (resumePoolers options todo).Infallible := by
  induction todo with
  | nil => exact .pure _
  | cons record rest ih =>
    refine .bind (resumeContainer_infallible _ _ _ _ _ _) fun outcome => ?_
    refine .bind (checkPoolerUp_infallible _ _ _) fun outcome => ?_
    exact .bind ih fun _ => .pure _

/-- The host answers whatever it is asked. -/
theorem startable_answers {β : Type} (op : CtlOp β) (s : Boot) :
    ∃ b t, (Boot.startable json rows).step op s b t := by
  cases op with
  | registry op =>
    cases op with
    | listClusters => exact ⟨_, s, ⟨rfl, rfl⟩, trivial⟩
    | instances c => exact ⟨_, s, ⟨rfl, rfl⟩, trivial⟩
    | listPoolers => exact ⟨_, s, ⟨rfl, rfl⟩, trivial⟩
    | putInstance rec => exact ⟨.ok (), _, .inl ⟨rfl, rfl⟩, trivial⟩
    | _ => exact ⟨.error (.registry ""), s, rfl, trivial⟩
  | podman op =>
    cases op with
    | probe ref =>
      exact ⟨.ok (some ⟨"", none, true, none, none, [], none, none⟩), _, rfl, fun _ => ⟨_, rfl⟩⟩
    | start ref => exact ⟨.ok (), _, rfl, fun _ => rfl⟩
    | _ => exact ⟨.error (.registry ""), s, rfl, trivial⟩
  | host op =>
    cases op with
    | portAvailable port => exact ⟨.ok (), s, rfl, fun _ => rfl⟩
    | agentExists => exact ⟨true, s, rfl, trivial⟩
    | allocatePort => exact ⟨.error (.registry ""), s, rfl, trivial⟩
    | generatePassword => exact ⟨"", s, rfl, trivial⟩
    | stamp => exact ⟨"", s, rfl, trivial⟩
    | now => exact ⟨0, s, rfl, trivial⟩
    | elapsed since => exact ⟨0, s, rfl, trivial⟩
    | beforeDeadline => exact ⟨false, s, rfl, trivial⟩

end Runs

/-! ## Isolation -/

/-- Every row that boot recovery reads can be read. -/
def AllReadable (json : StoredJson) (T : Tables) : Prop :=
  (∀ c ∈ T.clusters, c.Readable json) ∧
    (∀ c ∈ T.clusters, c.phase = "running" → InstancesReadable T c.name) ∧
    ∀ p ∈ T.poolers, p.Readable json

theorem parseLenient_running {phase : String} :
    (ClusterPhase.parseLenient phase).skipReason = none ↔ phase = "running" := by
  unfold ClusterPhase.parseLenient
  split
  · next h => simp [ClusterPhase.skipReason, h]
  · split
    · next h => simp [ClusterPhase.skipReason, h]
    · next h =>
      refine iff_of_false ?_ h
      split_ifs <;> simp [ClusterPhase.skipReason]

/-- The records that are to come up are those of the rows recorded running. -/
theorem toComeUp_readable {json : StoredJson} {T : Tables} {records : List ClusterRecord}
    (h : T.listClusters json = .ok records) :
    (∀ record ∈ records, ToComeUp record → InstancesReadable T record.name) ↔
      ∀ c ∈ T.clusters, c.phase = "running" → InstancesReadable T c.name := by
  have hreadable := Tables.listClusters_isOk.mp (except_isOk_iff.mpr ⟨_, h⟩)
  have hto : ∀ c ∈ T.clusters, ∃ record ∈ records,
      record.name = c.name ∧ record.phase = c.phase := by
    intro c hc
    obtain ⟨hvalid, hok⟩ := hreadable c hc
    obtain ⟨m, hm⟩ := except_isOk_iff.mp hok
    exact ⟨_, (Tables.mem_listClusters h).mpr
      ⟨c, hc, (Tables.listed_of_row hc _).mpr ⟨hvalid, m, hm, rfl⟩⟩, rfl, rfl⟩
  constructor
  · intro hall c hc hphase
    obtain ⟨record, hrecord, hname, hrphase⟩ := hto c hc
    rw [← hname]
    exact hall record hrecord (parseLenient_running.mpr (hrphase.trans hphase))
  · intro hall record hrecord hcome
    obtain ⟨c, hc, hlisted⟩ := (Tables.mem_listClusters h).mp hrecord
    obtain ⟨-, m, -, rfl⟩ := (Tables.listed_of_row hc _).mp hlisted
    exact hall c hc (parseLenient_running.mp hcome)

section Isolation

variable {json : StoredJson} {rows : List InstanceRecord} {D : Tables} {A : ClusterRow}
  {options : ResumeOptions} {r : Except Error ResumeReport} {u : Boot}

/-- The three parts of a recovery: the clusters' rows, the clusters, the poolers. -/
theorem resumeWith_cases
    (h : (Boot.startable json rows).Reach (resumeWith options).run ⟨D, []⟩ (.ret r) u) :
    (r.isOk = false ∧ (D.listClusters json).isOk = false) ∨
      ∃ records rc v, D.listClusters json = .ok records ∧
        (Boot.startable json rows).Reach (resumeClusters options records).run ⟨D, []⟩ (.ret rc) v ∧
        v.log <+: u.log ∧
        (r.isOk = true ↔ rc.isOk = true ∧ (v.tables.listPoolers json).isOk = true) := by
  rcases h.task_bind_inv with ⟨records, s, hlist, hafter⟩ | ⟨e, rfl, hlist⟩
  swap
  · obtain ⟨hanswer, -⟩ := (startable_ask hlist).1
    exact .inl ⟨rfl, by simp [← hanswer]⟩
  obtain ⟨hanswer, rfl⟩ := (startable_ask hlist).1
  refine .inr ?_
  rcases hafter.task_bind_inv with ⟨clusters, v, hclusters, hafter⟩ | ⟨e, rfl, hclusters⟩
  swap
  · exact ⟨records, _, u, hanswer.symm, hclusters, List.prefix_rfl, by simp⟩
  refine ⟨records, _, v, hanswer.symm, hclusters, ?_⟩
  rcases hafter.task_bind_inv with ⟨poolerRecords, w, hpoolers, hlast⟩ | ⟨e, rfl, hpoolers⟩
  swap
  · obtain ⟨hread, rfl⟩ := (startable_ask hpoolers).1
    exact ⟨List.prefix_rfl, by simp [← hread]⟩
  obtain ⟨hread, rfl⟩ := (startable_ask hpoolers).1
  have hlog := (within_of_calls (k := "") hlast
    (Task.calls_bind (resumePoolers_writes _ _) fun _ => Task.calls_pure _)).log
  obtain ⟨_, rfl⟩ := hlast.of_infallible (.bind (resumePoolers_infallible _ _) fun _ => .pure _)
  exact ⟨hlog, by simp [← hread]⟩

/-- Boot recovery ends well exactly when every row it reads can be read. -/
theorem resumeWith_ok
    (h : (Boot.startable json rows).Reach (resumeWith options).run ⟨D, []⟩ (.ret r) u) :
    r.isOk = true ↔ AllReadable json D := by
  rcases resumeWith_cases h with ⟨hr, hlist⟩ | ⟨records, rc, v, hlist, hclusters, -, hr⟩
  · refine iff_of_false (by simp [hr]) fun hall => ?_
    rw [Tables.listClusters_isOk.mpr hall.1] at hlist
    cases hlist
  · obtain ⟨hnodup, hvalid⟩ := Tables.names_of_listClusters hlist
    obtain ⟨hpoolers, -, hok, -⟩ := resumeClusters_run hvalid hnodup hclusters
    have hrows := Tables.listClusters_isOk.mp (except_isOk_iff.mpr ⟨_, hlist⟩)
    rw [hr, hok, Tables.listPoolers_isOk, hpoolers, toComeUp_readable hlist]
    exact ⟨fun hall => ⟨hrows, hall.1, hall.2⟩, fun hall => hall.2⟩

/-- Then every instance of a cluster recorded running is up, if its phase lets it. -/
theorem resumeWith_up
    (h : (Boot.startable json rows).Reach (resumeWith options).run ⟨D, []⟩ (.ret r) u)
    (hok : r.isOk = true) (hA : A ∈ D.clusters) (hphase : A.phase = "running") {c : ClusterId}
    (hc : c.name = A.name) (hrows : D.instancesOf c = .ok rows) {row : InstanceRecord}
    (hrow : row ∈ rows) (hunit : row.phase.blocksRestart = false) :
    Boot.BroughtUp options.dryRun u.log row := by
  rcases resumeWith_cases h with ⟨hr, -⟩ | ⟨records, rc, v, hlist, hclusters, hlog, hr⟩
  · rw [hok] at hr
    cases hr
  · obtain ⟨hnodup, hvalid⟩ := Tables.names_of_listClusters hlist
    obtain ⟨-, -, -, hup⟩ := resumeClusters_run hvalid hnodup hclusters
    have hreadable := Tables.listClusters_isOk.mp (except_isOk_iff.mpr ⟨_, hlist⟩)
    obtain ⟨hname, hjson⟩ := hreadable A hA
    obtain ⟨m, hm⟩ := except_isOk_iff.mp hjson
    have hrecord := (Tables.mem_listClusters hlist).mpr
      ⟨A, hA, (Tables.listed_of_row hA _).mpr ⟨hname, m, hm, rfl⟩⟩
    exact (hup (hr.mp hok).1 _ hrecord (parseLenient_running.mpr hphase) c hc rows hrows row hrow
      hrow hunit).mono hlog

/-- **Failure isolation.** -/
theorem resume_isolated_iff (hA : A ∈ D.clusters) (hphase : A.phase = "running")
    {c : ClusterId} (hc : c.name = A.name) (hrows : D.instancesOf c = .ok rows)
    (hunits : ∀ row ∈ rows, row.phase.blocksRestart = false)
    (h : (Boot.startable json rows).Reach (resumeWith options).run ⟨D, []⟩ (.ret r) u) :
    (r.isOk = true ∧ ∀ row ∈ rows, Boot.BroughtUp options.dryRun u.log row) ↔
      AllReadable json D := by
  constructor
  · exact fun hall => (resumeWith_ok h).mp hall.1
  · intro hall
    have hok := (resumeWith_ok h).mpr hall
    exact ⟨hok, fun row hrow => resumeWith_up h hok hA hphase hc hrows hrow (hunits row hrow)⟩

end Isolation

/-! ## A row beside a readable one -/

namespace BootSample

def manifest : ClusterManifest where
  apiVersion := "pgpod/v1"
  kind := "Cluster"
  metadata := ⟨"mydb"⟩
  spec := { imageName := "docker.io/library/postgres:18", postgresUid := 999, postgresGid := 999 }

def mydb : ClusterRow := ⟨"mydb", "mydb.json", 1, "running"⟩

/-- Written by another version of pgpod. -/
def newer : ClusterRow := ⟨"newer", "newer.json", 1, "running"⟩

/-- Recorded running as well, with no instance yet. -/
def other : ClusterRow := ⟨"other", "mydb.json", 1, "running"⟩

def row : InstanceRow where
  cluster := "mydb"
  ordinal := 1
  containerName := "pgpod-mydb-1"
  containerId := none
  volumeName := "pgpod-mydb-1"
  hostPort := 5432
  phase := "running"
  role := "primary"

def record : InstanceRecord where
  cluster := "mydb"
  ordinal := 1
  containerName := "pgpod-mydb-1"
  containerId := none
  volumeName := "pgpod-mydb-1"
  hostPort := 5432
  phase := .running
  role := .primary

def json : StoredJson where
  cluster text := if text = "mydb.json" then .ok manifest else .error "missing field imageName"
  pooler _ := .error "missing field clusters"

def tables (others : List ClusterRow) (h : ((mydb :: others).map ClusterRow.name).Nodup) : Tables where
  clusters := mydb :: others
  instances := [row]
  clusterKey := h

def options : ResumeOptions := ⟨DEFAULT_RESUME_WAIT, false⟩

def cluster : ClusterId := ⟨"mydb", mydb_valid⟩

theorem instancesOf_mydb (others : List ClusterRow)
    (h : ((mydb :: others).map ClusterRow.name).Nodup) :
    (tables others h).instancesOf cluster = .ok [record] := by
  rw [Tables.instancesOf, Tables.instanceRows]
  simp [tables, row, cluster, InstanceRow.decode]
  rfl

/-- A manifest that does not decode: nothing of `mydb` is even looked at. -/
theorem undecodable_row_stops_all : ∃ e,
    (Boot.startable json [record]).Reach (resumeWith options).run
      ⟨tables [newer] (by decide), []⟩ (.ret (.error e)) ⟨tables [newer] (by decide), []⟩ ∧
    mydb.Readable json ∧ (tables [newer] (by decide)).instancesOf cluster = .ok [record] ∧
    record.phase.blocksRestart = false ∧ ¬ Boot.BroughtUp options.dryRun [] record := by
  have hfail : ((tables [newer] (by decide)).listClusters json).isOk = false := by
    rw [Bool.eq_false_iff, ne_eq, Tables.listClusters_isOk]
    exact fun hall => Bool.false_ne_true (hall newer (by simp [tables])).2
  cases hlist : (tables [newer] (by decide)).listClusters json with
  | ok records => simp [hlist] at hfail
  | error e =>
    refine ⟨e, .head ⟨⟨hlist.symm, rfl⟩, trivial⟩ .refl, ⟨by decide, rfl⟩,
      instancesOf_mydb _ _, rfl, ?_⟩
    rintro (⟨p, hp, -⟩ | hs)
    · cases hp
    · cases hs

/-- Beside a readable one it is brought up. -/
theorem resume_isolated_iff_readable : ∃ r u,
    (Boot.startable json [record]).Reach (resumeWith options).run
      ⟨tables [other] (by decide), []⟩ (.ret r) u ∧
    r.isOk = true ∧ ∀ row ∈ [record], Boot.BroughtUp options.dryRun u.log row := by
  obtain ⟨r, u, hrun⟩ := Machine.Reach.exists_ret (fun _ => startable_answers)
    (resumeWith options).run (⟨tables [other] (by decide), []⟩ : Boot)
  refine ⟨r, u, hrun, (resume_isolated_iff (A := mydb) (by simp [tables]) rfl (c := cluster)
    rfl (instancesOf_mydb _ _) (by simp [record, InstancePhase.blocksRestart]) hrun).mpr ?_⟩
  refine ⟨?_, ?_, by simp [tables]⟩
  · simp only [tables, List.mem_cons, List.not_mem_nil, or_false]
    rintro c (rfl | rfl)
    · exact ⟨by decide, rfl⟩
    · exact ⟨by decide, rfl⟩
  · intro c _ _ r hr _
    obtain rfl : r = row := by simpa [tables] using hr
    rfl

end BootSample

end Control

end Pgpod
