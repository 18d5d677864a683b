import Pgpod.Control.BootIsolation

/-!
# What boot recovery may do

Whatever podman and the host answer, and wherever a recovery is cut off: it starts a
container only for a row that said so when it began, and only after podman had it, not
running; it creates, removes and stops nothing; and of the registry it changes no more than
the phase of an instance that has come up.  A dry run only looks.
-/

namespace Pgpod

open Effect

namespace Control

/-! ## What the rows say -/

/-- A cluster that is recorded running. -/
def ToRun (D : Tables) (name : String) : Prop :=
  ∃ c ∈ D.clusters, c.name = name ∧ c.phase = "running"

/-- The container of an instance whose phase lets it be started, of a cluster recorded running, or
of a pooler recorded running. -/
def Due (D : Tables) (ref : String) : Prop :=
  (∃ c : ClusterId, ToRun D c.name ∧ ∃ recs, D.instancesOf c = .ok recs ∧
    ∃ row ∈ recs, row.containerName = ref ∧ row.phase.blocksRestart = false) ∨
  ∃ p ∈ D.poolers, p.phase = "running" ∧ p.containerName = ref

/-- Podman has said of the container that it does not run. -/
def FoundStopped (s : Boot) (ref : String) : Prop :=
  ∃ p, .probed ref p ∈ s.log ∧ p.running = false

/-- The row is one of the registry, of a cluster recorded running, but for its phase. -/
def Marks (D : Tables) (s : Boot) (rec : InstanceRecord) : Prop :=
  ∃ c : ClusterId, ToRun D c.name ∧ ∃ recs, s.tables.instancesOf c = .ok recs ∧
    ∃ row ∈ recs, rec = { row with phase := .running }

/-- What a recovery may do next, of the tables it began with. -/
def Recovers (D : Tables) (options : ResumeOptions) : ∀ ⦃β : Type⦄, CtlOp β → Boot → Prop
  | _, .registry .listClusters, _ => True
  | _, .registry (.instances _), _ => True
  | _, .registry .listPoolers, _ => True
  | _, .registry (.recordEvent _ _ _ _), _ => options.dryRun = false
  | _, .registry (.putInstance rec), s => options.dryRun = false ∧ Marks D s rec
  | _, .podman (.probe _), _ => True
  | _, .podman (.logs _), _ => options.dryRun = false
  | _, .podman (.exec _ cmd), _ =>
    options.dryRun = false ∧ (cmd = .pgIsReady ∨ cmd = .poolerControl "pools" [])
  | _, .podman (.start ref), s => options.dryRun = false ∧ Due D ref ∧ FoundStopped s ref
  | _, .host (.portAvailable _), _ => True
  | _, .host .beforeDeadline, _ => options.dryRun = false
  | _, _, _ => False

/-- The rows of these clusters, and the poolers, are as they were. -/
structure Unread (D : Tables) (names : List String) (s : Boot) : Prop where
  poolers : s.tables.poolers = D.poolers
  instances : ∀ c : ClusterId, c.name ∈ names → s.tables.instancesOf c = D.instancesOf c

/-- A container is started under phases that let it be, when podman has it and it does not run. -/
theorem decideContainer_start {cluster : ClusterPhase} {unit : InstancePhase}
    {probe : Option ContainerProbe} (h : decideContainer cluster unit probe = .start) :
    cluster.skipReason = none ∧ unit.blocksRestart = false ∧
      ∃ p, probe = some p ∧ p.running = false := by
  unfold decideContainer at h
  cases hskip : cluster.skipReason with
  | some why =>
    rw [hskip] at h
    cases h
  | none =>
    simp only [hskip] at h
    by_cases hunit : unit.blocksRestart = true
    · rw [if_pos hunit] at h
      cases h
    · rw [if_neg hunit] at h
      refine ⟨rfl, Bool.eq_false_iff.2 hunit, ?_⟩
      cases probe with
      | none => cases h
      | some p =>
        simp only at h
        by_cases hrunning : p.running = true
        · rw [if_pos hrunning] at h
          cases h
        · exact ⟨p, rfl, Bool.eq_false_iff.2 hrunning⟩

section Safety

variable {json : StoredJson} {D : Tables} {options : ResumeOptions} {names : List String}

theorem boot_stable (I : Boot → Prop) : (Boot.machine json).Stable I := fun _ _ h => h.elim

/-- A fallible operation on its own. -/
theorem boot_ask {β : Type} {op : CtlOp (Except Error β)} {I : Boot → Prop}
    {J : Except Error β → Boot → Prop} (hguard : ∀ s, I s → Recovers D options op s)
    (hstep : ∀ s b t, I s → Boot.answers json op s b t → J b t) :
    (Boot.machine json).Triple (Recovers D options) I (Task.ask op).run J :=
  .perform (boot_stable _) (fun _ => boot_stable _) hguard hstep

theorem probe_tables {ref : String} {s t : Boot} {b : Except Error (Option ContainerProbe)}
    (h : Boot.answers json (.podman (.probe ref)) s b t) : t.tables = s.tables := by
  match b, h with
  | .ok (some p), h => 
    rw [show t = { s with log := s.log ++ [.probed ref p] } from h]
  | .ok none, h => exact congrArg Boot.tables h
  | .error _, h => exact congrArg Boot.tables h

theorem start_tables {ref : String} {s t : Boot} {b : Except Error Unit}
    (h : Boot.answers json (.podman (.start ref)) s b t) : t.tables = s.tables := by
  match b, h with
  | .ok (), h => 
    rw [show t = { s with log := s.log ++ [.started ref] } from h]
  | .error _, h => exact congrArg Boot.tables h

/-! ### One container -/

theorem portProblem_keeps (port : Option UInt16) (I : Boot → Prop) :
    (Boot.machine json).Keeps (Recovers D options) I (portProblem port).run := by
  cases port with
  | none => exact .ret (boot_stable _) fun _ h => h
  | some port =>
    have hstep : ∀ (s : Boot) (b : Except String Unit) (t : Boot), I s →
        (Boot.machine json).step (.host (.portAvailable port)) s b t → I t := by
      rintro s b t hs rfl
      exact hs
    refine Machine.Triple.call (boot_stable _) (fun _ _ => trivial) hstep fun b => ?_
    cases b <;> exact .ret (boot_stable _) fun _ h => h

/-- A container that podman has, not running, is started where that is due. -/
theorem startContainer_recovers {name cn : String} {port : Option UInt16}
    (hdue : options.dryRun = false → Due D cn) :
    (Boot.machine json).Triple (Recovers D options)
      (fun s => Unread D names s ∧ FoundStopped s cn)
      (startContainer name cn port options.dryRun).run fun r s => Unread D names s ∧
        ∀ u, r = .ok u → u.action = .started → options.dryRun = false := by
  refine Machine.Triple.task_bind (portProblem_keeps port _) (fun problem => ?_)
    (fun _ => boot_stable _) fun e s hs => ⟨hs.1, fun u hu => by cases hu⟩
  cases hdry : options.dryRun with
  | true =>
    refine .ret (boot_stable _) fun s hs => ⟨hs.1, fun u hu hstarted => ?_⟩
    obtain rfl := Except.ok.inj hu
    cases hstarted
  | false =>
    cases problem with
    | some fact => exact .ret (boot_stable _) fun s hs => ⟨hs.1, fun _ _ _ => rfl⟩
    | none =>
      have hstart : (Boot.machine json).Triple (Recovers D options)
          (fun s => Unread D names s ∧ FoundStopped s cn)
          (podman (.start cn)).run fun _ => Unread D names := by
        refine boot_ask (fun s hs => ⟨hdry, hdue hdry, hs.2⟩) fun s b t hs hop => ?_
        have ht := start_tables hop
        exact ⟨by rw [ht]; exact hs.1.poolers, by rw [ht]; exact hs.1.instances⟩
      refine Machine.Triple.attempt_bind hstart fun r => ?_
      cases r <;> exact .ret (boot_stable _) fun s hs => ⟨hs, fun _ _ _ => rfl⟩

theorem resumeContainer_recovers {name cn : String} {phase : ClusterPhase} {unit : InstancePhase}
    {port : Option UInt16} (hdue : options.dryRun = false → phase.skipReason = none →
      unit.blocksRestart = false → Due D cn) :
    (Boot.machine json).Triple (Recovers D options) (Unread D names)
      (resumeContainer name cn phase unit port options.dryRun).run fun r s => Unread D names s ∧
        ∀ u, r = .ok u → u.action = .started → options.dryRun = false := by
  have hprobe : (Boot.machine json).Triple (Recovers D options) (Unread D names)
      (podman (.probe cn)).run fun r s => Unread D names s ∧
        ∀ p, r = .ok (some p) → .probed cn p ∈ s.log := by
    refine boot_ask (fun _ _ => trivial) fun s b t hs hop => ?_
    have ht := probe_tables hop
    refine ⟨⟨by rw [ht]; exact hs.poolers, by rw [ht]; exact hs.instances⟩, ?_⟩
    rintro p rfl
    have hlog : t = { s with log := s.log ++ [.probed cn p] } := hop
    simp [hlog]
  have hquiet : ∀ {u : UnitResume} {I : Boot → Prop}, u.action ≠ .started →
      (∀ s, I s → Unread D names s) →
      (Boot.machine json).Triple (Recovers D options) I (pure u : CtlTask UnitResume).run
        fun r s => Unread D names s ∧
          ∀ u, r = .ok u → u.action = .started → options.dryRun = false := by
    intro u I hu hI
    refine .ret (boot_stable _) fun s hs => ⟨hI s hs, fun u' hu' hstarted => ?_⟩
    obtain rfl := Except.ok.inj hu'
    exact absurd hstarted hu
  refine Machine.Triple.attempt_bind hprobe fun r => ?_
  cases r with
  | error e => exact hquiet (by simp) fun s hs => hs.1
  | ok probe =>
    simp only
    cases hdecision : decideContainer phase unit probe with
    | adopt => exact hquiet (by simp) fun s hs => hs.1
    | skip why => exact hquiet (by simp) fun s hs => hs.1
    | missing => exact hquiet (by simp) fun s hs => hs.1
    | start =>
      obtain ⟨hskip, hunit, p, rfl, hrunning⟩ := decideContainer_start hdecision
      refine (startContainer_recovers fun hdry => hdue hdry hskip hunit).strengthen ?_
      exact fun s hs => ⟨hs.1, p, hs.2 p rfl, hrunning⟩

/-! ### Waiting -/

/-- The readiness of what was started is asked for and its log read; nothing else is done. -/
def Waits : ∀ ⦃β : Type⦄, CtlOp β → Prop
  | _, .podman (.probe _) => True
  | _, .podman (.logs _) => True
  | _, .podman (.exec _ cmd) => cmd = .pgIsReady ∨ cmd = .poolerControl "pools" []
  | _, .host .beforeDeadline => True
  | _, .registry (.recordEvent _ _ _ _) => True
  | _, _ => False

theorem waits_recovers (hdry : options.dryRun = false) {α : Type} {p : Prog CtlOp α}
    (hp : p.Calls Waits) :
    (Boot.machine json).Keeps (Recovers D options) (Unread D names) p := by
  refine Machine.Triple.of_calls (boot_stable _) (fun β op s hop _ => ?_)
    (fun β op s b t hop hs h => ?_) hp
  · cases op with
    | registry op => cases op <;> first | exact hdry | exact hop.elim
    | podman op =>
      cases op with
      | probe _ => trivial
      | logs _ => exact hdry
      | exec _ _ => exact ⟨hdry, hop⟩
      | _ => exact hop.elim
    | host op => cases op <;> first | exact hdry | exact hop.elim
  · have htables : t.tables = s.tables := by
      cases op with
      | registry op => cases op <;> first | exact congrArg Boot.tables h | exact hop.elim
      | podman op =>
        cases op with
        | probe ref =>
          have hprobe : Boot.answers json (.podman (.probe ref)) s b t := h
          exact probe_tables hprobe
        | logs _ => exact congrArg Boot.tables h
        | exec _ _ => exact congrArg Boot.tables h
        | _ => exact hop.elim
      | host op => exact congrArg Boot.tables h
    exact ⟨by rw [htables]; exact hs.poolers, by rw [htables]; exact hs.instances⟩

theorem logsOrWhyNot_waits (ref : String) : (logsOrWhyNot ref).run.Calls Waits := by
  refine Task.calls_bind (Task.calls_attempt (Task.calls_ask trivial)) fun r => ?_
  cases r <;> exact Task.calls_pure _

theorem notReady_waits {α : Type} (inst : InstanceId) (timeout : Duration) (last : String) :
    (notReady inst timeout last : CtlTask α).run.Calls Waits :=
  Task.calls_bind (logsOrWhyNot_waits _) fun _ => Task.calls_throw _

theorem pollPooler_waits (pooler : PoolerId) (timeout : Duration) (rounds : Nat) (last : String) :
    (pollPooler pooler timeout rounds last).run.Calls Waits := by
  have hnot : ∀ last, (poolerNotReady pooler timeout last : CtlTask Unit).run.Calls Waits :=
    fun last => Task.calls_bind (logsOrWhyNot_waits _) fun _ => Task.calls_throw _
  induction rounds generalizing last with
  | zero => exact hnot last
  | succ rounds ih =>
    refine Task.calls_bind (Task.calls_perform trivial) fun time => ?_
    split
    · exact hnot last
    refine Task.calls_bind (Task.calls_attempt ?_) fun r => ?_
    · refine Task.calls_bind (Task.calls_ask (.inr rfl)) fun out => ?_
      split
      · exact Task.calls_pure _
      · exact Task.calls_throw _
    cases r with
    | ok _ => exact Task.calls_pure _
    | error e =>
      refine Task.calls_bind (Task.calls_ask trivial) fun probe => ?_
      split
      · exact hnot _
      · exact ih _

/-- The rows of an instance that came up: one of them is written back, running. -/
theorem markRunning_recovers (hdry : options.dryRun = false) {inst : InstanceId}
    (hrun : ToRun D inst.cluster.name) (hread : inst.cluster.name ∉ names) :
    (Boot.machine json).Keeps (Recovers D options) (Unread D names) (markRunning inst).run := by
  unfold markRunning instanceRow
  rw [Task.bind_assoc]
  have hrows : (Boot.machine json).Triple (Recovers D options) (Unread D names)
      (registry (.instances inst.cluster)).run fun r s => Unread D names s ∧
        r = s.tables.instancesOf inst.cluster := by
    refine boot_ask (fun _ _ => trivial) fun s b t hs hop => ?_
    obtain ⟨hb, rfl⟩ := hop
    exact ⟨hs, hb⟩
  refine Machine.Triple.task_bind hrows (fun recs => ?_) (fun _ => boot_stable _) fun _ _ hs => hs.1
  rw [Task.pure_bind]
  cases hfind : recs.find? fun rec => rec.ordinal = inst.ordinal with
  | none => exact .ret (boot_stable _) fun s hs => hs.1
  | some rec =>
    have hmem : rec ∈ recs := List.mem_of_find?_eq_some hfind
    refine boot_ask (fun s hs => ⟨hdry, inst.cluster, hrun, recs, hs.2.symm, rec, hmem, rfl⟩) ?_
    rintro s b t ⟨hs, hrecs⟩ (⟨-, rfl⟩ | ⟨-, rfl⟩)
    · have hcluster : rec.cluster = inst.cluster.name :=
        Tables.cluster_of_mem_instancesOf hrecs.symm hmem
      have hwithin : Within inst.cluster.name s
          { s with tables := s.tables.putInstance { rec with phase := .running } } := by
        refine .putInstance ?_ s
        exact hcluster
      refine ⟨hwithin.poolers.trans hs.poolers, fun c hc => ?_⟩
      rw [← hs.instances c hc]
      exact hwithin.instancesOf fun heq => hread (heq ▸ hc)
    · exact hs

theorem pollReady_recovers (hdry : options.dryRun = false) {inst : InstanceId}
    (hrun : ToRun D inst.cluster.name) (hread : inst.cluster.name ∉ names) (timeout : Duration)
    (rounds : Nat) (last : String) :
    (Boot.machine json).Keeps (Recovers D options) (Unread D names)
      (pollReady inst timeout rounds last).run := by
  induction rounds generalizing last with
  | zero => exact waits_recovers hdry (notReady_waits _ _ _)
  | succ rounds ih =>
    have hagain : ∀ last, (Boot.machine json).Keeps (Recovers D options) (Unread D names) (do
        let probe ← podman (.probe inst.containerName)
        if probe.any fun p => !p.running then notReady inst timeout last
        else pollReady inst timeout rounds last : CtlTask Unit).run := by
      intro last
      refine Machine.Keeps.task_bind (boot_stable _)
        (waits_recovers hdry (Task.calls_ask trivial)) fun probe => ?_
      split
      · exact waits_recovers hdry (notReady_waits _ _ _)
      · exact ih last
    unfold pollReady
    refine Machine.Keeps.task_bind (boot_stable _)
      (waits_recovers hdry (Task.calls_perform trivial)) fun time => ?_
    split
    · exact waits_recovers hdry (notReady_waits _ _ _)
    refine Machine.Triple.attempt_bind
      (waits_recovers hdry (Task.calls_ask (.inl rfl))) fun r => ?_
    cases r with
    | error e => exact hagain _
    | ok out =>
      simp only
      split
      · exact markRunning_recovers hdry hrun hread
      · exact hagain _

theorem recordResumeEvent_waits (cluster level detail : String) :
    (recordResumeEvent cluster level detail).run.Calls Waits :=
  Task.calls_bind (Task.calls_attempt (Task.calls_ask trivial)) fun _ => Task.calls_pure _

theorem awaitStarted_recovers {inst : InstanceId} (hrun : ToRun D inst.cluster.name)
    (hread : inst.cluster.name ∉ names) {outcome : UnitResume}
    (hdry : outcome.action = .started → options.dryRun = false) :
    (Boot.machine json).Keeps (Recovers D options) (Unread D names)
      (awaitStarted inst options outcome).run := by
  unfold awaitStarted
  cases hstarted : decide (outcome.action = .started) with
  | false => exact .ret (boot_stable _) fun _ hs => hs
  | true =>
    have hreal := hdry (of_decide_eq_true hstarted)
    rw [Task.when_true]
    refine Machine.Triple.attempt_bind (pollReady_recovers hreal hrun hread _ _ _) fun r => ?_
    cases r with
    | ok _ => exact .ret (boot_stable _) fun _ hs => hs
    | error e => exact waits_recovers hreal (recordResumeEvent_waits _ _ _)

/-! ### Clusters and poolers -/

theorem resumeInstances_recovers {cluster : ClusterId} {phase : ClusterPhase}
    (hrun : ToRun D cluster.name) (hread : cluster.name ∉ names) {todo : List InstanceRecord}
    (hdue : ∀ row ∈ todo, row.phase.blocksRestart = false → Due D row.containerName) :
    (Boot.machine json).Keeps (Recovers D options) (Unread D names)
      (resumeInstances cluster phase options todo).run := by
  induction todo with
  | nil => exact .ret (boot_stable _) fun _ hs => hs
  | cons row rest ih =>
    have hone := @resumeContainer_recovers json D options names (cluster.inst row.ordinal).toText
      row.containerName phase row.phase (some row.hostPort) fun _ _ hunit =>
        hdue row List.mem_cons_self hunit
    refine Machine.Triple.task_bind hone (fun outcome => ?_) (fun _ => boot_stable _)
      fun _ _ hs => hs.1
    by_cases hdry : outcome.action = .started → options.dryRun = false
    · refine Machine.Triple.strengthen ?_ fun s hs => hs.1
      refine Machine.Keeps.task_bind (boot_stable _)
        (awaitStarted_recovers hrun hread hdry) fun _ => ?_
      refine Machine.Keeps.task_bind (boot_stable _)
        (ih fun row' hrow' => hdue row' (List.mem_cons_of_mem _ hrow')) fun _ => ?_
      exact .ret (boot_stable _) fun _ hs => hs
    · exact fun s hs => absurd (hs.2 outcome rfl) hdry

theorem Unread.tail {n : String} {s : Boot} (h : Unread D (n :: names) s) : Unread D names s :=
  ⟨h.poolers, fun c hc => h.instances c (List.mem_cons_of_mem _ hc)⟩

/-- Without an event recorded, or with one where the run is not dry. -/
theorem whenReal_recovers {b : Bool} (hb : b = true → options.dryRun = false)
    (cluster level detail : String) :
    (Boot.machine json).Keeps (Recovers D options) (Unread D names)
      (Task.when b (recordResumeEvent cluster level detail)).run := by
  cases b with
  | false => exact .ret (boot_stable _) fun _ hs => hs
  | true => exact waits_recovers (hb rfl) (recordResumeEvent_waits _ _ _)

theorem resumeCluster_recovers {name storedPhase : String}
    (hrow : ∃ c ∈ D.clusters, c.name = name ∧ c.phase = storedPhase) (hread : name ∉ names) :
    (Boot.machine json).Triple (Recovers D options) (Unread D (name :: names))
      (resumeCluster name storedPhase options).run fun _ => Unread D names := by
  unfold resumeCluster
  cases hid : ClusterId.new name with
  | error e => exact .ret (boot_stable _) fun _ hs => hs.tail
  | ok cluster =>
    have hname : cluster.name = name := by
      unfold ClusterId.new at hid
      split at hid
      · exact (congrArg ClusterId.name (Except.ok.inj hid)).symm
      · cases hid
    simp only
    cases hskip : (ClusterPhase.parseLenient storedPhase).skipReason with
    | some why =>
      refine Machine.Triple.strengthen ?_ fun s hs => Unread.tail hs
      refine Machine.Keeps.task_bind (boot_stable _)
        (whenReal_recovers (by simp) _ _ _) fun _ => ?_
      exact .ret (boot_stable _) fun _ hs => hs
    | none =>
      obtain ⟨c, hc, hcname, hcphase⟩ := hrow
      have hrun : ToRun D cluster.name :=
        ⟨c, hc, hcname.trans hname.symm, hcphase.trans (parseLenient_running.1 hskip)⟩
      have hrows : (Boot.machine json).Triple (Recovers D options) (Unread D (name :: names))
          (registry (.instances cluster)).run fun r s => Unread D names s ∧
            r = D.instancesOf cluster := by
        refine boot_ask (fun _ _ => trivial) fun s b t hs hop => ?_
        obtain ⟨hb, rfl⟩ := hop
        exact ⟨hs.tail, hb.trans (hs.instances cluster (hname ▸ List.mem_cons_self))⟩
      refine Machine.Triple.task_bind hrows (fun recs => ?_) (fun _ => boot_stable _)
        fun _ _ hs => hs.1
      by_cases hrecs : D.instancesOf cluster = .ok recs
      · refine Machine.Triple.strengthen ?_ fun s hs => And.left hs
        have hdue : ∀ row ∈ resumeOrder recs, row.phase.blocksRestart = false →
            Due D row.containerName := fun row hmem hunit =>
          .inl ⟨cluster, hrun, recs, hrecs, row, List.mem_mergeSort.1 hmem, rfl, hunit⟩
        refine Machine.Keeps.task_bind (boot_stable _)
          (resumeInstances_recovers hrun (hname ▸ hread) hdue) fun units => ?_
        refine Machine.Keeps.task_bind (boot_stable _)
          (whenReal_recovers (by simp) _ _ _) fun _ => ?_
        exact .ret (boot_stable _) fun _ hs => hs
      · exact fun s hs => absurd hs.2.symm hrecs

theorem resumeClusters_recovers {todo : List ClusterRecord}
    (hrows : ∀ record ∈ todo, ∃ c ∈ D.clusters, c.name = record.name ∧ c.phase = record.phase)
    (hnodup : (todo.map ClusterRecord.name).Nodup) :
    (Boot.machine json).Triple (Recovers D options) (Unread D (todo.map ClusterRecord.name))
      (resumeClusters options todo).run fun _ => Unread D [] := by
  induction todo with
  | nil => exact .ret (boot_stable _) fun _ hs => hs
  | cons record rest ih =>
    rw [List.map_cons, List.nodup_cons] at hnodup
    have hdone : ∀ s, Unread D (rest.map ClusterRecord.name) s → Unread D [] s :=
      fun s hs => ⟨hs.poolers, fun c hc => absurd hc List.not_mem_nil⟩
    refine Machine.Triple.task_bind (resumeCluster_recovers (hrows record List.mem_cons_self)
      hnodup.1) (fun cluster => ?_) (fun _ => boot_stable _) fun _ s hs => hdone s hs
    have hrest := ih (fun r hr => hrows r (List.mem_cons_of_mem _ hr)) hnodup.2
    refine Machine.Triple.task_bind hrest (fun clusters => ?_) (fun _ => boot_stable _)
      fun _ _ hs => hs
    exact .ret (boot_stable _) fun _ hs => hs

/-- What is listed of the clusters stands in their rows. -/
theorem rows_of_listClusters {T : Tables} {records : List ClusterRecord}
    (h : T.listClusters json = .ok records) :
    ∀ record ∈ records, ∃ c ∈ T.clusters, c.name = record.name ∧ c.phase = record.phase := by
  intro record hrecord
  obtain ⟨c, hc, hlisted⟩ := (Tables.mem_listClusters h).1 hrecord
  obtain ⟨-, m, -, rfl⟩ := (Tables.listed_of_row hc _).1 hlisted
  exact ⟨c, hc, rfl, rfl⟩

theorem row_of_listedPooler {T : Tables} {name : String} {record : PoolerRecord}
    (h : T.listedPooler json name = .ok record) :
    ∃ p, (T.poolers.find? fun r => r.name = name) = some p ∧ p.phase = record.phase ∧
      p.containerName = record.containerName ∧ UInt16.ofInt p.hostPort = record.hostPort := by
  unfold Tables.listedPooler PoolerId.new at h
  by_cases hvalid : validClusterName name = true
  · rw [dif_pos hvalid] at h
    simp only [bind, Except.bind, Except.mapError, Tables.requirePooler, Tables.pooler] at h
    cases hfind : T.poolers.find? fun r => r.name = name with
    | none => simp [hfind] at h
    | some p =>
      cases hjson : json.pooler p.manifest with
      | error e => simp [hfind, hjson] at h
      | ok m =>
        simp only [hfind, hjson, Except.ok.injEq] at h
        subst h
        exact ⟨p, rfl, rfl, rfl, rfl⟩
  · rw [dif_neg hvalid] at h
    simp [bind, Except.bind, Except.mapError] at h

/-- What is listed of the poolers stands in their rows. -/
theorem row_of_listPoolers {T : Tables} {records : List PoolerRecord}
    (h : T.listPoolers json = .ok records) {record : PoolerRecord} (hrecord : record ∈ records) :
    ∃ p ∈ T.poolers, p.phase = record.phase ∧ p.containerName = record.containerName ∧
      UInt16.ofInt p.hostPort = record.hostPort := by
  obtain ⟨name, -, hlisted⟩ := (mapM_members h).1 record hrecord
  obtain ⟨p, hfind, hrow⟩ := row_of_listedPooler hlisted
  exact ⟨p, List.mem_of_find?_eq_some hfind, hrow⟩

theorem checkPoolerUp_recovers {name : String} {outcome : UnitResume}
    (hdry : outcome.action = .started → options.dryRun = false) :
    (Boot.machine json).Keeps (Recovers D options) (Unread D names)
      (checkPoolerUp name options outcome).run := by
  unfold checkPoolerUp
  split
  · next hstarted _ =>
    refine Machine.Triple.attempt_bind
      (waits_recovers (hdry hstarted) (pollPooler_waits _ _ _ _)) fun r => ?_
    cases r <;> exact .ret (boot_stable _) fun _ hs => hs
  · exact .ret (boot_stable _) fun _ hs => hs

theorem resumePoolers_recovers {todo : List PoolerRecord}
    (hrows : ∀ record ∈ todo,
      ∃ p ∈ D.poolers, p.phase = record.phase ∧ p.containerName = record.containerName) :
    (Boot.machine json).Keeps (Recovers D options) (Unread D names)
      (resumePoolers options todo).run := by
  induction todo with
  | nil => exact .ret (boot_stable _) fun _ hs => hs
  | cons record rest ih =>
    obtain ⟨p, hp, hphase, hcontainer⟩ := hrows record List.mem_cons_self
    have hone := @resumeContainer_recovers json D options names record.name record.containerName
      (ClusterPhase.parseLenient record.phase) .running (some record.hostPort) fun _ hskip _ =>
        .inr ⟨p, hp, hphase.trans (parseLenient_running.1 hskip), hcontainer⟩
    refine Machine.Triple.task_bind hone (fun outcome => ?_) (fun _ => boot_stable _)
      fun _ _ hs => hs.1
    by_cases hdry : outcome.action = .started → options.dryRun = false
    · refine Machine.Triple.strengthen ?_ fun s hs => And.left hs
      refine Machine.Keeps.task_bind (boot_stable _) (checkPoolerUp_recovers hdry) fun _ => ?_
      refine Machine.Keeps.task_bind (boot_stable _)
        (ih fun r hr => hrows r (List.mem_cons_of_mem _ hr)) fun _ => ?_
      exact .ret (boot_stable _) fun _ hs => hs
    · exact fun s hs => absurd (hs.2 outcome rfl) hdry

theorem resumeWith_recovers :
    (Boot.machine json).Triple (Recovers D options) (fun s => s.tables = D)
      (resumeWith options).run fun _ _ => True := by
  have hlist : (Boot.machine json).Triple (Recovers D options) (fun s => s.tables = D)
      (registry .listClusters).run fun r s => s.tables = D ∧ r = D.listClusters json := by
    refine boot_ask (fun _ _ => trivial) fun s b t hs hop => ?_
    obtain ⟨hb, rfl⟩ := hop
    exact ⟨hs, hs ▸ hb⟩
  refine Machine.Triple.task_bind hlist (fun records => ?_) (fun _ => boot_stable _)
    fun _ _ _ => trivial
  by_cases hrecords : D.listClusters json = .ok records
  swap
  · exact fun s hs => absurd hs.2.symm hrecords
  have hclusters := @resumeClusters_recovers json D options records
    (rows_of_listClusters hrecords) (Tables.names_of_listClusters hrecords).1
  refine Machine.Triple.strengthen (I := fun s => Unread D (records.map ClusterRecord.name) s) ?_
    fun s hs => ⟨by rw [hs.1], fun c _ => by rw [hs.1]⟩
  refine Machine.Triple.task_bind hclusters (fun clusters => ?_) (fun _ => boot_stable _)
    fun _ _ _ => trivial
  have hpoolers : (Boot.machine json).Triple (Recovers D options) (Unread D [])
      (registry .listPoolers).run fun r s => Unread D [] s ∧
        ∀ found, r = .ok found → ∀ record ∈ found,
          ∃ p ∈ D.poolers, p.phase = record.phase ∧ p.containerName = record.containerName := by
    refine boot_ask (fun _ _ => trivial) fun s b t hs hop => ?_
    obtain ⟨hb, rfl⟩ := hop
    refine ⟨hs, fun found hfound record hrecord => ?_⟩
    rw [← hs.poolers]
    obtain ⟨p, hp, hphase, hcontainer, -⟩ := row_of_listPoolers (hb.symm.trans hfound) hrecord
    exact ⟨p, hp, hphase, hcontainer⟩
  refine Machine.Triple.task_bind hpoolers (fun found => ?_) (fun _ => boot_stable _)
    fun _ _ _ => trivial
  by_cases hfound : ∀ record ∈ found,
      ∃ p ∈ D.poolers, p.phase = record.phase ∧ p.containerName = record.containerName
  · refine Machine.Triple.strengthen ?_ fun s hs => And.left hs
    refine Machine.Triple.task_bind (resumePoolers_recovers hfound) (fun _ => ?_)
      (fun _ => boot_stable _) fun _ _ _ => trivial
    exact .ret (boot_stable _) fun _ _ => trivial
  · exact fun s hs => absurd (hs.2 found rfl) hfound

end Safety

/-! ## What a recovery leaves behind -/

theorem InstanceRole.asStr_of_fromStr {text : String} {role : InstanceRole}
    (h : InstanceRole.fromStr text = some role) : role.asStr = text := by
  unfold InstanceRole.fromStr at h
  split_ifs at h with hprimary hstandby hunknown
  · cases h
    exact hprimary.symm
  · cases h
    exact hstandby.symm
  · cases h
    exact hunknown.symm

theorem ordinal_of_column {n : Nat} {value : Int} {ordinal : UInt32}
    (h : u32Column n value = .ok ordinal) : Int.ofNat ordinal.toNat = value := by
  unfold u32Column at h
  split at h
  · next hfits =>
    obtain rfl := Except.ok.inj h
    rw [UInt32.toNat_ofNat_of_lt' (by simp only [UInt32.size]; omega)]
    exact Int.toNat_of_nonneg hfits.1
  · cases h

theorem port_of_column {n : Nat} {value : Int} {port : UInt16}
    (h : u16Column n value = .ok port) : Int.ofNat port.toNat = value := by
  unfold u16Column at h
  split at h
  · next hfits =>
    obtain rfl := Except.ok.inj h
    rw [UInt16.toNat_ofNat_of_lt' (by simp only [UInt16.size]; omega)]
    exact Int.toNat_of_nonneg hfits.1
  · cases h

/-- A row that is read and written back under another phase differs in that alone. -/
theorem encode_marked {r : InstanceRow} {rec : InstanceRecord} (h : r.decode = .ok rec) :
    InstanceRow.encode { rec with phase := .running } = { r with phase := "running" } := by
  unfold InstanceRow.decode at h
  simp only [except_bind_eq_ok] at h
  obtain ⟨ordinal, hordinal, port, hport, phase, -, role, hrole, h⟩ := h
  obtain rfl := Except.ok.inj h
  have hasStr : role.asStr = r.role := by
    unfold InstanceRow.roleColumn at hrole
    cases hfrom : InstanceRole.fromStr r.role with
    | none =>
      rw [hfrom] at hrole
      cases hrole
    | some role' =>
      rw [hfrom] at hrole
      obtain rfl := Except.ok.inj hrole
      exact InstanceRole.asStr_of_fromStr hfrom
  simp only [InstanceRow.encode, ordinal_of_column hordinal, port_of_column hport, hasStr]
  rfl

/-- The row of an instance that came up, or as it was. -/
def marked (cameUp : InstanceRow → Prop) [DecidablePred cameUp] (r : InstanceRow) : InstanceRow :=
  if cameUp r then { r with phase := "running" } else r

/-- The tables as a recovery may leave them: those it began with, row by row, but that rows of
clusters recorded running may now say of their instance that it runs. -/
structure Recovered (D : Tables) (options : ResumeOptions) (s : Boot) : Prop where
  clusters : s.tables.clusters = D.clusters
  poolers : s.tables.poolers = D.poolers
  pools : s.tables.pools = D.pools
  instances : ∃ (cameUp : InstanceRow → Prop) (_ : DecidablePred cameUp),
    s.tables.instances.Perm (D.instances.map (marked cameUp)) ∧
      ∀ r ∈ D.instances, cameUp r → options.dryRun = false ∧ ToRun D r.cluster
  started : ∀ ref, .started ref ∈ s.log → options.dryRun = false ∧ Due D ref

section Recovered

variable {json : StoredJson} {D : Tables} {options : ResumeOptions} {s t : Boot}

theorem marked_key (cameUp : InstanceRow → Prop) [DecidablePred cameUp] (r : InstanceRow) :
    (marked cameUp r).key = r.key := by
  unfold marked
  split <;> rfl

/-- A row of the tables, written back running, is one more that came up. -/
theorem Recovered.putInstance (h : Recovered D options s) {rec : InstanceRecord}
    (hdry : options.dryRun = false) (hmarks : Marks D s rec) :
    Recovered D options { s with tables := s.tables.putInstance rec } := by
  obtain ⟨c, hrun, recs, hrecs, row, hrow, rfl⟩ := hmarks
  obtain ⟨cameUp, _, hperm, hdue⟩ := h.instances
  obtain ⟨r₁, hr₁, hdecode⟩ := (mapM_members hrecs).1 row hrow
  have hmem : r₁ ∈ s.tables.instances := List.mem_of_mem_filter (List.mem_mergeSort.1 hr₁)
  obtain ⟨r₀, hr₀, rfl⟩ := List.mem_map.1 (hperm.mem_iff.1 hmem)
  have hcluster : r₀.cluster = c.name := by
    have hkey := congrArg Prod.fst (marked_key cameUp r₀)
    rw [← Tables.cluster_of_mem_instancesOf hrecs hrow, Tables.decode_cluster hdecode]
    exact hkey.symm
  refine { h with instances := ⟨fun r => r.key = r₀.key ∨ cameUp r, inferInstance, ?_, ?_⟩ }
  · have hput := @Tables.replaced_perm _ s.tables.instanceKey _
      { marked cameUp r₀ with phase := "running" } hmem rfl
    rw [← encode_marked hdecode] at hput
    refine hput.trans ((hperm.map _).trans (.of_eq ?_))
    rw [List.map_map]
    refine List.map_congr_left fun r hr => ?_
    rw [Function.comp_apply, encode_marked hdecode, marked_key, marked_key]
    by_cases hkey : r.key = r₀.key
    · obtain rfl := List.inj_on_of_nodup_map D.instanceKey hr hr₀ hkey
      by_cases hcame : cameUp r
      · simp [marked, hcame]
      · simp [marked, hcame]
    · simp [marked, hkey]
  · rintro r hr (hkey | hcame)
    · obtain rfl := List.inj_on_of_nodup_map D.instanceKey hr hr₀ hkey
      exact ⟨hdry, hcluster ▸ hrun⟩
    · exact hdue r hr hcame

theorem Recovered.log (h : Recovered D options s) {log : List BootEvent}
    (hlog : ∀ ref, .started ref ∈ log → options.dryRun = false ∧ Due D ref) :
    Recovered D options { s with log := s.log ++ log } := by
  refine { h with started := fun ref href => ?_ }
  exact (List.mem_append.1 href).elim (h.started ref) (hlog ref)

theorem Recovered.step {β : Type} {op : CtlOp β} {b : β} (hop : Recovers D options op s)
    (h : Recovered D options s) (hstep : (Boot.machine json).step op s b t) :
    Recovered D options t := by
  have hsame : t = s → Recovered D options t := fun heq => heq ▸ h
  cases op with
  | registry op =>
    cases op with
    | putInstance rec =>
      obtain ⟨-, rfl⟩ | ⟨-, rfl⟩ := hstep
      · exact h.putInstance hop.1 hop.2
      · exact h
    | listClusters => exact hsame hstep.2
    | instances c => exact hsame hstep.2
    | listPoolers => exact hsame hstep.2
    | _ => exact hsame hstep
  | podman op =>
    cases op with
    | probe ref =>
      match b, hstep with
      | .ok (some p), hstep =>
        obtain rfl : t = { s with log := s.log ++ [.probed ref p] } := hstep
        exact h.log (by simp)
      | .ok none, hstep => exact hsame hstep
      | .error _, hstep => exact hsame hstep
    | start ref =>
      match b, hstep with
      | .ok (), hstep =>
        obtain rfl : t = { s with log := s.log ++ [.started ref] } := hstep
        refine h.log fun ref' href => ?_
        cases List.mem_singleton.1 href
        exact ⟨hop.1, hop.2.1⟩
      | .error _, hstep => exact hsame hstep
    | _ => exact hsame hstep
  | host op => exact hsame hstep

/-- **A recovery acts on the record**, wherever it is cut off and however podman, the host and the
registry's writes fail: it stands before nothing it may not do, what it has started was due, and
the tables are as they were but for the phase of instances that came up. -/
theorem resume_acts_on_record {q : Prog CtlOp (Except Error ResumeReport)} {u : Boot}
    (h : (Boot.machine json).Reach (resumeWith options).run ⟨D, []⟩ q u) :
    Recovered D options u ∧
      ∀ β (op : CtlOp β) next, q = .call op next → Recovers D options op u := by
  have hsafe := @resumeWith_recovers json D options ⟨D, []⟩ rfl
  constructor
  · refine hsafe.invariant (fun _ _ hd => hd.elim) (fun β op s b t hop hs hstep => ?_) h ?_
    · exact hs.step hop hstep
    · refine ⟨rfl, rfl, rfl, ⟨fun _ => False, inferInstance, .of_eq ?_, nofun⟩, by simp⟩
      exact (List.map_id _).symm
  · rintro β op next rfl
    exact hsafe.at_call h

end Recovered

/-- A cluster recorded running, and another beside it. -/
theorem BootSample.resume_acts_on_record_running : ∃ r u,
    (Boot.machine json).Reach (resumeWith options).run ⟨tables [other] (by decide), []⟩ (.ret r) u ∧
      Recovered (tables [other] (by decide)) options u := by
  obtain ⟨r, u, hrun⟩ := Machine.Reach.exists_ret (fun _ op s => by
    obtain ⟨b, t, hstep, -⟩ := @startable_answers json [] _ op s
    exact ⟨b, t, hstep⟩) (resumeWith options).run (⟨tables [other] (by decide), []⟩ : Boot)
  exact ⟨r, u, hrun, (resume_acts_on_record hrun).1⟩

end Control

end Pgpod
