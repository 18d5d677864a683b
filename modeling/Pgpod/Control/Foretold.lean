import Pgpod.Control.Resumed
import Pgpod.Effect.Alike

/-!
# What a dry run of boot recovery says

On a host that holds still a dry run and a real one, side by side from the same registry:
they read the same rows and decide alike, so what the dry run says of a container is what
the real one does.
-/

namespace Pgpod

open Effect

namespace Control

/-! ## A host that holds still -/

/-- What podman says of a container and which ports can be bound, were nothing to be started, and
the port a container binds once it runs. -/
structure StillHost where
  container : String → Except Error (Option ContainerProbe)
  port : UInt16 → Except String Unit
  publishes : String → UInt16

def BootEvent.isStart (ref : String) : BootEvent → Bool
  | .probed _ _ => false
  | .started ref' => ref' = ref

/-- The container has been started since the recovery began. -/
def Boot.up (s : Boot) (ref : String) : Bool := s.log.any (BootEvent.isStart ref)

/-- What has been started since the recovery began. -/
def Boot.starts (s : Boot) : List String :=
  s.log.filterMap fun e => match e with
    | .probed _ _ => none
    | .started ref => some ref

theorem Boot.mem_starts {s : Boot} {ref : String} : ref ∈ s.starts ↔ s.up ref = true := by
  simp only [Boot.starts, Boot.up, List.mem_filterMap, List.any_eq_true]
  refine exists_congr fun e => and_congr_right fun _ => ?_
  cases e with
  | probed _ _ => simp [BootEvent.isStart]
  | started ref' => simp [BootEvent.isStart]

namespace StillHost

/-- A container runs that did, or that has been started. -/
def probe (H : StillHost) (s : Boot) (ref : String) : Except Error (Option ContainerProbe) :=
  (H.container ref).map (Option.map fun p => { p with running := p.running || s.up ref })

/-- A port is taken that was, or that a container started since has bound. -/
def free (H : StillHost) (s : Boot) (port : UInt16) : Except String Unit :=
  if (s.starts.map H.publishes).contains port then .error "Address already in use" else H.port port

/-- Podman answers what it has, and starts a container whose port is free; no port comes or goes
but with what is started. -/
def answers (H : StillHost) : ∀ ⦃β : Type⦄, CtlOp β → Boot → β → Boot → Prop
  | _, .podman (.probe ref), s, b, _ => b = H.probe s ref
  | _, .podman (.start ref), s, b, _ => H.free s (H.publishes ref) = .ok () → b = .ok ()
  | _, .host (.portAvailable port), s, b, _ => b = H.free s port
  | _, _, _, _, _ => True

def machine (H : StillHost) (json : StoredJson) : Machine CtlOp Boot :=
  (Boot.machine json).restrict H.answers fun _ _ => True

end StillHost

/-! ## What is said and what is done -/

/-- What a dry run says of a container, and what the real run does with it. -/
structure Foretells (d r : UnitResume) : Prop where
  name : r.name = d.name
  dry : d.action ≠ .started
  started : d.action = .wouldStart → d.detail = none → r.action = .started ∧ r.detail = none
  refused : d.action = .wouldStart → d.detail ≠ none → r.action = .failed
  same : d.action ≠ .wouldStart → r = d

/-- A pooler that is started can still fail to come up. -/
structure ForetellsPooler (d r : UnitResume) : Prop where
  name : r.name = d.name
  started : d.action = .wouldStart → d.detail = none → r.action = .started ∨ r.action = .failed
  refused : d.action = .wouldStart → d.detail ≠ none → r.action = .failed
  same : d.action ≠ .wouldStart → r = d

structure ForetellsCluster (d r : ClusterResume) : Prop where
  cluster : r.cluster = d.cluster
  phase : r.phase = d.phase
  skipped : r.skipped = d.skipped
  instances : List.Forall₂ Foretells d.instances r.instances

structure ForetellsReport (d r : ResumeReport) : Prop where
  clusters : List.Forall₂ ForetellsCluster d.clusters r.clusters
  poolers : List.Forall₂ ForetellsPooler d.poolers r.poolers

/-! ### The containers the rows name -/

/-- The containers of the rows, each with its port. -/
def units (D : Tables) : List (String × UInt16) :=
  D.instances.map (fun r => (r.containerName, UInt16.ofInt r.hostPort)) ++
    D.poolers.map fun p => (p.containerName, UInt16.ofInt p.hostPort)

/-- No two rows are of one container, or have one port. -/
structure Distinct (D : Tables) : Prop where
  containers : ((units D).map Prod.fst).Nodup
  ports : ((units D).map Prod.snd).Nodup

/-- Containers bind the ports their rows have for them. -/
def StillHost.Publishes (H : StillHost) (D : Tables) : Prop :=
  ∀ u ∈ units D, H.publishes u.1 = u.2

/-- The dry run has started nothing, and the real one none of these containers and only such as the
rows name. -/
structure Even (D : Tables) (P : String → Prop) (s t : Boot) : Prop where
  dry : ∀ ref, s.up ref = false
  real : ∀ ref, t.up ref = true → (∃ port, (ref, port) ∈ units D) ∧ ¬ P ref

section Foretold

variable {json : StoredJson} {H : StillHost} {D : Tables} {wait wait' : Duration}
  {P : String → Prop}

theorem still_drifts {s t : Boot} (h : (H.machine json).Drifts s t) : t = s := by
  induction h with
  | refl => rfl
  | tail _ hd _ => exact hd.1.elim

theorem still_steady (I : Boot → Boot → Prop) : (H.machine json).Steady I := by
  intro s t u v hu hv hs
  rw [still_drifts hu, still_drifts hv]
  exact hs

theorem still_ret {α β : Type} {a : α} {b : β} {I : Boot → Boot → Prop}
    {J : α → β → Boot → Boot → Prop} (h : ∀ s t, I s t → J a b s t) :
    (H.machine json).Alike I (.ret a) (.ret b) J :=
  .ret (still_steady _) h

theorem still_reach {α : Type} {p q : Prog CtlOp α} {s t : Boot}
    (h : (H.machine json).Reach p s q t) : (Boot.machine json).Reach p s q t :=
  Machine.Reach.mono (M := H.machine json) (fun _ _ _ _ _ hop => hop.1) (fun _ _ hd => hd.1) h

theorem Even.mono {Q : String → Prop} {s t : Boot} (h : Even D P s t) (hQ : ∀ ref, Q ref → P ref) :
    Even D Q s t where
  dry := h.dry
  real ref hup := ⟨(h.real ref hup).1, fun hq => (h.real ref hup).2 (hQ ref hq)⟩

/-- What starts nothing leaves the two as even as they were. -/
theorem Even.of_up {s t u v : Boot} (h : Even D P s t) (hu : ∀ ref, u.up ref = s.up ref)
    (hv : ∀ ref, v.up ref = t.up ref) : Even D P u v where
  dry ref := (hu ref).trans (h.dry ref)
  real ref hup := h.real ref ((hv ref).symm.trans hup)

/-- A container ahead has been started by neither. -/
theorem Even.not_up {s t : Boot} (h : Even D P s t) {ref : String} (href : P ref) :
    s.up ref = false ∧ t.up ref = false :=
  ⟨h.dry ref, Bool.eq_false_iff.2 fun hup => (h.real ref hup).2 href⟩

/-- The port of a container ahead is as free as it was, to both. -/
theorem Even.free {s t : Boot} (h : Even D P s t) (hD : Distinct D) (hH : H.Publishes D)
    {cn : String} {port : UInt16} (hcn : P cn) (hrow : (cn, port) ∈ units D) :
    H.free s port = H.port port ∧ H.free t port = H.port port := by
  have hnot : ∀ u : Boot, (∀ ref ∈ u.starts, H.publishes ref ≠ port) →
      H.free u port = H.port port := by
    intro u hu
    refine if_neg fun hin => ?_
    obtain ⟨ref, href, heq⟩ := List.mem_map.1 (List.contains_iff_mem.1 hin)
    exact hu ref href heq
  refine ⟨hnot s fun ref href => ?_, hnot t fun ref href heq => ?_⟩
  · rw [Boot.mem_starts, h.dry ref] at href
    cases href
  · obtain ⟨⟨port', hrow'⟩, hbehind⟩ := h.real ref (Boot.mem_starts.1 href)
    have hport : port' = port := (hH _ hrow').symm.trans heq
    have hsame := List.inj_on_of_nodup_map hD.ports hrow' hrow hport
    exact hbehind ((Prod.mk.inj hsame).1 ▸ hcn)

/-! ### What starts nothing -/

def StartsNothing : ∀ ⦃β : Type⦄, CtlOp β → Prop
  | _, .podman (.start _) => False
  | _, _ => True

/-- A step marks a row, or is noted in the log, or changes nothing. -/
theorem boot_step_cases {β : Type} {op : CtlOp β} {s t : Boot} {b : β}
    (h : (Boot.machine json).step op s b t) :
    (∃ rec, t = { s with tables := s.tables.putInstance rec }) ∨
      ∃ log, t = { s with log := s.log ++ log } ∧
        (StartsNothing op → ∀ ref, log.any (BootEvent.isStart ref) = false) := by
  have hsame : t = s → ∃ log, t = { s with log := s.log ++ log } ∧
      (StartsNothing op → ∀ ref, log.any (BootEvent.isStart ref) = false) := by
    rintro rfl
    exact ⟨[], by rw [List.append_nil], fun _ _ => rfl⟩
  cases op with
  | registry op =>
    cases op with
    | putInstance rec =>
      obtain ⟨-, ht⟩ | ⟨-, ht⟩ := h
      · exact .inl ⟨rec, ht⟩
      · exact .inr (hsame ht)
    | listClusters => exact .inr (hsame h.2)
    | instances c => exact .inr (hsame h.2)
    | listPoolers => exact .inr (hsame h.2)
    | _ => exact .inr (hsame h)
  | podman op =>
    cases op with
    | probe ref =>
      match b, h with
      | .ok (some p), h => exact .inr ⟨[.probed ref p], h, fun _ _ => rfl⟩
      | .ok none, h => exact .inr (hsame h)
      | .error _, h => exact .inr (hsame h)
    | start ref =>
      match b, h with
      | .ok (), h => exact .inr ⟨[.started ref], h, fun hop => hop.elim⟩
      | .error _, h => exact .inr (hsame h)
    | _ => exact .inr (hsame h)
  | host op => exact .inr (hsame h)

theorem up_of_step {β : Type} {op : CtlOp β} {s t : Boot} {b : β} (hop : StartsNothing op)
    (h : (Boot.machine json).step op s b t) (ref : String) : t.up ref = s.up ref := by
  obtain ⟨rec, rfl⟩ | ⟨log, rfl, hlog⟩ := boot_step_cases h
  · rfl
  · simp only [Boot.up, List.any_append, hlog hop ref, Bool.or_false]

theorem up_of_calls {α : Type} {p q : Prog CtlOp α} {s t : Boot}
    (h : (H.machine json).Reach p s q t) (hp : p.Calls StartsNothing) (ref : String) :
    t.up ref = s.up ref := by
  have hstep : ∀ ⦃β⦄ (op : CtlOp β) u b v, StartsNothing op → u.up ref = s.up ref →
      (Boot.machine json).step op u b v → v.up ref = s.up ref :=
    fun _ op u b v hop hu hstep => (up_of_step hop hstep ref).trans hu
  exact (still_reach h).keeps (I := fun u => u.up ref = s.up ref) (boot_stable _) hstep hp rfl

theorem StartsNothing.of_waits {β : Type} {op : CtlOp β} (h : Waits op) : StartsNothing op := by
  cases op with
  | registry op => trivial
  | podman op =>
    cases op with
    | start ref => exact h.elim
    | _ => trivial
  | host op => trivial

theorem markRunning_startsNothing (inst : InstanceId) :
    (markRunning inst).run.Calls StartsNothing := by
  refine Task.calls_bind (Task.calls_bind (Task.calls_ask trivial) fun _ => Task.calls_pure _)
    fun row => ?_
  cases row with
  | none => exact Task.calls_pure _
  | some row => exact Task.calls_ask trivial

theorem pollReady_startsNothing (inst : InstanceId) (timeout : Duration) (rounds : Nat)
    (last : String) : (pollReady inst timeout rounds last).run.Calls StartsNothing := by
  have hnot : ∀ last, (notReady inst timeout last : CtlTask Unit).run.Calls StartsNothing :=
    fun last => (notReady_waits inst timeout last).mono fun _ _ => .of_waits
  induction rounds generalizing last with
  | zero => exact hnot last
  | succ rounds ih =>
    have hagain : ∀ last, (do
        let probe ← podman (.probe inst.containerName)
        if probe.any fun p => !p.running then notReady inst timeout last
        else pollReady inst timeout rounds last : CtlTask Unit).run.Calls StartsNothing := by
      intro last
      refine Task.calls_bind (Task.calls_ask trivial) fun probe => ?_
      split
      · exact hnot last
      · exact ih last
    refine Task.calls_bind (Task.calls_perform trivial) fun time => ?_
    split
    · exact hnot last
    refine Task.calls_bind (Task.calls_attempt (Task.calls_ask trivial)) fun r => ?_
    cases r with
    | error e => exact hagain _
    | ok out =>
      simp only
      split
      · exact markRunning_startsNothing inst
      · exact hagain _

/-! ### One container -/

/-- Both ask podman about a container, and are told the same. -/
theorem probe_alike {cn : String} (hcn : P cn) :
    (H.machine json).Alike (Even D P) (podman (.probe cn)).run (podman (.probe cn)).run
      fun r r' s t => r = r' ∧ Even D P s t := by
  have hstep : ∀ s t b b' u v, Even D P s t → (H.machine json).step (.podman (.probe cn)) s b u →
      (H.machine json).step (.podman (.probe cn)) t b' v → b = b' ∧ Even D P u v := by
    rintro s t b b' u v hs ⟨hop, rfl⟩ ⟨hop', rfl⟩
    have hu := fun ref => @up_of_step json _ (.podman (.probe cn)) s u _ trivial hop ref
    have hv := fun ref => @up_of_step json _ (.podman (.probe cn)) t v _ trivial hop' ref
    refine ⟨?_, hs.of_up hu hv⟩
    obtain ⟨hdry, hreal⟩ := hs.not_up hcn
    unfold StillHost.probe
    rw [hdry, hreal]
  exact .call (still_steady _) hstep fun b b' => still_ret fun _ _ hs => hs

/-- Both find the port of a container ahead as free as it was. -/
theorem portProblem_alike {cn : String} {port : UInt16} (hD : Distinct D) (hH : H.Publishes D)
    (hcn : P cn) (hrow : (cn, port) ∈ units D) :
    (H.machine json).Alike (Even D P) (portProblem (some port)).run (portProblem (some port)).run
      (Agree fun a b s t => (a = b ∧ (a = none → H.port port = .ok ())) ∧ Even D P s t) := by
  have hstep : ∀ s t b b' u v, Even D P s t →
      (H.machine json).step (.host (.portAvailable port)) s b u →
      (H.machine json).step (.host (.portAvailable port)) t b' v →
      (b = H.port port ∧ b' = b) ∧ Even D P u v := by
    rintro s t b b' u v hs ⟨rfl, hb⟩ ⟨rfl, hb'⟩
    obtain ⟨hdry, hreal⟩ := hs.free hD hH hcn hrow
    have hsaid : b = H.port port := Eq.trans hb hdry
    have hdone : b' = H.port port := Eq.trans hb' hreal
    exact ⟨⟨hsaid, hdone.trans hsaid.symm⟩, hs⟩
  refine .call (still_steady _) hstep fun b b' => .given fun hsame => ?_
  obtain ⟨rfl, rfl⟩ := hsame
  cases hport : H.port port with
  | ok _ => exact still_ret fun _ _ hs => ⟨⟨rfl, fun _ => rfl⟩, hs⟩
  | error _ => exact still_ret fun _ _ hs => ⟨⟨rfl, nofun⟩, hs⟩

theorem still_ask {β : Type} {op : CtlOp (Except Error β)} {r : Except Error β} {s t : Boot}
    (h : (H.machine json).Reach (Task.ask op).run s (.ret r) t) :
    (H.machine json).step op s r t := by
  obtain ⟨v, w, hv, hop, hw⟩ := Machine.Reach.perform_inv h
  rw [still_drifts hw, ← still_drifts hv]
  exact hop

/-- The dry run is done with a container; the real one still acts. -/
theorem still_left {α β : Type} {a : α} {q : Prog CtlOp β} {I : Boot → Boot → Prop}
    {J : α → β → Boot → Boot → Prop}
    (h : ∀ s t b v, I s t → (H.machine json).Reach q t (.ret b) v → J a b s v) :
    (H.machine json).Alike I (.ret a) q J := by
  refine .ret_left (fun b s u v hu hJ => ?_) h
  rw [still_drifts hu]
  exact hJ

theorem up_of_start {s t : Boot} {cn : String} {b : Except Error Unit}
    (h : (H.machine json).step (.podman (.start cn)) s b t) (ref : String) (hup : t.up ref = true) :
    s.up ref = true ∨ ref = cn := by
  obtain ⟨hop, -⟩ := h
  cases b with
  | ok _ =>
    obtain rfl : t = { s with log := s.log ++ [.started cn] } := hop
    rw [Boot.up, List.any_append, Bool.or_eq_true] at hup
    refine hup.imp_right fun h => ?_
    have heq : cn = ref := by simpa [BootEvent.isStart] using h
    exact heq.symm
  | error _ =>
    obtain rfl : t = s := hop
    exact .inl hup

theorem startContainer_alike {name cn : String} {port : UInt16} (hD : Distinct D)
    (hH : H.Publishes D) (hcn : ¬ P cn) (hrow : (cn, port) ∈ units D) :
    (H.machine json).Alike (Even D fun ref => ref = cn ∨ P ref)
      (startContainer name cn (some port) true).run (startContainer name cn (some port) false).run
      (Agree fun d r s t => Foretells d r ∧ Even D P s t) := by
  refine .task_bind (portProblem_alike hD hH (.inl rfl) hrow) fun problem problem' =>
    .given fun hsame => ?_
  obtain ⟨rfl, hport⟩ := hsame
  refine still_left fun s t r v hs hq => ?_
  cases problem with
  | some fact =>
    obtain ⟨hr, hv⟩ := hq.of_ret
    cases hr
    rw [still_drifts hv]
    exact ⟨⟨rfl, by simp, by simp, fun _ _ => rfl, by simp⟩, hs.mono fun _ => .inr⟩
  | none =>
    obtain ⟨b, w, hstart, hrest⟩ := Machine.Reach.attempt_bind_inv hq
    have hstep := still_ask hstart
    have hfree : H.free t (H.publishes cn) = .ok () := by
      rw [hH _ hrow]
      exact (hs.free hD hH (.inl rfl) hrow).2.trans (hport rfl)
    obtain rfl : b = .ok () := hstep.2 hfree
    obtain ⟨hr, hv⟩ := hrest.of_ret
    cases hr
    rw [still_drifts hv]
    refine ⟨⟨rfl, by simp, fun _ _ => ⟨rfl, rfl⟩, by simp, by simp⟩, hs.dry, fun ref hup => ?_⟩
    rcases up_of_start hstep ref hup with hup | rfl
    · exact ⟨(hs.real ref hup).1, fun href => (hs.real ref hup).2 (.inr href)⟩
    · exact ⟨⟨port, hrow⟩, hcn⟩

/-- What a run that starts nothing says of a container, both say. -/
theorem same_alike {u : UnitResume} (hu : u.action ≠ .wouldStart) (hu' : u.action ≠ .started) :
    (H.machine json).Alike (Even D P) (pure u : CtlTask UnitResume).run
      (pure u : CtlTask UnitResume).run (Agree fun d r s t => Foretells d r ∧ Even D P s t) :=
  still_ret fun _ _ hs =>
    ⟨⟨rfl, hu', fun h => absurd h hu, fun h => absurd h hu, fun _ => rfl⟩, hs⟩

theorem resumeContainer_alike {name cn : String} {phase : ClusterPhase} {unit : InstancePhase}
    {port : UInt16} (hD : Distinct D) (hH : H.Publishes D) (hcn : ¬ P cn)
    (hrow : (cn, port) ∈ units D) :
    (H.machine json).Alike (Even D fun ref => ref = cn ∨ P ref)
      (resumeContainer name cn phase unit (some port) true).run
      (resumeContainer name cn phase unit (some port) false).run
      (Agree fun d r s t => Foretells d r ∧ Even D P s t) := by
  have hquiet : ∀ {u : UnitResume}, u.action ≠ .wouldStart → u.action ≠ .started →
      (H.machine json).Alike (Even D fun ref => ref = cn ∨ P ref) (pure u : CtlTask UnitResume).run
        (pure u : CtlTask UnitResume).run (Agree fun d r s t => Foretells d r ∧ Even D P s t) :=
    fun hu hu' => (same_alike hu hu').strengthen fun s t hs => hs.mono fun _ => .inr
  refine .attempt_bind (probe_alike (.inl rfl)) fun b b' => .given fun hsame => ?_
  obtain rfl := hsame
  cases b with
  | error e => exact hquiet (by simp) (by simp)
  | ok probe =>
    simp only
    cases hdecision : decideContainer phase unit probe with
    | adopt => exact hquiet (by simp) (by simp)
    | skip why => exact hquiet (by simp) (by simp)
    | missing => exact hquiet (by simp) (by simp)
    | start => exact startContainer_alike hD hH hcn hrow

/-! ### The instances of a cluster -/

theorem awaitStarted_startsNothing (inst : InstanceId) (options : ResumeOptions)
    (outcome : UnitResume) : (awaitStarted inst options outcome).run.Calls StartsNothing := by
  refine Task.calls_when (Task.calls_bind (Task.calls_attempt (pollReady_startsNothing _ _ _ _))
    fun r => ?_)
  cases r with
  | ok _ => exact Task.calls_pure _
  | error e => exact (recordResumeEvent_waits _ _ _).mono fun _ _ => .of_waits

theorem awaitStarted_infallible (inst : InstanceId) (options : ResumeOptions)
    (outcome : UnitResume) : (awaitStarted inst options outcome).Infallible := by
  refine .when (.bind (.attempt _) fun r => ?_)
  cases r with
  | ok _ => exact .pure _
  | error e => exact recordResumeEvent_infallible _ _ _

/-- A task of the real run alone: it cannot fail, and starts nothing. -/
theorem alone_alike {t : CtlTask Unit} (hcalls : t.run.Calls StartsNothing)
    (hinfallible : t.Infallible) :
    (H.machine json).Alike (Even D P) (pure () : CtlTask Unit).run t.run
      (Agree fun _ _ => Even D P) := by
  refine still_left fun s u r v hs hq => ?_
  obtain ⟨a, rfl⟩ := hq.of_infallible hinfallible
  exact hs.of_up (fun _ => rfl) (up_of_calls hq hcalls)

theorem resumeInstances_alike {cluster : ClusterId} {phase : ClusterPhase}
    {todo : List InstanceRecord} (hD : Distinct D) (hH : H.Publishes D)
    (hrows : ∀ row ∈ todo, (row.containerName, row.hostPort) ∈ units D)
    (hnodup : (todo.map InstanceRecord.containerName).Nodup)
    (hnot : ∀ row ∈ todo, ¬ P row.containerName) :
    (H.machine json).Alike (Even D fun ref => ref ∈ todo.map InstanceRecord.containerName ∨ P ref)
      (resumeInstances cluster phase ⟨wait, true⟩ todo).run
      (resumeInstances cluster phase ⟨wait', false⟩ todo).run
      (Agree fun ds rs s t => List.Forall₂ Foretells ds rs ∧ Even D P s t) := by
  induction todo with
  | nil => exact still_ret fun s t hs => ⟨.nil, hs.mono fun _ => .inr⟩
  | cons row rest ih =>
    rw [List.map_cons, List.nodup_cons] at hnodup
    have hone := @resumeContainer_alike json H D
      (fun ref => ref ∈ rest.map InstanceRecord.containerName ∨ P ref)
      (cluster.inst row.ordinal).toText row.containerName phase row.phase row.hostPort hD hH
      (fun hmem => hmem.elim hnodup.1 (hnot row List.mem_cons_self)) (hrows row List.mem_cons_self)
    have hrest := ih (fun row' hrow' => hrows row' (List.mem_cons_of_mem _ hrow')) hnodup.2
      fun row' hrow' => hnot row' (List.mem_cons_of_mem _ hrow')
    refine .task_bind (hone.strengthen fun s t hs => hs.mono fun ref href => ?_)
      fun d r => .given fun hforetells => ?_
    · rcases href with rfl | hmem | hP
      · exact .inl List.mem_cons_self
      · exact .inl (List.mem_cons_of_mem _ hmem)
      · exact .inr hP
    have hwait : awaitStarted (cluster.inst row.ordinal) ⟨wait, true⟩ d = pure () := by
      unfold awaitStarted
      rw [decide_eq_false hforetells.dry, Task.when_false]
    rw [hwait]
    refine .task_bind (alone_alike (awaitStarted_startsNothing _ _ _)
      (awaitStarted_infallible _ _ _)) fun _ _ => ?_
    refine .task_bind hrest fun ds rs => ?_
    exact still_ret fun s t hs => ⟨.cons hforetells hs.1, hs.2⟩

/-! ### What is still ahead -/

theorem Distinct.instances_containers (h : Distinct D) :
    (D.instances.map InstanceRow.containerName ++ D.poolers.map PoolerRow.containerName).Nodup := by
  have hcontainers := h.containers
  unfold units at hcontainers
  rw [List.map_append, List.map_map, List.map_map] at hcontainers
  exact hcontainers

/-- The containers still to be looked at: those of these clusters, and the poolers'. -/
def Ahead (D : Tables) (names : List String) (ref : String) : Prop :=
  (∃ r ∈ D.instances, r.cluster ∈ names ∧ r.containerName = ref) ∨
    ∃ p ∈ D.poolers, p.containerName = ref

theorem Ahead.cons {names : List String} {n ref : String} (h : Ahead D names ref) :
    Ahead D (n :: names) ref :=
  h.imp_left fun ⟨r, hr, hcluster, href⟩ => ⟨r, hr, List.mem_cons_of_mem _ hcluster, href⟩

theorem decode_containerName {r : InstanceRow} {rec : InstanceRecord} (h : r.decode = .ok rec) :
    rec.containerName = r.containerName := by
  unfold InstanceRow.decode at h
  simp only [except_bind_eq_ok] at h
  obtain ⟨_, -, _, -, _, -, _, -, h⟩ := h
  rw [← Except.ok.inj h]

theorem decode_hostPort {r : InstanceRow} {rec : InstanceRecord} (h : r.decode = .ok rec) :
    rec.hostPort = UInt16.ofInt r.hostPort := by
  unfold InstanceRow.decode at h
  simp only [except_bind_eq_ok] at h
  obtain ⟨_, -, port, hport, _, -, _, -, h⟩ := h
  have hlt := port.toNat_lt
  have hmod : (Int.ofNat port.toNat % 2 ^ 16).toNat = port.toNat := by
    simp only [Int.ofNat_eq_natCast]
    omega
  rw [← Except.ok.inj h, ← port_of_column hport, UInt16.ofInt, hmod, UInt16.ofNat_toNat]

theorem containers_of_instancesOf {c : ClusterId} {recs : List InstanceRecord}
    (h : D.instancesOf c = .ok recs) :
    ((resumeOrder recs).map InstanceRecord.containerName).Perm
      ((D.instances.filter fun r => r.cluster = c.name).map InstanceRow.containerName) := by
  have hmap : recs.map InstanceRecord.containerName =
      (D.instanceRows c).map InstanceRow.containerName :=
    mapM_map (fun _ _ => decode_containerName) h
  have hrecs := (List.mergeSort_perm recs fun a b => decide (a.ordinal ≤ b.ordinal)).map
    InstanceRecord.containerName
  have hrows := (List.mergeSort_perm (D.instances.filter fun r => r.cluster = c.name)
    fun a b => decide (a.ordinal ≤ b.ordinal)).map InstanceRow.containerName
  exact hrecs.trans (hmap ▸ hrows)

/-- The record of a row has its container and its port. -/
theorem unit_of_instancesOf {c : ClusterId} {recs : List InstanceRecord}
    (h : D.instancesOf c = .ok recs) {rec : InstanceRecord} (hrec : rec ∈ recs) :
    (rec.containerName, rec.hostPort) ∈ units D := by
  obtain ⟨r, hr, hdecode⟩ := (mapM_members h).1 rec hrec
  have hmem : r ∈ D.instances := List.mem_of_mem_filter (List.mem_mergeSort.1 hr)
  refine List.mem_append_left _ (List.mem_map.2 ⟨r, hmem, ?_⟩)
  rw [decode_containerName hdecode, decode_hostPort hdecode]

theorem containers_of_listPoolers {found : List PoolerRecord}
    (h : D.listPoolers json = .ok found) :
    (found.map PoolerRecord.containerName).Perm (D.poolers.map PoolerRow.containerName) := by
  let container (name : String) : String :=
    ((D.poolers.find? fun r => r.name = name).map PoolerRow.containerName).getD ""
  have hone : ∀ name record, D.listedPooler json name = .ok record →
      record.containerName = container name := by
    intro name record hlisted
    obtain ⟨p, hfind, -, hcontainer, -⟩ := row_of_listedPooler hlisted
    simp [container, hfind, hcontainer]
  have hfound : found.map PoolerRecord.containerName =
      (Tables.sorted (D.poolers.map PoolerRow.name)).map container := mapM_map hone h
  have hrows : (D.poolers.map PoolerRow.name).map container =
      D.poolers.map PoolerRow.containerName := by
    rw [List.map_map]
    refine List.map_congr_left fun p hp => ?_
    simp [container, Tables.find_pooler hp]
  rw [hfound, ← hrows]
  exact (List.mergeSort_perm _ _).map container

theorem unit_of_listPoolers {found : List PoolerRecord} (h : D.listPoolers json = .ok found)
    {record : PoolerRecord} (hrecord : record ∈ found) :
    (record.containerName, record.hostPort) ∈ units D := by
  obtain ⟨p, hp, -, hcontainer, hport⟩ := row_of_listPoolers h hrecord
  exact List.mem_append_right _ (List.mem_map.2 ⟨p, hp, by rw [hcontainer, hport]⟩)

theorem listPoolers_congr {T : Tables} (hpoolers : T.poolers = D.poolers)
    (hpools : T.pools = D.pools) : T.listPoolers json = D.listPoolers json := by
  have hone : T.listedPooler json = D.listedPooler json := by
    funext name
    unfold Tables.listedPooler Tables.requirePooler Tables.pooler Tables.poolsOf
    rw [hpoolers, hpools]
  unfold Tables.listPoolers
  rw [hpoolers, hone]

section Rows

variable {names : List String} {c : ClusterId} {recs : List InstanceRecord}

theorem Distinct.instances (hdistinct : Distinct D) (h : D.instancesOf c = .ok recs) :
    ((resumeOrder recs).map InstanceRecord.containerName).Nodup :=
  (containers_of_instancesOf h).nodup_iff.2
    (hdistinct.instances_containers.of_append_left.sublist (List.filter_sublist.map _))

theorem mem_containers (h : D.instancesOf c = .ok recs) {ref : String}
    (href : ref ∈ (resumeOrder recs).map InstanceRecord.containerName) :
    ∃ r ∈ D.instances, r.cluster = c.name ∧ r.containerName = ref := by
  obtain ⟨r, hr, rfl⟩ := List.mem_map.1 ((containers_of_instancesOf h).mem_iff.1 href)
  obtain ⟨hmem, hcluster⟩ := List.mem_filter.1 hr
  exact ⟨r, hmem, of_decide_eq_true hcluster, rfl⟩

theorem Distinct.behind (hdistinct : Distinct D) (hread : c.name ∉ names)
    (h : D.instancesOf c = .ok recs) {row : InstanceRecord} (hrow : row ∈ resumeOrder recs) :
    ¬ Ahead D names row.containerName := by
  obtain ⟨r, hr, hcluster, href⟩ := mem_containers h (List.mem_map_of_mem hrow)
  rintro (⟨r', hr', hahead, href'⟩ | ⟨p, hp, href'⟩)
  · have hsame := List.inj_on_of_nodup_map hdistinct.instances_containers.of_append_left hr hr'
      (href.trans href'.symm)
    rw [← hsame, hcluster] at hahead
    exact hread hahead
  · have hdisjoint := List.disjoint_of_nodup_append hdistinct.instances_containers
    exact hdisjoint (List.mem_map_of_mem hr) (List.mem_map.2 ⟨p, hp, href'.trans href.symm⟩)

end Rows

/-! ### Reading the registry -/

/-- Both read the same of the registry, or fail alike. -/
theorem read_alike {β : Type} {op : CtlOp (Except Error β)} {known : Except Error β}
    {I : Boot → Boot → Prop}
    (hdry : ∀ s t b u, I s t → (Boot.machine json).step op s b u → b = known ∧ u = s)
    (hreal : ∀ s t b v, I s t → (Boot.machine json).step op t b v → b = known ∧ v = t) :
    (H.machine json).Alike I (Task.ask op).run (Task.ask op).run
      (Agree fun a b s t => (a = b ∧ known = .ok a) ∧ I s t) := by
  have hstep : ∀ s t b b' u v, I s t → (H.machine json).step op s b u →
      (H.machine json).step op t b' v → (b = known ∧ b' = known) ∧ I u v := by
    rintro s t b b' u v hs ⟨hop, -⟩ ⟨hop', -⟩
    obtain ⟨hb, rfl⟩ := hdry s t b u hs hop
    obtain ⟨hb', rfl⟩ := hreal u t b' v hs hop'
    exact ⟨⟨hb, hb'⟩, hs⟩
  refine .call (still_steady _) hstep fun b b' => still_ret ?_
  rintro s t ⟨⟨rfl, rfl⟩, hs⟩
  cases b' with
  | ok a => exact ⟨⟨rfl, rfl⟩, hs⟩
  | error e => rfl

theorem pools_of_step {β : Type} {op : CtlOp β} {s t : Boot} {b : β}
    (h : (Boot.machine json).step op s b t) : t.tables.pools = s.tables.pools := by
  obtain ⟨rec, rfl⟩ | ⟨log, rfl, -⟩ := boot_step_cases h
  · rfl
  · rfl

theorem pools_of_reach {α : Type} {p q : Prog CtlOp α} {s t : Boot}
    (h : (H.machine json).Reach p s q t) : t.tables.pools = s.tables.pools :=
  (still_reach h).keeps (P := fun _ _ => True) (I := fun u => u.tables.pools = s.tables.pools)
    (boot_stable _) (fun _ _ _ _ _ _ hu hstep => (pools_of_step hstep).trans hu)
    (Prog.Calls.of_forall (fun _ _ => trivial) p) rfl

/-! ### Clusters -/

/-- Where the two stand before these clusters: neither has touched a row of them, and of the
containers ahead they have started the same. -/
structure Level (D : Tables) (names : List String) (s t : Boot) : Prop where
  dry : Unread D names s
  real : Unread D names t
  dryPools : s.tables.pools = D.pools
  realPools : t.tables.pools = D.pools
  even : Even D (Ahead D names) s t

theorem resumeCluster_even {name storedPhase : String} {names : List String}
    (hdistinct : Distinct D) (hH : H.Publishes D) (hread : name ∉ names) :
    (H.machine json).Alike (Level D (name :: names))
      (resumeCluster name storedPhase ⟨wait, true⟩).run
      (resumeCluster name storedPhase ⟨wait', false⟩).run
      (Agree fun d r s t => ForetellsCluster d r ∧ Even D (Ahead D names) s t) := by
  have hbehind : ∀ s t, Level D (name :: names) s t → Even D (Ahead D names) s t :=
    fun s t hs => hs.even.mono fun _ => Ahead.cons
  have hevent : ∀ (b : Bool) (level detail : String),
      (H.machine json).Alike (Even D (Ahead D names)) (pure () : CtlTask Unit).run
        (Task.when b (recordResumeEvent name level detail)).run
        (Agree fun _ _ => Even D (Ahead D names)) := by
    intro b level detail
    refine alone_alike (Task.calls_when ?_) (.when (recordResumeEvent_infallible _ _ _))
    exact (recordResumeEvent_waits _ _ _).mono fun _ _ => .of_waits
  unfold resumeCluster
  cases hid : ClusterId.new name with
  | error e => exact still_ret fun s t hs => ⟨⟨rfl, rfl, rfl, .nil⟩, hbehind s t hs⟩
  | ok cluster =>
    obtain rfl := ClusterId.new_eq_ok.1 hid
    simp only [Bool.not_true, Bool.not_false, Bool.and_true, Bool.and_false, Task.when_false]
    cases hskip : (ClusterPhase.parseLenient storedPhase).skipReason with
    | some why =>
      refine .task_bind ((hevent true _ _).strengthen hbehind) fun _ _ => ?_
      exact still_ret fun s t hs => ⟨⟨rfl, rfl, rfl, .nil⟩, hs⟩
    | none =>
      have hrows := @read_alike json H _ (.registry (.instances cluster)) (D.instancesOf cluster)
        (Level D (cluster.name :: names))
        (fun s t b u hs hop => ⟨hop.1.trans (hs.dry.instances _ List.mem_cons_self), hop.2⟩)
        (fun s t b v hs hop => ⟨hop.1.trans (hs.real.instances _ List.mem_cons_self), hop.2⟩)
      refine .task_bind hrows fun recs recs' => .given fun hsame => ?_
      obtain ⟨rfl, hrecs⟩ := hsame
      have hunits := @resumeInstances_alike json H D wait wait' (Ahead D names) cluster
        (ClusterPhase.parseLenient storedPhase) (resumeOrder recs) hdistinct hH
        (fun row hrow => unit_of_instancesOf hrecs (List.mem_mergeSort.1 hrow))
        (hdistinct.instances hrecs) fun row hrow => hdistinct.behind hread hrecs hrow
      refine .task_bind (hunits.strengthen fun s t hs => hs.even.mono fun ref href => ?_)
        fun ds rs => .given fun hforetells => ?_
      · rcases href with hmem | hahead
        · obtain ⟨r, hr, hcluster, href⟩ := mem_containers hrecs hmem
          exact .inl ⟨r, hr, hcluster ▸ List.mem_cons_self, href⟩
        · exact hahead.cons
      refine .task_bind (hevent _ _ _) fun _ _ => ?_
      exact still_ret fun s t hs => ⟨⟨rfl, rfl, rfl, hforetells⟩, hs⟩

theorem resumeCluster_alike {name storedPhase : String} {names : List String}
    (hdistinct : Distinct D) (hH : H.Publishes D)
    (hrow : ∃ c ∈ D.clusters, c.name = name ∧ c.phase = storedPhase) (hread : name ∉ names) :
    (H.machine json).Alike (Level D (name :: names))
      (resumeCluster name storedPhase ⟨wait, true⟩).run
      (resumeCluster name storedPhase ⟨wait', false⟩).run
      (Agree fun d r s t => ForetellsCluster d r ∧ Level D names s t) := by
  have hunread : ∀ {options : ResumeOptions} {s u : Boot} {r},
      Unread D (name :: names) s → s.tables.pools = D.pools →
      (H.machine json).Reach (resumeCluster name storedPhase options).run s (.ret r) u →
      Unread D names u ∧ u.tables.pools = D.pools := by
    intro options s u r hs hpools hr
    have hsafe := @resumeCluster_recovers json D options names name storedPhase hrow hread s hs
    exact ⟨hsafe.at_ret (still_reach hr), (pools_of_reach hr).trans hpools⟩
  have hboth := (@resumeCluster_even json H D wait wait' name storedPhase names hdistinct hH
      hread).and
    (K := fun _ u => Unread D names u ∧ u.tables.pools = D.pools)
    (L := fun _ v => Unread D names v ∧ v.tables.pools = D.pools)
    (fun s t d u hs hr => hunread hs.dry hs.dryPools hr)
    (fun s t r v hs hr => hunread hs.real hs.realPools hr)
  refine hboth.weaken fun d r s t hs => ?_
  obtain ⟨hagree, hdry, hreal⟩ := hs
  exact hagree.mono fun d r h => ⟨h.1, hdry.1, hreal.1, hdry.2, hreal.2, h.2⟩

theorem resumeClusters_alike {todo : List ClusterRecord} (hdistinct : Distinct D)
    (hH : H.Publishes D)
    (hrows : ∀ record ∈ todo, ∃ c ∈ D.clusters, c.name = record.name ∧ c.phase = record.phase)
    (hnodup : (todo.map ClusterRecord.name).Nodup) :
    (H.machine json).Alike (Level D (todo.map ClusterRecord.name))
      (resumeClusters ⟨wait, true⟩ todo).run (resumeClusters ⟨wait', false⟩ todo).run
      (Agree fun ds rs s t => List.Forall₂ ForetellsCluster ds rs ∧ Level D [] s t) := by
  induction todo with
  | nil => exact still_ret fun s t hs => ⟨.nil, hs⟩
  | cons record rest ih =>
    rw [List.map_cons, List.nodup_cons] at hnodup
    refine .task_bind (resumeCluster_alike hdistinct hH (hrows record List.mem_cons_self) hnodup.1)
      fun d r => .given fun hforetells => ?_
    have hrest := ih (fun r hr => hrows r (List.mem_cons_of_mem _ hr)) hnodup.2
    refine .task_bind hrest fun ds rs => ?_
    exact still_ret fun s t hs => ⟨.cons hforetells hs.1, hs.2⟩

/-! ### Poolers -/

/-- What is said of a pooler stands, but that one that was started may be said to have failed. -/
theorem checkPoolerUp_returns (name : String) (options : ResumeOptions) (outcome : UnitResume) :
    (checkPoolerUp name options outcome).run.Returns fun r => ∃ u, r = .ok u ∧
      (u = outcome ∨
        outcome.action = .started ∧ u.name = outcome.name ∧ u.action = .failed) := by
  unfold checkPoolerUp
  split
  · next hstarted _ =>
    rw [Task.run_attempt_bind]
    refine (Prog.Returns.trivial _).bind fun b _ => ?_
    cases b with
    | ok _ => exact ⟨_, rfl, .inl rfl⟩
    | error e => exact ⟨_, rfl, .inr ⟨hstarted, rfl, rfl⟩⟩
  · exact ⟨_, rfl, .inl rfl⟩

theorem checkPoolerUp_startsNothing (name : String) (options : ResumeOptions)
    (outcome : UnitResume) : (checkPoolerUp name options outcome).run.Calls StartsNothing := by
  unfold checkPoolerUp
  split
  · refine Task.calls_bind (Task.calls_attempt ?_) fun b => ?_
    · exact (pollPooler_waits _ _ _ _).mono fun _ _ => .of_waits
    · cases b <;> exact Task.calls_pure _
  · exact Task.calls_pure _

theorem Foretells.pooler {d r u : UnitResume} (h : Foretells d r)
    (hu : u = r ∨ r.action = .started ∧ u.name = r.name ∧ u.action = .failed) :
    ForetellsPooler d u := by
  rcases hu with rfl | ⟨hstarted, hname, hfailed⟩
  · exact ⟨h.name, fun hd hnone => .inl (h.started hd hnone).1, h.refused, h.same⟩
  · refine ⟨hname.trans h.name, fun _ _ => .inr hfailed, fun _ _ => hfailed, fun hd => ?_⟩
    rw [h.same hd] at hstarted
    exact absurd hstarted h.dry

theorem checkPoolerUp_alike {name : String} {d r : UnitResume} (h : Foretells d r) :
    (H.machine json).Alike (Even D P) (checkPoolerUp name ⟨wait, true⟩ d).run
      (checkPoolerUp name ⟨wait', false⟩ r).run
      (Agree fun d r s t => ForetellsPooler d r ∧ Even D P s t) := by
  have hdry : checkPoolerUp name ⟨wait, true⟩ d = pure d := by
    unfold checkPoolerUp
    split
    · next hstarted _ => exact absurd hstarted h.dry
    · rfl
  rw [hdry]
  refine still_left fun s t b v hs hq => ?_
  obtain ⟨u, rfl, hu⟩ := hq.returns (checkPoolerUp_returns name ⟨wait', false⟩ r)
  exact ⟨h.pooler hu,
    hs.of_up (fun _ => rfl) (up_of_calls hq (checkPoolerUp_startsNothing _ _ _))⟩

theorem resumePoolers_alike {todo : List PoolerRecord} (hD : Distinct D) (hH : H.Publishes D)
    (hrows : ∀ record ∈ todo, (record.containerName, record.hostPort) ∈ units D)
    (hnodup : (todo.map PoolerRecord.containerName).Nodup) :
    (H.machine json).Alike (Even D fun ref => ref ∈ todo.map PoolerRecord.containerName)
      (resumePoolers ⟨wait, true⟩ todo).run (resumePoolers ⟨wait', false⟩ todo).run
      (Agree fun ds rs _ _ => List.Forall₂ ForetellsPooler ds rs) := by
  induction todo with
  | nil => exact still_ret fun s t _ => .nil
  | cons record rest ih =>
    rw [List.map_cons, List.nodup_cons] at hnodup
    have hone := @resumeContainer_alike json H D
      (fun ref => ref ∈ rest.map PoolerRecord.containerName) record.name record.containerName
      (ClusterPhase.parseLenient record.phase) .running record.hostPort hD hH hnodup.1
      (hrows record List.mem_cons_self)
    refine .task_bind (hone.strengthen fun s t hs => hs.mono fun ref href => ?_)
      fun d r => .given fun hforetells => ?_
    · rcases href with rfl | hmem
      · exact List.mem_cons_self
      · exact List.mem_cons_of_mem _ hmem
    refine .task_bind (checkPoolerUp_alike hforetells) fun d' r' => .given fun hpooler => ?_
    have hrest := ih (fun r hr => hrows r (List.mem_cons_of_mem _ hr)) hnodup.2
    refine .task_bind hrest fun ds rs => ?_
    exact still_ret fun s t hs => .cons hpooler hs

/-! ### The whole of it -/

theorem resumeWith_alike (hdistinct : Distinct D) (hH : H.Publishes D) :
    (H.machine json).Alike (fun s t => s.tables = D ∧ t.tables = D ∧ Even D (fun _ => True) s t)
      (resumeWith ⟨wait, true⟩).run (resumeWith ⟨wait', false⟩).run
      (Agree fun d r _ _ => ForetellsReport d r) := by
  have hlist := @read_alike json H _ (.registry .listClusters) (D.listClusters json)
    (fun s t => s.tables = D ∧ t.tables = D ∧ Even D (fun _ => True) s t)
    (fun s t b u hs hop => ⟨hs.1 ▸ hop.1, hop.2⟩) (fun s t b v hs hop => ⟨hs.2.1 ▸ hop.1, hop.2⟩)
  refine .task_bind hlist fun records records' => .given fun hsame => ?_
  obtain ⟨rfl, hrecords⟩ := hsame
  have hclusters := @resumeClusters_alike json H D wait wait' records hdistinct hH
    (rows_of_listClusters hrecords) (Tables.names_of_listClusters hrecords).1
  refine .task_bind (hclusters.strengthen ?_) fun ds rs => .given fun hforetells => ?_
  · rintro s t ⟨rfl, ht, heven⟩
    exact ⟨⟨rfl, fun _ _ => rfl⟩, ⟨by rw [ht], fun _ _ => by rw [ht]⟩, rfl, by rw [ht],
      heven.mono fun _ _ => trivial⟩
  have hpoolers := @read_alike json H _ (.registry .listPoolers) (D.listPoolers json) (Level D [])
    (fun s t b u hs hop =>
      ⟨hop.1.trans (listPoolers_congr hs.dry.poolers hs.dryPools), hop.2⟩)
    (fun s t b v hs hop =>
      ⟨hop.1.trans (listPoolers_congr hs.real.poolers hs.realPools), hop.2⟩)
  refine .task_bind hpoolers fun found found' => .given fun hsame => ?_
  obtain ⟨rfl, hfound⟩ := hsame
  have hcontainers := containers_of_listPoolers hfound
  have hunits := @resumePoolers_alike json H D wait wait' found hdistinct hH
    (fun record hrecord => unit_of_listPoolers hfound hrecord)
    (hcontainers.nodup_iff.2 hdistinct.instances_containers.of_append_right)
  refine .task_bind (hunits.strengthen fun s t hs => hs.even.mono fun ref href => ?_)
    fun ps qs => ?_
  · obtain ⟨p, hp, rfl⟩ := List.mem_map.1 (hcontainers.mem_iff.1 href)
    exact .inr ⟨p, hp, rfl⟩
  exact still_ret fun s t hs => ⟨hforetells, hs⟩

/-- **A dry run foretells the real one** on a host that holds still, where no two rows have a
container or a port in common: they fail alike, or report on the same clusters, instances and
poolers.  What the dry run says would start is started, but for a pooler that then fails to come up;
what it says is in the way does keep it from starting; and all else is as it says. -/
theorem dryRun_foretells (hdistinct : Distinct D) (hH : H.Publishes D)
    {d r : Except Error ResumeReport} {u v : Boot}
    (hdry : (H.machine json).Reach (resumeWith ⟨wait, true⟩).run ⟨D, []⟩ (.ret d) u)
    (hreal : (H.machine json).Reach (resumeWith ⟨wait', false⟩).run ⟨D, []⟩ (.ret r) v) :
    (∃ e, d = .error e ∧ r = .error e) ∨
      ∃ said done, d = .ok said ∧ r = .ok done ∧ ForetellsReport said done := by
  have heven : Even D (fun _ => True) ⟨D, []⟩ ⟨D, []⟩ := ⟨fun _ => rfl, nofun⟩
  have hagree := resumeWith_alike hdistinct hH ⟨D, []⟩ ⟨D, []⟩ d r u v ⟨rfl, rfl, heven⟩ hdry hreal
  cases d with
  | ok said =>
    cases r with
    | ok done => exact .inr ⟨said, done, rfl, rfl, hagree⟩
    | error e => exact hagree.elim
  | error e =>
    cases r with
    | ok done => exact hagree.elim
    | error e' => exact .inl ⟨e, rfl, congrArg Except.error (Eq.symm hagree)⟩

end Foretold

/-! ## A stopped instance -/

theorem still_answers {json : StoredJson} {H : StillHost} {β : Type} (op : CtlOp β) (s : Boot) :
    ∃ b t, (H.machine json).step op s b t := by
  obtain ⟨b, t, hop, -⟩ := @startable_answers json [] _ op s
  cases op with
  | registry op => exact ⟨b, t, hop, trivial⟩
  | podman op =>
    cases op with
    | probe ref =>
      cases hprobe : H.probe s ref with
      | error e => exact ⟨.error e, s, rfl, hprobe.symm⟩
      | ok found =>
        cases found with
        | none => exact ⟨.ok none, s, rfl, hprobe.symm⟩
        | some p => exact ⟨.ok (some p), _, rfl, hprobe.symm⟩
    | start ref => exact ⟨.ok (), _, rfl, fun _ => rfl⟩
    | _ => exact ⟨b, t, hop, trivial⟩
  | host op =>
    cases op with
    | portAvailable port => exact ⟨H.free s port, s, rfl, rfl⟩
    | _ => exact ⟨b, t, hop, trivial⟩

/-- Podman has the container of `mydb`, not running, and its port is free. -/
def BootSample.still : StillHost where
  container ref := .ok
    (if ref = "pgpod-mydb-1" then some ⟨"", none, false, none, none, [], none, none⟩ else none)
  port _ := .ok ()
  publishes _ := 5432

theorem BootSample.dryRun_foretells_start : ∃ d r u v,
    (still.machine json).Reach (resumeWith ⟨DEFAULT_RESUME_WAIT, true⟩).run
      ⟨tables [other] (by decide), []⟩ (.ret d) u ∧
    (still.machine json).Reach (resumeWith options).run
      ⟨tables [other] (by decide), []⟩ (.ret r) v ∧
    ((∃ e, d = .error e ∧ r = .error e) ∨
      ∃ said done, d = .ok said ∧ r = .ok done ∧ ForetellsReport said done) := by
  obtain ⟨d, u, hdry⟩ := Machine.Reach.exists_ret (fun _ op s => still_answers op s)
    (resumeWith ⟨DEFAULT_RESUME_WAIT, true⟩).run (⟨tables [other] (by decide), []⟩ : Boot)
  obtain ⟨r, v, hreal⟩ := Machine.Reach.exists_ret (fun _ op s => still_answers op s)
    (resumeWith options).run (⟨tables [other] (by decide), []⟩ : Boot)
  have hdistinct : Distinct (tables [other] (by decide)) :=
    ⟨by simp [units, tables], by simp [units, tables]⟩
  have hpublishes : still.Publishes (tables [other] (by decide)) := by
    simp only [StillHost.Publishes, units, tables, still, row, List.map_cons, List.map_nil,
      List.append_nil, List.mem_singleton, forall_eq]
    rfl
  exact ⟨d, r, u, v, hdry, hreal, dryRun_foretells hdistinct hpublishes hdry hreal⟩

end Control

end Pgpod
