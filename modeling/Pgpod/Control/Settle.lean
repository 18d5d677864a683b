import Pgpod.Control.Adoption
import Pgpod.Control.Upgrade
import Pgpod.Effect.Machine

/-!
# The phase an upgrade leaves behind

Once `upgrade` has recorded `upgrading`, boot recovery leaves the cluster alone
until another phase is recorded.  Of the returns that follow, some record one
and some do not; which, depends only on which calls of the window failed.
-/

namespace Pgpod

open Effect

namespace Control

/-! ## The window as its calls end -/

@[simp] theorem isOk_ok {α : Type} (a : α) : (Except.ok a : Except Error α).isOk = true := rfl

@[simp] theorem isOk_error {α : Type} (e : Error) :
    (Except.error e : Except Error α).isOk = false := rfl

/-- The recorded phase, and how each call of the window ended once it was made. -/
structure Window where
  phase : ClusterPhase
  opened : Bool := false
  hold : Option Bool := none
  job : Option Bool := none
  failureEvent : Option Bool := none
  target : Option Bool := none
  start : Option Bool := none
  ready : Option Bool := none
  release : Option Bool := none
  event : Option Bool := none
  terminal : Option Bool := none
deriving DecidableEq, Repr

namespace Window

/-- What an answer changes. -/
@[simp] def record : ∀ ⦃β : Type⦄, UpgradeOp β → β → Window → Window
  | _, .setClusterPhase _ phase, r, w =>
    if phase = .upgrading then if r.isOk then { w with phase, opened := true } else w
    else { w with phase := if r.isOk then phase else w.phase, terminal := some r.isOk }
  | _, .putCluster _ phase, r, w =>
    { w with phase := if r.isOk then phase else w.phase, target := some r.isOk }
  | _, .acquireHold _, r, w => { w with hold := some r.isOk }
  | _, .upgradeHeld .., r, w => { w with job := some r.isOk }
  | _, .recordEvent _ _ level _, r, w =>
    if !w.opened then w
    else if level = "error" then { w with failureEvent := some r.isOk }
    else { w with event := some r.isOk }
  | _, .startInstance .., r, w => { w with start := some r.isOk }
  | _, .waitReady .., r, w => { w with ready := some r.isOk }
  | _, .releaseAfterRecreate .., r, w => { w with release := some r.isOk }
  | _, _, _, w => w

/-- The instance was started, and it became ready. -/
@[simp] def Served (w : Window) : Prop := w.start = some true ∧ w.ready = some true

instance (w : Window) : Decidable w.Served := inferInstanceAs (Decidable (_ ∧ _))

/-- The phase says how the window ended. -/
@[simp] def Settled (w : Window) : Prop :=
  w.phase ≠ .upgrading ∧ (w.opened = true → w.phase = if w.Served then .running else .failed)

/-- No call failed whose failure is returned before a phase is recorded. -/
@[mk_iff clean_iff] structure Clean (check : Bool) (w : Window) : Prop where
  hold : w.hold ≠ some false
  terminal : w.terminal ≠ some false
  ready : w.ready ≠ some false
  undone : w.job = some false → w.failureEvent ≠ some false
  done : w.job = some true → w.start ≠ some false
  swapped : w.job = some true → check = false →
    w.target ≠ some false ∧ w.release ≠ some false ∧ w.event ≠ some false

end Window

attribute [simp] Window.clean_iff

abbrev windowMachine : Machine UpgradeOp Window := .answering Window.record

/-! ## Before the window -/

/-- The calls that say nothing until the window is open. -/
def Preliminary : ∀ ⦃β : Type⦄, UpgradeOp β → Prop
  | _, .setClusterPhase .. | _, .putCluster .. | _, .acquireHold .. | _, .upgradeHeld ..
  | _, .startInstance .. | _, .waitReady .. | _, .releaseAfterRecreate .. => False
  | _, _ => True

theorem Preliminary.record {β : Type} {op : UpgradeOp β} (h : Preliminary op) {b : β} {w : Window}
    (hw : w.opened = false) : Window.record op b w = w := by
  cases op with
  | recordEvent cluster ordinal level message => simp [Window.record, hw]
  | _ => first | rfl | exact h.elim

namespace Upgrade

theorem staging_calls (encode : UpgradeSpec → Except SpecError String) (options : UpgradeOptions)
    (cluster : ClusterId) (manifest target : ClusterManifest) (agent fromVersion : String)
    (probe : ProbeReport) (warnings : List String) :
    (staging encode options cluster manifest target agent fromVersion probe warnings).run.Calls
      Preliminary := by
  unfold staging
  refine Task.calls_bind (Task.calls_ask trivial) fun _ => ?_
  refine Task.calls_bind (Task.calls_ask trivial) fun stage => ?_
  split
  · exact Task.calls_throw _
  · exact Task.calls_bind (Task.calls_ofExcept _) fun _ => Task.calls_pure _

theorem backupWarnings_calls (cluster : ClusterId) (m : ClusterManifest)
    (options : UpgradeOptions) : (backupWarnings cluster m options).run.Calls Preliminary := by
  unfold backupWarnings
  split
  · exact Task.calls_bind (Task.calls_attempt (Task.calls_ask trivial)) fun _ => Task.calls_pure _
  · exact Task.calls_pure _

theorem checkVersions_calls (target : ClusterManifest) (fromVersion : String)
    (probe : ProbeReport) : (checkVersions target fromVersion probe).run.Calls Preliminary := by
  unfold checkVersions
  simp only
  split
  · exact Task.calls_throw _
  split
  · exact Task.calls_throw _
  · exact Task.calls_pure _

theorem prepare_calls (encode : UpgradeSpec → Except SpecError String) (cluster : ClusterId)
    (options : UpgradeOptions) : (prepare encode cluster options).run.Calls Preliminary := by
  unfold prepare
  refine Task.calls_bind (Task.calls_ask trivial) fun record => ?_
  simp only
  split
  · exact Task.calls_throw _
  split
  · exact Task.calls_throw _
  refine Task.calls_bind (Task.calls_ask trivial) fun _ => ?_
  refine Task.calls_bind (Task.calls_ask trivial) fun _ => ?_
  refine Task.calls_bind (Task.calls_mapError (Task.calls_ask trivial)) fun _ => ?_
  refine Task.calls_bind (Task.calls_ask trivial) fun _ => ?_
  refine Task.calls_bind (checkVersions_calls _ _ _) fun _ => ?_
  refine Task.calls_bind (Task.calls_ask trivial) fun _ => ?_
  refine Task.calls_bind (backupWarnings_calls _ _ _) fun _ => ?_
  exact staging_calls _ _ _ _ _ _ _ _ _

/-- The checks and the staging record nothing about the phase. -/
theorem prepare_keeps {encode : UpgradeSpec → Except SpecError String} {cluster : ClusterId}
    {options : UpgradeOptions} {w w' : Window} {q : Prog UpgradeOp (Except Error UpgradePlan)}
    (h : windowMachine.Reach (prepare encode cluster options).run w q w')
    (hw : w.opened = false) : w' = w := by
  refine h.keeps (I := fun v => v = w) (fun _ _ (hd : False) _ => hd.elim) ?_
    (prepare_calls encode cluster options) rfl
  rintro β op s b t hop rfl rfl
  exact hop.record hw

/-! ## The three ways through the window -/

/-- The state when the job has ended. -/
def afterJob (ok : Bool) : Window where
  phase := .upgrading
  opened := true
  hold := some true
  job := some ok

theorem rollBack_settles {p : UpgradePlan} {options : UpgradeOptions} {held : List PoolerId}
    {e : Error} {r : Except Error UpgradeReport} {w : Window}
    (h : windowMachine.Reach (rollBack p options held e).run (afterJob false) (.ret r) w) :
    w.opened = true ∧ (w.Settled ↔ w.Clean options.check) := by
  unfold rollBack at h
  rcases Machine.answering_ask.mp h with ⟨_, h⟩ | ⟨_, -, rfl⟩
  swap
  · exact ⟨rfl, by simp [afterJob]⟩
  obtain ⟨started, h⟩ := Machine.answering_attempt.mp h
  cases started with
  | error restart =>
    obtain ⟨failed, h⟩ := Machine.answering_attempt.mp h
    obtain ⟨_, h⟩ := Machine.answering_perform.mp h
    obtain ⟨-, rfl⟩ := Machine.answering_throw.mp h
    refine ⟨rfl, ?_⟩
    cases failed <;> simp [afterJob]
  | ok _ =>
    obtain ⟨ready, h⟩ := Machine.answering_attempt.mp h
    -- the hold's release comes after the phase and does not change it
    rcases Machine.answering_ask.mp h with ⟨_, h⟩ | ⟨_, -, rfl⟩
    · rcases Machine.answering_ask.mp h with ⟨_, h⟩ | ⟨_, -, rfl⟩
      · obtain ⟨-, rfl⟩ := Machine.answering_throw.mp h
        refine ⟨rfl, ?_⟩
        cases ready <;> simp [afterJob]
      · refine ⟨rfl, ?_⟩
        cases ready <;> simp [afterJob]
    · refine ⟨rfl, ?_⟩
      cases ready <;> simp [afterJob]

theorem endCheck_settles {p : UpgradePlan} {options : UpgradeOptions} {held : List PoolerId}
    {heldFrom : Nat} {run : UpgradeRunReport} {r : Except Error UpgradeReport} {w : Window}
    (hcheck : options.check = true)
    (h : windowMachine.Reach (endCheck p options held heldFrom run).run (afterJob true) (.ret r) w) :
    w.opened = true ∧ (w.Settled ↔ w.Clean options.check) := by
  unfold endCheck at h
  rw [hcheck]
  rcases Machine.answering_ask.mp h with ⟨_, h⟩ | ⟨_, -, rfl⟩
  swap
  · exact ⟨rfl, by simp [afterJob]⟩
  rcases Machine.answering_ask.mp h with ⟨_, h⟩ | ⟨_, -, rfl⟩
  swap
  · exact ⟨rfl, by simp [afterJob]⟩
  rcases Machine.answering_ask.mp h with ⟨_, h⟩ | ⟨_, -, rfl⟩
  swap
  · exact ⟨rfl, by simp [afterJob]⟩
  rcases Machine.answering_ask.mp h with ⟨_, h⟩ | ⟨_, -, rfl⟩
  swap
  · exact ⟨rfl, by simp [afterJob]⟩
  obtain ⟨_, h⟩ := Machine.answering_perform.mp h
  rcases Machine.answering_ask.mp h with ⟨_, h⟩ | ⟨_, -, rfl⟩
  swap
  · exact ⟨rfl, by simp [afterJob]⟩
  obtain ⟨-, rfl⟩ := Machine.answering_pure.mp h
  exact ⟨rfl, by simp [afterJob]⟩

/-! ### The warnings along the way record nothing -/

variable {w w' : Window} {r : Except Error UpgradeReport}

theorem stanzaWarnings_silent {p : UpgradePlan} {f : List String → UpgradeTask UpgradeReport}
    (h : windowMachine.Reach (stanzaWarnings p >>= f).run w (.ret r) w') :
    ∃ ws, windowMachine.Reach (f ws).run w (.ret r) w' := by
  unfold stanzaWarnings at h
  split at h
  · rw [Task.bind_assoc] at h
    obtain ⟨b, h⟩ := Machine.answering_attempt.mp h
    cases b <;> exact ⟨_, h⟩
  · exact ⟨_, h⟩

theorem analyze_silent {p : UpgradePlan} {options : UpgradeOptions}
    {f : Bool × List String → UpgradeTask UpgradeReport}
    (h : windowMachine.Reach (analyze p options >>= f).run w (.ret r) w') :
    ∃ ws, windowMachine.Reach (f ws).run w (.ret r) w' := by
  unfold analyze at h
  split at h
  · rw [Task.bind_assoc] at h
    obtain ⟨b, h⟩ := Machine.answering_attempt.mp h
    cases b <;> exact ⟨_, h⟩
  · exact ⟨_, h⟩

theorem backupAfter_silent {p : UpgradePlan} {options : UpgradeOptions}
    {f : Option String × List String → UpgradeTask UpgradeReport}
    (h : windowMachine.Reach (backupAfter p options >>= f).run w (.ret r) w') :
    ∃ ws, windowMachine.Reach (f ws).run w (.ret r) w' := by
  unfold backupAfter at h
  split at h
  · exact ⟨_, h⟩
  split at h
  · rw [Task.bind_assoc] at h
    obtain ⟨b, h⟩ := Machine.answering_attempt.mp h
    cases b <;> exact ⟨_, h⟩
  · exact ⟨_, h⟩

theorem bringUp_settles {p : UpgradePlan} {options : UpgradeOptions} {held : List PoolerId}
    {heldFrom : Nat} {run : UpgradeRunReport} (hcheck : options.check = false)
    (h : windowMachine.Reach (bringUp p options held heldFrom run).run (afterJob true) (.ret r) w) :
    w.opened = true ∧ (w.Settled ↔ w.Clean options.check) := by
  unfold bringUp at h
  rw [hcheck]
  rcases Machine.answering_ask.mp h with ⟨_, h⟩ | ⟨_, -, rfl⟩
  swap
  · exact ⟨rfl, by simp [afterJob]⟩
  rcases Machine.answering_ask.mp h with ⟨_, h⟩ | ⟨_, -, rfl⟩
  swap
  · exact ⟨rfl, by simp [afterJob]⟩
  rcases Machine.answering_ask.mp h with ⟨_, h⟩ | ⟨_, -, rfl⟩
  swap
  · exact ⟨rfl, by simp [afterJob]⟩
  obtain ⟨_, h⟩ := stanzaWarnings_silent h
  rcases Machine.answering_ask.mp h with ⟨_, h⟩ | ⟨_, -, rfl⟩
  swap
  · exact ⟨rfl, by simp [afterJob]⟩
  obtain ⟨_, h⟩ := Machine.answering_perform.mp h
  rcases Machine.answering_ask.mp h with ⟨_, h⟩ | ⟨_, -, rfl⟩
  swap
  · exact ⟨rfl, by simp [afterJob]⟩
  obtain ⟨_, h⟩ := analyze_silent h
  obtain ⟨_, h⟩ := backupAfter_silent h
  rcases Machine.answering_ask.mp h with ⟨_, h⟩ | ⟨_, -, rfl⟩
  swap
  · exact ⟨rfl, by simp [afterJob]⟩
  obtain ⟨-, rfl⟩ := Machine.answering_pure.mp h
  exact ⟨rfl, by simp [afterJob]⟩

theorem window_settles {p : UpgradePlan} {options : UpgradeOptions} {phase : ClusterPhase}
    (h : windowMachine.Reach (window p options).run { phase } (.ret r) w) :
    w.Settled ↔ if w.opened = true then w.Clean options.check else phase ≠ .upgrading := by
  unfold window at h
  rcases Machine.answering_ask.mp h with ⟨_, h⟩ | ⟨_, -, rfl⟩
  swap
  · simp
  rcases Machine.answering_ask.mp h with ⟨held, h⟩ | ⟨_, -, rfl⟩
  swap
  · simp
  obtain ⟨heldFrom, h⟩ := Machine.answering_perform.mp h
  obtain ⟨job, h⟩ := Machine.answering_attempt.mp h
  have hsettles : w.opened = true ∧ (w.Settled ↔ w.Clean options.check) := by
    cases job with
    | error e => exact rollBack_settles h
    | ok run =>
      cases hcheck : options.check with
      | true =>
        simp only [hcheck, if_true] at h
        exact hcheck ▸ endCheck_settles hcheck h
      | false =>
        simp only [hcheck, Bool.false_eq_true, if_false] at h
        exact hcheck ▸ bringUp_settles hcheck h
  rw [if_pos hsettles.1]
  exact hsettles.2

end Upgrade

/-- **The phase an upgrade leaves**: when `upgrade` returns, the recorded phase says how the
window ended if and only if no call failed whose error is returned before a phase is recorded;
an upgrade that never opened the window leaves the phase that was there. -/
theorem upgrade_settles_iff {encode : UpgradeSpec → Except SpecError String} {cluster : ClusterId}
    {options : UpgradeOptions} {phase : ClusterPhase} {r : Except Error UpgradeReport} {w : Window}
    (h : windowMachine.Reach (upgrade encode cluster options).run { phase } (.ret r) w) :
    w.Settled ↔ if w.opened = true then w.Clean options.check else phase ≠ .upgrading := by
  obtain ⟨plan, v, hprepare, hrest⟩ := Machine.Reach.bind_ret_inv h
  obtain rfl := Upgrade.prepare_keeps hprepare rfl
  cases plan with
  | ok p => exact Upgrade.window_settles hrest
  | error e =>
    obtain ⟨-, rfl⟩ := Machine.answering_ret.mp hrest
    simp

/-! ## A pooler that cannot be held -/

namespace Sample

def options : UpgradeOptions where
  toImage := "docker.io/library/postgres:19"
  method := .copy
  jobs := 1
  check := false
  analyze := true
  backup := true
  wait := .fromSecs 300

/-- The pooler in front of `mydb`. -/
def front : PoolerRecord where
  name := "front"
  manifest :=
    { apiVersion := "pgpod/v1", kind := "Pooler", metadata := ⟨"front"⟩
      spec := { clusters := [{ cluster := "mydb", pools := [{ database := "app" }] }] } }
  generation := 1
  containerName := "pgpod-pooler-front"
  containerId := some "f0"
  hostPort := 6432
  phase := "running"
  pools := [⟨"mydb", "app", "app"⟩]

/-- Every call succeeds, `mydb` running PostgreSQL 18 from the minimal manifest; the hold is
taken if the pooler answers. -/
def answer (held : Except Error (List PoolerId)) : ∀ ⦃β : Type⦄, UpgradeOp β → β
  | _, .requireCluster _ => .ok ⟨"mydb", minimalManifest 999, 1, "running"⟩
  | _, .agentBinary => .ok minimalHost.agentBinary
  | _, .pullImageIfAbsent _ => .ok ()
  | _, .runningVersion _ => .ok "18"
  | _, .upgradeProbe .. => .ok ⟨"19", "/usr/lib/postgresql/19/bin", some "18"⟩
  | _, .upgradeStage .. => .ok ⟨"18", "/pgdata/upgrade/old/bin", "", "", [], 0, 0⟩
  | _, .poolersForCluster _ => .ok [front]
  | _, .backups _ => .ok []
  | _, .recordEvent .. => .ok ()
  | _, .setClusterPhase .. => .ok ()
  | _, .putCluster .. => .ok 2
  | _, .acquireHold _ => held
  | _, .releaseHold .. => ()
  | _, .releaseAfterRecreate .. => .ok ()
  | _, .upgradeHeld .. => .ok ⟨"18", "19", .copy, "/pgdata/pgdata.old-18-20260801120000", 4⟩
  | _, .startInstance .. => .ok ()
  | _, .waitReady .. => .ok ()
  | _, .stanzaUpgrade _ => .ok ()
  | _, .analyzeInStages _ => .ok ()
  | _, .backup .. => .ok none
  | _, .now => 0
  | _, .elapsed _ => 5200

def outcome (held : Except Error (List PoolerId)) : Except Error UpgradeReport × Window :=
  Machine.consult (answer held) Window.record (upgrade (fun _ => .ok "spec") mydb options).run
    { phase := .running }

theorem outcome_reach (held : Except Error (List PoolerId)) :
    windowMachine.Reach (upgrade (fun _ => .ok "spec") mydb options).run { phase := .running }
      (.ret (outcome held).1) (outcome held).2 :=
  Machine.consult_reach _ _ _

/-- **The hold is refused**: `upgrade` returns the error, and the cluster stays `upgrading`. -/
theorem refused_hold_leaves_upgrading :
    ¬ ∀ r w, windowMachine.Reach (upgrade (fun _ => .ok "spec") mydb options).run
      { phase := .running } (.ret r) w → w.Settled := by
  intro h
  have hsettled := h _ _ (outcome_reach (.error (.invalid "pooler front: no such container")))
  exact hsettled.1 (by decide +kernel)

theorem upgrade_settles_iff_hold_taken : (outcome (.ok [])).2.Settled :=
  (upgrade_settles_iff (outcome_reach (.ok []))).mpr
    (by rw [if_pos (by decide +kernel)]; constructor <;> decide +kernel)

end Sample

end Control

end Pgpod
