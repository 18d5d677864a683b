import Pgpod.Control.Converge
import Pgpod.Control.Settle

/-!
# What a successful `upgrade` leaves behind

On the ledger, a call of the operation's body is one step.  Whether the upgrade
was a rehearsal or went through, the instance is put up again the way an apply
of the manifest on record would put it up.  However it ended, the phase on record
is the one its answers tell.
-/

namespace Pgpod

open Effect

namespace Control

/-- The body of `upgrade` on the ledger: a call is whatever its callee does. -/
def upgradeMachine (I : Installation) : Machine UpgradeOp Ledger where
  step _ op L b L' := Ledger.machine.Reach (callee I op) L (.ret b) L'
  drift _ _ := False

section Upgrade

variable {α : Type} {I : Installation} {k : ClusterId} {m : ClusterManifest}
  {options : UpgradeOptions} {P : Ledger → Prop} {L₀ : Ledger}

theorem upgradeOn_reach {L L' : Ledger} {r : Except Error UpgradeReport}
    (h : Ledger.machine.Reach (upgradeOn I k options) L (.ret r) L') :
    (upgradeMachine I).Reach (upgrade I.upgradeSpecToJson k options).run L (.ret r) L' := by
  obtain ⟨u, hreach, rfl⟩ := Machine.Reach.of_interp (N := upgradeMachine I) (R := fun L L' => L' = L)
    (by rintro _ _ _ ⟨⟩) (fun _ _ _ _ _ s' hR hr => ⟨s', hR ▸ hr, rfl⟩) h rfl
  exact hreach

theorem upgradeMachine_stable (P : Ledger → Prop) : (upgradeMachine I).Stable P :=
  fun _ _ h => h.elim

/-! ## Calls -/

theorem yields_callee {op : UpgradeOp (Except Error α)} {t : CtlTask α} {J : α → Ledger → Prop}
    (ht : callee I op = t.run) (h : Ledger.machine.Yields P t J) :
    (upgradeMachine I).Yields P (Task.ask op) J := by
  refine .ask (upgradeMachine_stable _) (fun _ => upgradeMachine_stable _) fun L a L' hL hr => ?_
  have hr : Ledger.machine.Reach (callee I op) L (.ret (.ok a)) L' := hr
  rw [ht] at hr
  exact h L a L' hL hr

/-- Whatever is not of `k` is as it was at the start. -/
abbrev Elsewhere (k : ClusterId) (L₀ L : Ledger) : Prop := Ledger.Frame (others k) L₀ L

theorem step_elsewhere {β : Type} {op : UpgradeOp β} {b : β} {L L' : Ledger} (h₀ : L₀.Tidy)
    (hop : Concerns k op) (h : (upgradeMachine I).step op L b L') (hL : Elsewhere k L₀ L) :
    Elsewhere k L₀ L' :=
  frame_callee (fun _ => clear_others k) (fun _ hne => hne rfl) hop h₀ hL h

/-- What a call establishes, with what it leaves alone. -/
theorem yields_elsewhere {op : UpgradeOp (Except Error α)} {J : α → Ledger → Prop}
    (h₀ : L₀.Tidy) (hop : Concerns k op)
    (h : (upgradeMachine I).Yields (fun L => L.Tidy ∧ P L) (Task.ask op) J) :
    (upgradeMachine I).Yields (fun L => Elsewhere k L₀ L ∧ P L) (Task.ask op)
      fun a L => Elsewhere k L₀ L ∧ J a L := by
  intro L a L' hL hr
  refine ⟨?_, h L a L' ⟨hL.1.tidy, hL.2⟩ hr⟩
  exact hr.keeps (upgradeMachine_stable _)
    (fun _ _ _ _ _ hop hI hstep => step_elsewhere h₀ hop hstep hI)
    (P := Concerns k) (Task.calls_ask hop) hL.1

/-- The call does not write the row of a cluster. -/
def SparesRow (k : ClusterId) ⦃β : Type⦄ (op : UpgradeOp β) : Prop :=
  Concerns k op ∧ ¬ WritesCluster op

theorem step_keepsRow {β : Type} {op : UpgradeOp β} {b : β} {L L' : Ledger} (hop : SparesRow k op)
    (h : (upgradeMachine I).step op L b L') (htidy : L.Tidy) (hrow : OnRecord k m L) :
    OnRecord k m L' := by
  have hframe : Ledger.Frame .clusters L L' :=
    frame_callee (fun _ => clear_clusters k) (fun hw => absurd hw hop.2) hop.1 htidy (.refl htidy) h
  exact hrow.frame hframe trivial

theorem keepsRow (h₀ : L₀.Tidy) {t : UpgradeTask α} (ht : t.run.Calls (SparesRow k)) :
    (upgradeMachine I).Yields (fun L => Elsewhere k L₀ L ∧ OnRecord k m L) t
      fun _ L => Elsewhere k L₀ L ∧ OnRecord k m L :=
  .of_calls (upgradeMachine_stable _)
    (fun _ _ _ _ _ hop hL hstep => ⟨step_elsewhere h₀ hop.1 hstep hL.1,
      step_keepsRow hop hstep hL.1.tidy hL.2⟩) ht

/-! ## Preparing -/

/-- What the plan says of the manifest that is on record. -/
structure Planned (k : ClusterId) (p : UpgradePlan) : Prop where
  cluster : p.cluster = k
  target : ∃ image, p.target = Upgrade.withImage p.manifest image
  single : p.manifest.spec.instances = 1

theorem yields_staging (h₀ : L₀.Tidy) (hsingle : m.spec.instances = 1) {target : ClusterManifest}
    (htarget : ∃ image, target = Upgrade.withImage m image)
    (encode : UpgradeSpec → Except SpecError String) (agent fromVersion : String)
    (probe : ProbeReport) (warnings : List String) :
    (upgradeMachine I).Yields (fun L => Elsewhere k L₀ L ∧ OnRecord k m L)
      (Upgrade.staging encode options k m target agent fromVersion probe warnings)
      fun p L => p.manifest = m ∧ Planned k p ∧ Elsewhere k L₀ L ∧ OnRecord k p.manifest L := by
  refine .bind (keepsRow h₀ (Task.calls_ask ⟨trivial, nofun⟩)) fun _ => ?_
  refine .bind (keepsRow h₀ (Task.calls_ask ⟨rfl, nofun⟩)) fun stage => ?_
  split
  · exact .throw
  refine .bind (keepsRow h₀ (Task.calls_ofExcept _)) fun specEnv => ?_
  exact .pure (upgradeMachine_stable _) fun L hL => ⟨rfl, ⟨rfl, htarget, hsingle⟩, hL⟩

/-- What is known of the manifest on record is known of the one that was read. -/
theorem yields_requireCluster (h₀ : L₀.Tidy) {Known : ClusterManifest → Prop} :
    (upgradeMachine I).Yields (fun L => Elsewhere k L₀ L ∧ ∀ m, OnRecord k m L → Known m)
      (Task.ask (.requireCluster k))
      fun record L => Elsewhere k L₀ L ∧ Known record.manifest ∧ OnRecord k record.manifest L := by
  refine yields_elsewhere h₀ trivial (yields_callee (t := requireCluster k) rfl ?_)
  have hread : Ledger.machine.Yields (fun L => L.Tidy ∧ ∀ m, OnRecord k m L → Known m)
      (registry (.cluster k))
      fun a L => a = L.rows.cluster k.name ∧ L.Tidy ∧ ∀ m, OnRecord k m L → Known m := by
    refine .ask (Ledger.stable _) (fun _ => Ledger.stable _) fun L a L' hL hstep => ?_
    obtain ⟨rfl, hanswer⟩ := hstep
    exact ⟨hanswer a rfl, hL⟩
  refine .bind hread fun a => ?_
  cases a with
  | none => exact .throw
  | some record =>
    refine .pure (Ledger.stable _) fun L hL => ?_
    obtain ⟨hread, -, hknown⟩ := hL
    have hrow : OnRecord k record.manifest L := by
      unfold OnRecord
      rw [← hread]
      rfl
    exact ⟨hknown _ hrow, hrow⟩

theorem backupWarnings_sparesRow (cluster : ClusterId) (m : ClusterManifest) :
    (Upgrade.backupWarnings cluster m options).run.Calls (SparesRow k) := by
  unfold Upgrade.backupWarnings
  split
  · refine Task.calls_bind (Task.calls_attempt (Task.calls_ask ⟨trivial, nofun⟩)) fun _ => ?_
    exact Task.calls_pure _
  · exact Task.calls_pure _

theorem checkVersions_sparesRow (target : ClusterManifest) (fromVersion : String)
    (probe : ProbeReport) :
    (Upgrade.checkVersions target fromVersion probe).run.Calls (SparesRow k) := by
  unfold Upgrade.checkVersions
  simp only
  split
  · exact Task.calls_throw _
  split
  · exact Task.calls_throw _
  · exact Task.calls_pure _

theorem yields_prepare (h₀ : L₀.Tidy) {Known : ClusterManifest → Prop}
    (encode : UpgradeSpec → Except SpecError String) :
    (upgradeMachine I).Yields (fun L => Elsewhere k L₀ L ∧ ∀ m, OnRecord k m L → Known m)
      (Upgrade.prepare encode k options)
      fun p L => Known p.manifest ∧ Planned k p ∧ Elsewhere k L₀ L ∧ OnRecord k p.manifest L := by
  have hread : (upgradeMachine I).Yields
      (fun L => Elsewhere k L₀ L ∧ ∀ m, OnRecord k m L → Known m) (Task.ask (.requireCluster k))
      fun record L => Known record.manifest ∧ Elsewhere k L₀ L ∧ OnRecord k record.manifest L :=
    (yields_requireCluster h₀).mono (fun _ h => h) fun _ _ h => ⟨h.2.1, h.1, h.2.2⟩
  refine .bind hread fun record => .fact fun hknown => ?_
  simp only
  split
  · exact .throw
  next hsingle =>
  split
  · exact .throw
  refine .bind (keepsRow h₀ (Task.calls_ask ⟨trivial, nofun⟩)) fun agent => ?_
  refine .bind (keepsRow h₀ (Task.calls_ask ⟨trivial, nofun⟩)) fun _ => ?_
  refine .bind (keepsRow h₀ (Task.calls_mapError (Task.calls_ask ⟨trivial, nofun⟩))) fun _ => ?_
  refine .bind (keepsRow h₀ (Task.calls_ask ⟨rfl, nofun⟩)) fun probe => ?_
  refine .bind (keepsRow h₀ (checkVersions_sparesRow _ _ _)) fun _ => ?_
  refine .bind (keepsRow h₀ (Task.calls_ask ⟨trivial, nofun⟩)) fun poolers => ?_
  refine .bind (keepsRow h₀ (backupWarnings_sparesRow _ _)) fun warnings => ?_
  intro L p L' hL hr
  obtain ⟨hsame, hplan⟩ := yields_staging h₀ (not_not.mp hsingle) ⟨_, rfl⟩ _ _ _ _ _ L p L' hL hr
  exact ⟨hsame ▸ hknown, hplan⟩

/-! ## The window -/

/-- Put up for its manifest, and that on record. -/
abbrev Restarted (host : Host) (k : ClusterId) (m : ClusterManifest) (L : Ledger) : Prop :=
  Ready host k m (.initdb m.spec.bootstrap.initdb) L ∧ OnRecord k m L

/-- The call handles nothing of the cluster, nor writes its row. -/
def Aside (k : ClusterId) ⦃β : Type⦄ (op : UpgradeOp β) : Prop :=
  Concerns k op ∧ ¬ Handles op ∧ ¬ WritesCluster op

theorem keepsRestarted (h₀ : L₀.Tidy) {t : UpgradeTask α} (ht : t.run.Calls (Aside k)) :
    (upgradeMachine I).Yields (fun L => Elsewhere k L₀ L ∧ Restarted I.toHost k m L) t
      fun _ L => Elsewhere k L₀ L ∧ Restarted I.toHost k m L := by
  refine .of_calls (upgradeMachine_stable _) (fun β op L b L' hop hL hstep => ?_) ht
  obtain ⟨helse, hready, hrow⟩ := hL
  have hframe : Ledger.Frame .all L L' :=
    frame_callee (fun hh => absurd hh hop.2.1) (fun hw => absurd hw hop.2.2) hop.1 helse.tidy
      (.refl helse.tidy) hstep
  exact ⟨step_elsewhere h₀ hop.1 hstep helse, hready.frame hframe trivial fun _ _ _ => trivial,
    hrow.frame hframe trivial⟩

/-- A phase is written, and no more. -/
theorem yields_setPhase (h₀ : L₀.Tidy) (phase : ClusterPhase)
    (hP : ∀ L, P L → P (L.withRows (L.rows.updateCluster k.name fun r =>
      { r with phase := phase.asStr }))) :
    (upgradeMachine I).Yields (fun L => Elsewhere k L₀ L ∧ P L) (Task.ask (.setClusterPhase k phase))
      fun _ L => Elsewhere k L₀ L ∧ P L := by
  refine yields_elsewhere h₀ rfl (yields_callee (t := registry (.setClusterPhase k phase)) rfl ?_)
  refine .ask (Ledger.stable _) (fun _ => Ledger.stable _) fun L a L' hL hstep => ?_
  obtain rfl := hstep
  exact hP L hL.2

theorem stanzaWarnings_aside (p : UpgradePlan) :
    (Upgrade.stanzaWarnings p).run.Calls (Aside k) := by
  unfold Upgrade.stanzaWarnings
  split
  · refine Task.calls_bind (Task.calls_attempt (Task.calls_ask ⟨trivial, nofun, nofun⟩)) fun r => ?_
    cases r with
    | ok u => exact Task.calls_pure _
    | error e => exact Task.calls_pure _
  · exact Task.calls_pure _

theorem analyze_aside (p : UpgradePlan) : (Upgrade.analyze p options).run.Calls (Aside k) := by
  unfold Upgrade.analyze
  split
  · refine Task.calls_bind (Task.calls_attempt (Task.calls_ask ⟨trivial, nofun, nofun⟩)) fun r => ?_
    cases r with
    | ok u => exact Task.calls_pure _
    | error e => exact Task.calls_pure _
  · exact Task.calls_pure _

theorem backupAfter_aside (p : UpgradePlan) :
    (Upgrade.backupAfter p options).run.Calls (Aside k) := by
  unfold Upgrade.backupAfter
  split
  · exact Task.calls_pure _
  split
  · refine Task.calls_bind (Task.calls_attempt (Task.calls_ask ⟨trivial, nofun, nofun⟩)) fun r => ?_
    cases r with
    | ok u => exact Task.calls_pure _
    | error e => exact Task.calls_pure _
  · exact Task.calls_pure _

/-- An upgrade that rolled back has failed. -/
theorem yields_rollBack {J : UpgradeReport → Ledger → Prop} (p : UpgradePlan) (held : List PoolerId)
    (e : Error) :
    (upgradeMachine I).Yields P (Upgrade.rollBack p options held e) J := by
  have hany : ∀ {β : Type} (t : UpgradeTask β) (Q : Ledger → Prop),
      (upgradeMachine I).Yields Q t fun _ _ => True := fun _ _ _ _ _ _ _ => trivial
  refine .bind (hany _ _) fun _ => ?_
  refine .bind (hany _ _) fun restart => ?_
  cases restart with
  | error restart =>
    refine .bind (hany _ _) fun _ => ?_
    exact .bind (hany _ _) fun _ => .throw
  | ok u =>
    refine .bind (hany _ _) fun _ => ?_
    refine .bind (hany _ _) fun _ => ?_
    exact .bind (hany _ _) fun _ => .throw

theorem ordinals_one : ordinals 1 = [1] := by decide

section Json

variable (hjson : ∀ s : InstanceSpec, s.validate I.crates = .ok () →
  I.crates.instanceSpecFromJson (I.crates.instanceSpecToJson s) = .ok s)

include hjson

/-- The instance is put up the way an apply would. -/
theorem yields_startInstance (hsingle : m.spec.instances = 1) (agent : String) :
    Ledger.machine.Yields Ledger.Tidy (startInstance I.toHost m (k.inst 1) agent)
      fun _ => Ready I.toHost k m (.initdb m.spec.bootstrap.initdb) := by
  have hrow : Ledger.machine.Yields Ledger.Tidy (instanceRow (k.inst 1).cluster (k.inst 1).ordinal)
      fun row L => (∀ r, row = some r → NamedRow r) ∧ L.Tidy := by
    intro L row L' hL hr
    obtain ⟨hframe, hnamed⟩ := upholds_instanceRow (σ := .none) _ _ L _ L' (.refl hL) hr
    exact ⟨fun r hrow => (hnamed row rfl r hrow).1, hframe.tidy⟩
  refine .bind hrow fun row => .fact fun hnamed => ?_
  cases row with
  | none => exact .throw
  | some row =>
    have hnetwork : Ledger.machine.Yields Ledger.Tidy
        (podman (.ensureNetwork (k.inst 1).cluster.networkName))
        fun cidr L => L.Tidy ∧ HasNetwork k cidr L := by
      intro L cidr L' hL hr
      have hframe := (Ledger.upholds_ensureNetwork (σ := .none) (by rintro ⟨⟩) L _ L' (.refl hL) hr).1
      obtain ⟨v, w, hv, hstep, hw⟩ := hr.perform_inv
      rw [Ledger.eq_of_drifts hw] at hstep
      exact ⟨hframe.tidy, hstep.2 cidr rfl⟩
    refine .bind hnetwork fun cidr => ?_
    have hafter : Ledger.machine.Yields (fun L => L.Tidy ∧ HasNetwork k cidr L) (do
        let spec ← Task.ofExcept
          (containerSpec I.toHost m (k.inst 1) (upgradeContext m (k.inst 1) agent cidr) row.hostPort)
        let id ← podman (.createContainer spec)
        podman (.start id)
        registry (.putInstance { row with containerId := some id, phase := .bootstrapping }) :
          CtlTask Unit) fun _ => Ready I.toHost k m (.initdb m.spec.bootstrap.initdb) := by
      refine .bind (.ofExcept (Ledger.stable _)) fun spec => .fact fun hspec => ?_
      have hcreate : Ledger.machine.Yields (fun L => L.Tidy ∧ HasNetwork k cidr L)
          (podman (.createContainer spec))
          fun _ L => L.Tidy ∧ Ready I.toHost k m (.initdb m.spec.bootstrap.initdb) L := by
        refine .ask (Ledger.stable _) (fun _ => Ledger.stable _) fun L id L' hL hstep => ?_
        have hmade := hstep.2 id rfl
        obtain ⟨htidy, image, -, himage, hplaced⟩ := made_inPlace hjson hspec hL.1 hmade
        refine ⟨htidy, cidr, image, ?_, himage, fun ordinal ho => ?_⟩
        · obtain ⟨_, -, -, -, rfl⟩ := hmade
          exact hL.2
        · rw [hsingle, ordinals_one, List.mem_singleton] at ho
          rw [ho]
          exact hplaced
      refine .bind hcreate fun id => ?_
      refine .bind (yields_ready fun _ _ => framed_start _) fun _ => ?_
      refine (yields_ready fun _ _ => ?_).mono (fun _ h => h) fun _ _ h => h.2
      exact Ledger.upholds_putInstance (hnamed row rfl)
    have hkeeps : ∀ ref, Ledger.machine.Yields (fun L => L.Tidy ∧ HasNetwork k cidr L)
        (podman (.remove ref)) fun _ L => L.Tidy ∧ HasNetwork k cidr L := by
      intro ref
      refine yields_framed (σ := .networks) (fun _ _ => Ledger.upholds_remove ?_)
        fun _ _ h hframe => (hframe.networks _ trivial).trans h
      rintro t - ⟨⟩
    refine .bind (yields_plain (Task.calls_ask trivial)) fun probe => ?_
    cases probe with
    | none => exact hafter
    | some p =>
      have hstop : Ledger.machine.Yields (fun L => L.Tidy ∧ HasNetwork k cidr L)
          (ignore (podman (.stop (k.inst 1).containerName (.fromSecs 60))))
          fun _ L => L.Tidy ∧ HasNetwork k cidr L :=
        yields_framed (σ := .networks) (fun _ _ => framed_ignore (framed_stop _ _))
          fun _ _ h hframe => (hframe.networks _ trivial).trans h
      refine .bind hstop fun _ => ?_
      exact .bind (hkeeps _) fun _ => hafter

variable (h₀ : L₀.Tidy)

include h₀

theorem yields_restart (hsingle : m.spec.instances = 1) (agent : String) :
    (upgradeMachine I).Yields (fun L => Elsewhere k L₀ L ∧ OnRecord k m L)
      (Task.ask (.startInstance m (k.inst 1) agent))
      fun _ L => Elsewhere k L₀ L ∧ Restarted I.toHost k m L := by
  intro L a L' hL hr
  obtain ⟨helse, hrow⟩ := keepsRow h₀ (t := Task.ask (.startInstance m (k.inst 1) agent))
    (Task.calls_ask ⟨rfl, nofun⟩) L a L' hL hr
  have hstart : (upgradeMachine I).Yields Ledger.Tidy (Task.ask (.startInstance m (k.inst 1) agent))
      fun _ => Ready I.toHost k m (.initdb m.spec.bootstrap.initdb) :=
    yields_callee rfl (yields_startInstance hjson hsingle agent)
  exact ⟨helse, hstart L a L' hL.1.tidy hr, hrow⟩

theorem yields_endCheck {p : UpgradePlan} (hp : Planned k p) (held : List PoolerId)
    (heldFrom : Nat) (run : UpgradeRunReport) :
    (upgradeMachine I).Yields (fun L => Elsewhere k L₀ L ∧ OnRecord k p.manifest L)
      (Upgrade.endCheck p options held heldFrom run)
      fun _ L => Elsewhere k L₀ L ∧ Restarted I.toHost k p.manifest L := by
  obtain ⟨rfl, -, hsingle⟩ := hp
  refine .bind (yields_restart hjson h₀ hsingle p.agent) fun _ => ?_
  refine .bind (keepsRestarted h₀ (Task.calls_ask ⟨trivial, nofun, nofun⟩)) fun _ => ?_
  refine .bind (yields_setPhase h₀ .running fun _ h => ⟨h.1, h.2.setPhase _ .running⟩) fun _ => ?_
  refine .bind (keepsRestarted h₀ (Task.calls_ask ⟨trivial, nofun, nofun⟩)) fun _ => ?_
  refine .bind (keepsRestarted h₀ (Task.calls_perform ⟨trivial, nofun, nofun⟩)) fun heldMs => ?_
  refine .bind (keepsRestarted h₀ (Task.calls_ask ⟨trivial, nofun, nofun⟩)) fun _ => ?_
  exact .pure (upgradeMachine_stable _) fun _ h => h

theorem yields_bringUp {p : UpgradePlan} (hp : Planned k p)
    (hname : p.manifest.metadata.name = k.name) (held : List PoolerId) (heldFrom : Nat)
    (run : UpgradeRunReport) :
    (upgradeMachine I).Yields (Elsewhere k L₀) (Upgrade.bringUp p options held heldFrom run)
      fun _ L => Elsewhere k L₀ L ∧ Restarted I.toHost k p.target L := by
  obtain ⟨rfl, ⟨image, htarget⟩, hsingle⟩ := hp
  have htname : p.target.metadata.name = p.cluster.name := by
    rw [htarget]
    exact hname
  have htsingle : p.target.spec.instances = 1 := by
    rw [htarget]
    exact hsingle
  have hput : (upgradeMachine I).Yields (fun L => Elsewhere p.cluster L₀ L ∧ True)
      (Task.ask (.putCluster p.target .upgrading))
      fun _ L => Elsewhere p.cluster L₀ L ∧ OnRecord p.cluster p.target L := by
    refine yields_elsewhere h₀ htname
      (yields_callee (t := registry (.putCluster p.target .upgrading)) rfl ?_)
    refine .ask (Ledger.stable _) (fun _ => Ledger.stable _) fun L g L' hL hstep => ?_
    obtain ⟨-, rfl⟩ := hstep
    exact onRecord_putCluster htname _
  refine .bind (hput.mono (fun _ h => ⟨h, trivial⟩) fun _ _ h => h) fun _ => ?_
  refine .bind (yields_restart hjson h₀ htsingle p.agent) fun _ => ?_
  refine .bind (keepsRestarted h₀ (Task.calls_ask ⟨trivial, nofun, nofun⟩)) fun _ => ?_
  refine .bind (keepsRestarted h₀ (stanzaWarnings_aside p)) fun stanza => ?_
  refine .bind (keepsRestarted h₀ (Task.calls_ask ⟨trivial, nofun, nofun⟩)) fun _ => ?_
  refine .bind (keepsRestarted h₀ (Task.calls_perform ⟨trivial, nofun, nofun⟩)) fun heldMs => ?_
  refine .bind (keepsRestarted h₀ (Task.calls_ask ⟨trivial, nofun, nofun⟩)) fun _ => ?_
  refine .bind (keepsRestarted h₀ (analyze_aside p)) fun analyzed => ?_
  refine .bind (keepsRestarted h₀ (backupAfter_aside p)) fun label => ?_
  refine .bind (yields_setPhase h₀ .running fun _ h => ⟨h.1, h.2.setPhase _ .running⟩) fun _ => ?_
  exact .pure (upgradeMachine_stable _) fun _ h => h

theorem yields_window {p : UpgradePlan} (hp : Planned k p)
    (hname : p.manifest.metadata.name = k.name) :
    (upgradeMachine I).Yields (fun L => Elsewhere k L₀ L ∧ OnRecord k p.manifest L)
      (Upgrade.window p options)
      fun _ L => ∃ m, (m = p.manifest ∨ m = p.target) ∧ Elsewhere k L₀ L ∧ Restarted I.toHost k m L := by
  have hp' := hp
  obtain ⟨rfl, -, -⟩ := hp'
  refine .bind (yields_setPhase h₀ .upgrading fun _ h => h.setPhase _ .upgrading) fun _ => ?_
  refine .bind (keepsRow h₀ (Task.calls_ask ⟨trivial, nofun⟩)) fun held => ?_
  refine .bind (keepsRow h₀ (Task.calls_perform ⟨trivial, nofun⟩)) fun heldFrom => ?_
  have hjob : (upgradeMachine I).Yields
      (fun L => Elsewhere p.cluster L₀ L ∧ OnRecord p.cluster p.manifest L)
      (Task.attempt (δ := Error) (Task.ask (.upgradeHeld p.target p.inst p.specEnv options)))
      fun _ L => Elsewhere p.cluster L₀ L ∧ OnRecord p.cluster p.manifest L :=
    keepsRow h₀ (Task.calls_attempt (Task.calls_ask ⟨rfl, nofun⟩))
  refine .bind hjob fun r => ?_
  cases r with
  | error e => exact yields_rollBack p held e
  | ok run =>
    simp only
    split
    · exact (yields_endCheck hjson h₀ hp held heldFrom run).mono (fun _ h => h)
        fun _ _ h => ⟨_, .inl rfl, h⟩
    · exact (yields_bringUp hjson h₀ hp hname held heldFrom run).mono (fun _ h => h.1)
        fun _ _ h => ⟨_, .inr rfl, h⟩

/-- **What a successful upgrade leaves behind**, rehearsed or not: the instance as an apply of the
manifest on record would make it. -/
theorem yields_upgrade :
    (upgradeMachine I).Yields
      (fun L => Elsewhere k L₀ L ∧ ∀ m, OnRecord k m L → m.clusterId = .ok k ∧ validateParameters m = .ok ())
      (upgrade I.upgradeSpecToJson k options)
      fun _ L => Elsewhere k L₀ L ∧
        ∃ m, Applied I.toHost m (.initdb m.spec.bootstrap.initdb) k L := by
  refine .bind (yields_prepare h₀ I.upgradeSpecToJson) fun p => .fact fun hknown => .fact fun hp => ?_
  have hname := (ClusterManifest.clusterId_eq_ok.mp hknown.1).symm
  refine (yields_window hjson h₀ hp hname).mono (fun _ h => h) fun _ L hL => ?_
  obtain ⟨m, hm, helse, hready, hrow⟩ := hL
  obtain ⟨image, htarget⟩ := hp.target
  have hsame : m.clusterId = p.manifest.clusterId ∧ validateParameters m =
      validateParameters p.manifest := by
    rcases hm with rfl | rfl
    · exact ⟨rfl, rfl⟩
    · rw [htarget]
      exact ⟨rfl, rfl⟩
  exact ⟨helse, m, helse.tidy, hsame.1.trans hknown.1, hsame.2.trans hknown.2, hready, hrow⟩

end Json

/-! ## The phase on record

What the window is said to record is what the registry comes to hold. -/

theorem record_phase {β : Type} {op : UpgradeOp β} (hop : ¬ WritesCluster op) (b : β) (win : Window) :
    (Window.record op b win).phase = win.phase := by
  cases op with
  | setClusterPhase c phase => exact absurd trivial hop
  | putCluster m phase => exact absurd trivial hop
  | recordEvent c ordinal level message =>
    simp only [Window.record]
    split
    · rfl
    · split <;> rfl
  | _ => rfl

theorem phaseOf_setPhase {R : Registry} {n : String} {before : ClusterPhase}
    (h : R.phaseOf n = some before) (phase : ClusterPhase) :
    (R.updateCluster n fun r => { r with phase := phase.asStr }).phaseOf n = some phase := by
  obtain ⟨row, hrow, -⟩ := Option.map_eq_some_iff.mp h
  unfold Registry.phaseOf
  rw [R.cluster_updateCluster n (fun _ => by rfl), hrow]
  simp [Registry.name_of_cluster hrow]

theorem phaseOf_putCluster {R : Registry} {before : ClusterPhase}
    (h : R.phaseOf m.metadata.name = some before) (phase : ClusterPhase) :
    (R.putCluster m phase).2.phaseOf m.metadata.name = some phase := by
  obtain ⟨row, hrow, -⟩ := Option.map_eq_some_iff.mp h
  unfold Registry.phaseOf Registry.putCluster
  rw [hrow]
  simp only
  rw [R.cluster_updateCluster m.metadata.name (fun _ => by rfl), hrow]
  simp [Registry.name_of_cluster hrow]

/-- The phase on record, where the rows are in order, is the one the window holds. -/
def PhaseOnRecord (k : ClusterId) (L : Ledger) (win : Window) : Prop :=
  L.Tidy ∧ L.rows.phaseOf k.name = some win.phase

/-- A call changes the phase on record as it changes the window's. -/
theorem PhaseOnRecord.step {β : Type} {op : UpgradeOp β} {b : β} {L L' : Ledger} {win : Window}
    (hop : Concerns k op) (hL : PhaseOnRecord k L win) (h : (upgradeMachine I).step op L b L') :
    PhaseOnRecord k L' (Window.record op b win) := by
  obtain ⟨htidy, hphase⟩ := hL
  refine ⟨(step_elsewhere htidy hop h (.refl htidy)).tidy, ?_⟩
  by_cases hwrites : WritesCluster op
  · cases op with
    | setClusterPhase c phase =>
      obtain rfl : c = k := hop
      obtain ⟨v, w, hv, hstep, hw⟩ := Machine.Reach.perform_inv h
      obtain rfl := Ledger.eq_of_drifts hv
      obtain rfl := Ledger.eq_of_drifts hw
      cases b with
      | error e =>
        obtain rfl := hstep
        simp only [Window.record]
        split <;> simpa using hphase
      | ok u =>
        obtain rfl := hstep
        have hset : (L.withRows (L.rows.updateCluster c.name fun r =>
            { r with phase := phase.asStr })).rows.phaseOf c.name = some phase :=
          phaseOf_setPhase hphase phase
        simp only [Window.record, isOk_ok, if_true]
        split <;> exact hset
    | putCluster m phase =>
      have hm : m.metadata.name = k.name := hop
      obtain ⟨v, w, hv, hstep, hw⟩ := Machine.Reach.perform_inv h
      obtain rfl := Ledger.eq_of_drifts hv
      obtain rfl := Ledger.eq_of_drifts hw
      rw [← hm] at hphase ⊢
      cases b with
      | error e =>
        obtain rfl := hstep
        simpa using hphase
      | ok generation =>
        obtain ⟨-, rfl⟩ := hstep
        exact phaseOf_putCluster hphase phase
    | _ => exact hwrites.elim
  · have hframe : Ledger.Frame .clusters L L' :=
      frame_callee (fun _ => clear_clusters k) (fun hw => absurd hw hwrites) hop htidy (.refl htidy) h
    rw [record_phase hwrites]
    unfold Registry.phaseOf
    rw [hframe.clusters _ trivial]
    exact hphase

theorem prepare_concerns (encode : UpgradeSpec → Except SpecError String) :
    (Upgrade.prepare encode k options).run.Calls (Concerns k) := by
  unfold Upgrade.prepare
  refine Task.calls_bind (Task.calls_ask trivial) fun record => ?_
  simp only
  split
  · exact Task.calls_throw _
  split
  · exact Task.calls_throw _
  refine Task.calls_bind (Task.calls_ask trivial) fun _ => ?_
  refine Task.calls_bind (Task.calls_ask trivial) fun _ => ?_
  refine Task.calls_bind (Task.calls_mapError (Task.calls_ask trivial)) fun _ => ?_
  refine Task.calls_bind (Task.calls_ask rfl) fun probe => ?_
  refine Task.calls_bind ((checkVersions_sparesRow _ _ _).mono fun _ _ h => h.1) fun _ => ?_
  refine Task.calls_bind (Task.calls_ask trivial) fun _ => ?_
  refine Task.calls_bind ((backupWarnings_sparesRow _ _).mono fun _ _ h => h.1) fun _ => ?_
  unfold Upgrade.staging
  refine Task.calls_bind (Task.calls_ask trivial) fun _ => ?_
  refine Task.calls_bind (Task.calls_ask rfl) fun stage => ?_
  split
  · exact Task.calls_throw _
  · exact Task.calls_bind (Task.calls_ofExcept _) fun _ => Task.calls_pure _

theorem rollBack_concerns {p : UpgradePlan} (hcluster : p.cluster = k) (held : List PoolerId)
    (e : Error) : (Upgrade.rollBack p options held e).run.Calls (Concerns k) := by
  unfold Upgrade.rollBack
  refine Task.calls_bind (Task.calls_ask trivial) fun _ => ?_
  refine Task.calls_bind (Task.calls_attempt (Task.calls_ask hcluster)) fun restart => ?_
  cases restart with
  | error restart =>
    refine Task.calls_bind (Task.calls_attempt (Task.calls_ask hcluster)) fun _ => ?_
    exact Task.calls_bind (Task.calls_perform trivial) fun _ => Task.calls_throw _
  | ok u =>
    refine Task.calls_bind (Task.calls_attempt (Task.calls_ask trivial)) fun _ => ?_
    refine Task.calls_bind (Task.calls_ask hcluster) fun _ => ?_
    exact Task.calls_bind (Task.calls_ask trivial) fun _ => Task.calls_throw _

theorem window_concerns {p : UpgradePlan} (hcluster : p.cluster = k)
    (hname : p.target.metadata.name = k.name) :
    (Upgrade.window p options).run.Calls (Concerns k) := by
  unfold Upgrade.window
  refine Task.calls_bind (Task.calls_ask hcluster) fun _ => ?_
  refine Task.calls_bind (Task.calls_ask trivial) fun held => ?_
  refine Task.calls_bind (Task.calls_perform trivial) fun heldFrom => ?_
  refine Task.calls_bind (Task.calls_attempt (Task.calls_ask hcluster)) fun job => ?_
  cases job with
  | error e => exact rollBack_concerns hcluster held e
  | ok run =>
    simp only
    split
    · unfold Upgrade.endCheck
      refine Task.calls_bind (Task.calls_ask hcluster) fun _ => ?_
      refine Task.calls_bind (Task.calls_ask trivial) fun _ => ?_
      refine Task.calls_bind (Task.calls_ask hcluster) fun _ => ?_
      refine Task.calls_bind (Task.calls_ask trivial) fun _ => ?_
      refine Task.calls_bind (Task.calls_perform trivial) fun _ => ?_
      exact Task.calls_bind (Task.calls_ask trivial) fun _ => Task.calls_pure _
    · unfold Upgrade.bringUp
      refine Task.calls_bind (Task.calls_ask hname) fun _ => ?_
      refine Task.calls_bind (Task.calls_ask hcluster) fun _ => ?_
      refine Task.calls_bind (Task.calls_ask trivial) fun _ => ?_
      refine Task.calls_bind ((stanzaWarnings_aside p).mono fun _ _ h => h.1) fun _ => ?_
      refine Task.calls_bind (Task.calls_ask trivial) fun _ => ?_
      refine Task.calls_bind (Task.calls_perform trivial) fun _ => ?_
      refine Task.calls_bind (Task.calls_ask trivial) fun _ => ?_
      refine Task.calls_bind ((analyze_aside p).mono fun _ _ h => h.1) fun _ => ?_
      refine Task.calls_bind ((backupAfter_aside p).mono fun _ _ h => h.1) fun _ => ?_
      exact Task.calls_bind (Task.calls_ask hcluster) fun _ => Task.calls_pure _

/-- **The window is the registry's**: a run of `upgrade` on a host is a run over the answers of its
calls, and the phase it leaves on record is the one the window ends with. -/
theorem upgradeOn_phase {A : Agent.Code} {w u : World} {r : Except Error UpgradeReport}
    {phase : ClusterPhase} (htidy : w.ledger.Tidy)
    (hnamed : ∀ m, OnRecord k m w.ledger → m.metadata.name = k.name)
    (hphase : w.registry.phaseOf k.name = some phase)
    (h : (hostMachine A).Reach (upgradeOn I k options) w (.ret r) u) :
    ∃ win, windowMachine.Reach (upgrade I.upgradeSpecToJson k options).run { phase } (.ret r) win ∧
      u.registry.phaseOf k.name = some win.phase := by
  have hdrift : ∀ L L' win, (upgradeMachine I).drift L L' → PhaseOnRecord k L win →
      PhaseOnRecord k L' win := fun _ _ _ hd => hd.elim
  have hstep : ∀ ⦃β⦄ (op : UpgradeOp β) L b L' win, Concerns k op → PhaseOnRecord k L win →
      (upgradeMachine I).step op L b L' →
      ∃ win', windowMachine.step op win b win' ∧ PhaseOnRecord k L' win' :=
    fun _ _ _ _ _ _ hop hL hs => ⟨_, rfl, hL.step hop hs⟩
  obtain ⟨plan, L, hprepare, hrest⟩ :=
    Machine.Reach.bind_ret_inv (upgradeOn_reach (hostMachine_reach h))
  have hstart : PhaseOnRecord k w.ledger { phase } := ⟨htidy, hphase⟩
  obtain ⟨v, hprepared, hL⟩ := hprepare.relates (N := windowMachine)
    hdrift hstep (prepare_concerns _) hstart
  cases plan with
  | error e =>
    obtain ⟨hret, hdrifts⟩ := hrest.of_ret
    cases hret
    rw [Ledger.eq_of_drifts hdrifts] at hL
    exact ⟨v, hprepared.bind_ret .refl, hL.2⟩
  | ok p =>
    have hplans : (upgradeMachine I).Yields
        (fun L => Elsewhere k w.ledger L ∧ ∀ m, OnRecord k m L → m.metadata.name = k.name)
        (Upgrade.prepare I.upgradeSpecToJson k options)
        fun p L => p.manifest.metadata.name = k.name ∧ Planned k p ∧ Elsewhere k w.ledger L ∧
          OnRecord k p.manifest L := yields_prepare htidy _
    obtain ⟨hname, hp, -, -⟩ := hplans _ _ _ ⟨.refl htidy, hnamed⟩ hprepare
    obtain ⟨image, htarget⟩ := hp.target
    have hcalls : (Upgrade.window p options).run.Calls (Concerns k) :=
      window_concerns hp.cluster (by rw [htarget]; exact hname)
    obtain ⟨win, hwindow, hend⟩ := hrest.relates (N := windowMachine)
      hdrift hstep hcalls hL
    exact ⟨win, hprepared.bind_ret hwindow, hend.2⟩

end Upgrade

end Control

end Pgpod
