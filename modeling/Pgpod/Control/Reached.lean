import Pgpod.Control.Upgraded

/-!
# The states that operations lead to

From a host on which nothing was applied, any number of applies, restores,
upgrades and deletes, each of which succeeded.  Whatever the order, a cluster
that is recorded as running has a container for each of its instances that
passes the comparison with the manifest on record, bootstrapped as the manifest
says or told to recover.
-/

namespace Pgpod

open Effect

/-- Nothing was applied here. -/
structure World.Fresh (w : World) : Prop where
  clusters : w.registry.clusters = []
  instances : w.registry.instances = []
  containers : w.containers = []

namespace Control

/-- What an operator does to a cluster; a delete keeps the volumes. -/
inductive Operation
  | apply (m : ClusterManifest) (options : ApplyOptions)
  | restore (source target : ClusterId) (atTime : Option DateTime) (image : Option String)
      (wait : Duration)
  | upgrade (cluster : ClusterId) (options : UpgradeOptions)
  | delete (cluster : ClusterId)

/-- The operation ended in a value, whatever its calls answered and the containers did. -/
inductive Succeeds (A : Agent.Code) (H : RestoreHost) (w u : World) : Operation → Prop
  | apply {m : ClusterManifest} {options : ApplyOptions} {report : ApplyReport} :
      (hostMachine A).Reach (applyWith H.toHost m options).run w (.ret (.ok report)) u →
      Succeeds A H w u (.apply m options)
  | restore {source target : ClusterId} {atTime : Option DateTime} {image : Option String}
      {wait : Duration} {report : RestoreReport} :
      (hostMachine A).Reach (restore H source target atTime image wait).run w
        (.ret (.ok report)) u →
      Succeeds A H w u (.restore source target atTime image wait)
  | upgrade {cluster : ClusterId} {options : UpgradeOptions} {report : UpgradeReport} :
      (hostMachine A).Reach (upgradeOn H.toInstallation cluster options) w (.ret (.ok report)) u →
      Succeeds A H w u (.upgrade cluster options)
  | delete {cluster : ClusterId} {report : DeleteReport} :
      (hostMachine A).Reach (delete cluster false).run w (.ret (.ok report)) u →
      Succeeds A H w u (.delete cluster)

/-- Any sequence of operations that succeeded. -/
inductive Reachable (A : Agent.Code) (H : RestoreHost) : World → Prop
  | fresh {w : World} : w.Fresh → Reachable A H w
  | step {w u : World} {op : Operation} : Reachable A H w → Succeeds A H w u op → Reachable A H u

/-! ## The invariant -/

/-- What the row under a name says is so. -/
def SoundRow (host : Host) (n : String) (L : Ledger) : Prop :=
  ∀ r, L.rows.cluster n = some r → ∃ k : ClusterId, k.name = n ∧ r.manifest.clusterId = .ok k ∧
    validateParameters r.manifest = .ok () ∧
    (r.phase = ClusterPhase.running.asStr →
      Ready host k r.manifest (.initdb r.manifest.spec.bootstrap.initdb) L ∨
        ∃ recovery, Ready host k r.manifest (.recovery recovery) L)

structure Sound (host : Host) (L : Ledger) : Prop where
  tidy : L.Tidy
  rows : ∀ n, SoundRow host n L

section Sound

variable {host : Host} {L L' : Ledger} {k : ClusterId}

theorem SoundRow.frame {n : String} (h : SoundRow host n L) (hn : n ≠ k.name)
    (hframe : Ledger.Frame (others k) L L') : SoundRow host n L' := by
  intro r hr
  rw [hframe.clusters n hn] at hr
  obtain ⟨k', hk', hnamed, hparams, hready⟩ := h r hr
  have hne : k' ≠ k := fun heq => hn (hk'.symm.trans (congrArg ClusterId.name heq))
  have hkeep : ∀ b, Ready host k' r.manifest b L → Ready host k' r.manifest b L' :=
    fun b hb => hb.frame hframe (fun heq => hne (networkName_inj heq))
      fun ordinal t ht => ⟨k'.inst ordinal, hne, ht⟩
  refine ⟨k', hk', hnamed, hparams, fun hphase => ?_⟩
  rcases hready hphase with hinit | ⟨recovery, hrec⟩
  · exact .inl (hkeep _ hinit)
  · exact .inr ⟨recovery, hkeep _ hrec⟩

/-- An operation on one cluster has only that cluster's row to account for. -/
theorem Sound.of_frame (h : Sound host L) (hframe : Ledger.Frame (others k) L L')
    (hrow : SoundRow host k.name L') : Sound host L' := by
  refine ⟨hframe.tidy, fun n => ?_⟩
  by_cases hn : n = k.name
  · rw [hn]
    exact hrow
  · exact (h.rows n).frame hn hframe

theorem Applied.soundRow {m : ClusterManifest} {b : Bootstrap} (h : Applied host m b k L)
    (hb : b = .initdb m.spec.bootstrap.initdb ∨ ∃ recovery, b = .recovery recovery) :
    SoundRow host k.name L := by
  intro r hr
  have hrow := h.row
  unfold OnRecord at hrow
  rw [hr] at hrow
  obtain rfl : r.manifest = m := Option.some.inj hrow
  refine ⟨k, rfl, h.named, h.parameters, fun _ => ?_⟩
  rcases hb with rfl | ⟨recovery, rfl⟩
  · exact .inl h.ready
  · exact .inr ⟨recovery, h.ready⟩

/-- What is known of the manifest on record. -/
theorem Sound.known (h : Sound host L) {m : ClusterManifest} (hm : OnRecord k m L) :
    m.clusterId = .ok k ∧ validateParameters m = .ok () := by
  obtain ⟨r, hr, rfl⟩ := Option.map_eq_some_iff.mp hm
  obtain ⟨k', hk', hnamed, hparams, -⟩ := h.rows k.name r hr
  obtain rfl : k' = k := ClusterId.ext hk'
  exact ⟨hnamed, hparams⟩

end Sound

/-! ## Delete -/

/-- What is known of the manifest on record is known of it still, and the cluster is stopped. -/
theorem yields_delete {k : ClusterId} (Known : ClusterManifest → Prop) :
    Ledger.machine.Yields (fun L => L.Tidy ∧ ∀ m, OnRecord k m L → Known m) (delete k false)
      fun _ L => ∀ r, L.rows.cluster k.name = some r →
        Known r.manifest ∧ r.phase = ClusterPhase.stopped.asStr := by
  have hkeep : ∀ {α : Type} {t : CtlTask α},
      (∀ L₀ : Ledger, L₀.Tidy → Framed .clusters L₀ t) →
      Ledger.machine.Yields (fun L => L.Tidy ∧ ∀ m, OnRecord k m L → Known m) t
        fun _ L => L.Tidy ∧ ∀ m, OnRecord k m L → Known m := by
    intro α t ht
    refine yields_framed ht fun L L' hL hframe m hm => hL m ?_
    unfold OnRecord at hm ⊢
    rw [← hframe.clusters k.name trivial]
    exact hm
  have hrows : Ledger.machine.Yields (fun L => L.Tidy ∧ ∀ m, OnRecord k m L → Known m)
      (registry (.instances k)) fun rows L => (∀ r ∈ rows, NamedRow r ∧ r.cluster = k.name) ∧
        L.Tidy ∧ ∀ m, OnRecord k m L → Known m := by
    intro L rows L' hL hr
    have hnamed := (Ledger.upholds_instances (σ := .none) k L _ L' (.refl hL.1) hr).2 rows rfl
    have hplain : (registry (.instances k)).run.Calls Plain := Task.calls_ask trivial
    refine ⟨hnamed, ?_⟩
    exact yields_plain (P := fun L => L.Tidy ∧ ∀ m, OnRecord k m L → Known m) hplain L rows L' hL hr
  refine .bind (yields_plain (requireCluster_plain _)) fun record => ?_
  refine .bind hrows fun rows => .fact fun hnamed => ?_
  refine .bind (yields_plain (Task.calls_ask trivial)) fun poolers => ?_
  refine .bind (hkeep fun _ h₀ => framed_removeContainers h₀ (clear_clusters k) hnamed) fun removed => ?_
  refine .bind (hkeep fun _ _ => framed_pure ()) fun _ => ?_
  refine .bind (hkeep fun _ _ => framed_ignore (Ledger.upholds_removeNetwork ?_)) fun _ => ?_
  · exact (clear_clusters k).network
  have hphase : Ledger.machine.Yields (fun L => L.Tidy ∧ ∀ m, OnRecord k m L → Known m)
      (registry (.setClusterPhase k .stopped))
      fun _ L => ∀ r, L.rows.cluster k.name = some r →
        Known r.manifest ∧ r.phase = ClusterPhase.stopped.asStr := by
    refine .ask (Ledger.stable _) (fun _ => Ledger.stable _) fun L a L' hL hstep => ?_
    obtain rfl := hstep
    intro r hr
    change (L.rows.updateCluster k.name _).cluster k.name = some r at hr
    rw [L.rows.cluster_updateCluster k.name (fun _ => by rfl)] at hr
    obtain ⟨old, hold, rfl⟩ := Option.map_eq_some_iff.mp hr
    rw [if_pos (Registry.name_of_cluster hold)]
    refine ⟨hL.2 old.manifest ?_, rfl⟩
    unfold OnRecord
    rw [hold]
    rfl
  have hstop : Ledger.machine.Yields (fun L => L.Tidy ∧ ∀ m, OnRecord k m L → Known m)
      (stopCluster k rows) fun _ L => ∀ r, L.rows.cluster k.name = some r →
        Known r.manifest ∧ r.phase = ClusterPhase.stopped.asStr :=
    .bind (hkeep fun _ _ => framed_stopRows fun r hr => (hnamed r hr).1) fun _ => hphase
  refine .bind hstop fun _ => ?_
  refine .bind (yields_plain (Task.calls_ask trivial)) fun _ => ?_
  exact .pure (Ledger.stable _) fun _ h => h

/-! ## Every operation keeps the invariant -/

section Reachable

variable {A : Agent.Code} {H : RestoreHost} {w u : World}
  (hjson : ∀ s : InstanceSpec, s.validate H.crates = .ok () →
    H.crates.instanceSpecFromJson (H.crates.instanceSpecToJson s) = .ok s)

include hjson

/-- **One operation**: whatever the row of its cluster says afterwards is so, and the other
clusters are as they were. -/
theorem sound_of_succeeds {op : Operation} (h : Succeeds A H w u op) (hw : Sound H.toHost w.ledger) :
    Sound H.toHost u.ledger := by
  have htidy := hw.tidy
  cases h with
  | @apply m options report hr =>
    have hr := hostMachine_reach hr
    obtain ⟨k, happlied⟩ := yields_applyWithBootstrap hjson _ _ _ _ _ htidy hr
    have hframe : Ledger.Frame (others k) w.ledger u.ledger := by
      refine (framed_applyWithBootstrap htidy (fun k' hk' => ?_) _ _ _ _ _ (.refl htidy) hr).1
      obtain rfl : k = k' := Except.ok.inj (happlied.named.symm.trans hk')
      exact ⟨clear_others k, fun hne => hne rfl⟩
    exact hw.of_frame hframe (happlied.soundRow (.inl rfl))
  | @restore source target atTime image wait report hr =>
    have hr := hostMachine_reach hr
    obtain ⟨m, recovery, happlied⟩ := yields_restore hjson _ _ _ htidy hr
    have hframe : Ledger.Frame (others target) w.ledger u.ledger :=
      (framed_restore htidy (clear_others target) (fun hne => hne rfl) _ _ _ _ _ _ (.refl htidy) hr).1
    exact hw.of_frame hframe (happlied.soundRow (.inr ⟨recovery, rfl⟩))
  | @upgrade k options report hr =>
    have hr := upgradeOn_reach (hostMachine_reach hr)
    obtain ⟨helse, m, happlied⟩ :=
      yields_upgrade hjson htidy _ _ _ ⟨.refl htidy, fun _ hm => hw.known hm⟩ hr
    exact hw.of_frame helse (happlied.soundRow (.inl rfl))
  | @delete k report hr =>
    have hr := hostMachine_reach hr
    have hframe : Ledger.Frame (others k) w.ledger u.ledger :=
      (framed_delete htidy (clear_others k) (fun hne => hne rfl) _ _ _ (.refl htidy) hr).1
    refine hw.of_frame hframe fun r hrow => ?_
    obtain ⟨⟨hnamed, hparams⟩, hphase⟩ :=
      yields_delete (fun m => m.clusterId = .ok k ∧ validateParameters m = .ok ()) _ _ _
        ⟨htidy, fun _ hm => hw.known hm⟩ hr r hrow
    refine ⟨k, rfl, hnamed, hparams, fun hrunning => ?_⟩
    exact absurd (hphase.symm.trans hrunning) (by decide)

/-- **Any number of operations.** -/
theorem sound_of_reachable (h : Reachable A H w) : Sound H.toHost w.ledger := by
  induction h with
  | @fresh w h =>
    have hshelf : w.ledger.shelf = [] := by
      unfold World.ledger
      rw [h.containers]
      rfl
    have hinst : w.ledger.instances = [] := h.instances
    constructor
    · constructor
      · simp [hshelf]
      · simp [hshelf]
      · simp [hshelf]
      · simp [hshelf]
      · simp [hinst]
    · intro n r hr
      have hnone : w.ledger.rows.cluster n = none := by
        unfold Registry.cluster Ledger.rows World.ledger
        rw [h.clusters]
        rfl
      rw [hnone] at hr
      cases hr
  | step _ hop ih => exact sound_of_succeeds hjson hop ih

/-- **What a cluster that is recorded running runs**: each instance's container is there under its
name, started as the manifest on record bootstraps, or as a recovery. -/
theorem running_as_recorded (h : Reachable A H w) {n : String} {r : ClusterRecord}
    (hr : w.ledger.rows.cluster n = some r) (hrunning : r.phase = ClusterPhase.running.asStr) :
    ∃ k : ClusterId, k.name = n ∧ ∀ ordinal ∈ ordinals r.manifest.spec.instances, ∃ t s,
      w.ledger.find (k.inst ordinal).containerName = some t ∧ runs H.toHost t.spec = some s ∧
        (s.bootstrap = .initdb r.manifest.spec.bootstrap.initdb ∨
          ∃ recovery, s.bootstrap = .recovery recovery) := by
  have hsound := sound_of_reachable hjson h
  obtain ⟨k, hk, -, -, hready⟩ := hsound.rows n r hr
  refine ⟨k, hk, fun ordinal ho => ?_⟩
  have hruns : ∀ b, Ready H.toHost k r.manifest b w.ledger → ∃ t s,
      w.ledger.find (k.inst ordinal).containerName = some t ∧ runs H.toHost t.spec = some s ∧
        s.bootstrap = b := by
    rintro b ⟨cidr, image, -, -, hplaced⟩
    obtain ⟨t, hfind, hfits⟩ := (hplaced ordinal ho).find hsound.tidy
    obtain ⟨s, hs, hb⟩ := hfits.runs
    exact ⟨t, s, hfind, hs, hb⟩
  rcases hready hrunning with hinit | ⟨recovery, hrecovery⟩
  · obtain ⟨t, s, hfind, hs, hb⟩ := hruns _ hinit
    exact ⟨t, s, hfind, hs, .inl hb⟩
  · obtain ⟨t, s, hfind, hs, hb⟩ := hruns _ hrecovery
    exact ⟨t, s, hfind, hs, .inr ⟨recovery, hb⟩⟩

end Reachable

end Control

end Pgpod
