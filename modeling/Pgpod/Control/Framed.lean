import Pgpod.Control.Adoption
import Pgpod.Control.Delete
import Pgpod.Control.LedgerFrame
import Pgpod.Control.Restore

/-!
# The operations, framed

Each operation on a cluster, however it ends, leaves the other clusters' rows,
networks and containers as they are.
-/

namespace Pgpod

open Effect

namespace Control

theorem pgbackrestContainerSpec_eq_ok {host : Host} {m : ClusterManifest} {cluster : ClusterId}
    {name : String} {args : List String} {row : InstanceRecord} {spec : ContainerSpec}
    (h : pgbackrestContainerSpec host m cluster name args row = .ok spec) :
    spec.name = some name ∧ spec.env = [] := by
  unfold pgbackrestContainerSpec credentialSecrets at h
  simp only [except_bind_eq_ok, foldl_addSecret] at h
  obtain ⟨bundle, -, h⟩ := h
  rw [← Except.ok.inj h]
  cases m.spec.backup.volume <;> exact ⟨rfl, rfl⟩

section Framed

variable {σ : Ledger.Scope} {L₀ : Ledger}

/-- The task keeps what `σ` names of `L₀`. -/
abbrev Framed {α : Type} (σ : Ledger.Scope) (L₀ : Ledger) (t : CtlTask α) : Prop :=
  Ledger.machine.Upholds (Ledger.Frame σ L₀) t fun _ => True

theorem framed_plain {α : Type} {t : CtlTask α} (ht : t.run.Calls Plain) : Framed σ L₀ t :=
  Ledger.upholds_plain ht

theorem framed_bind {α β : Type} {t : CtlTask α} {f : α → CtlTask β} (ht : Framed σ L₀ t)
    (hf : ∀ a, Framed σ L₀ (f a)) : Framed σ L₀ (t >>= f) :=
  .bind ht fun a _ => hf a

theorem framed_pure {α : Type} (a : α) : Framed σ L₀ (pure a) := .pure (Ledger.stable _) trivial

theorem framed_throw {α : Type} (e : Error) : Framed σ L₀ (Task.throw e : CtlTask α) :=
  .throw (Ledger.stable _)

theorem framed_attempt {α : Type} {t : CtlTask α} (ht : Framed σ L₀ t) :
    Framed σ L₀ (Task.attempt t) :=
  (ht.attempt (Ledger.stable _)).mono fun _ _ => trivial

theorem framed_ignore {α : Type} {t : CtlTask α} (ht : Framed σ L₀ t) : Framed σ L₀ (ignore t) :=
  framed_bind (framed_attempt ht) fun _ => framed_pure _

theorem framed_event (k : ClusterId) (ordinal : Option UInt32) (level message : String) :
    Framed σ L₀ (recordEvent k ordinal level message) :=
  framed_plain (Task.calls_ask trivial)

theorem framed_start (ref : String) : Framed σ L₀ (podman (.start ref)) :=
  .ask (Ledger.stable _) fun _ _ _ hs hstep => ⟨hstep ▸ hs, fun _ _ => trivial⟩

theorem framed_stop (ref : String) (timeout : Duration) : Framed σ L₀ (podman (.stop ref timeout)) :=
  .ask (Ledger.stable _) fun _ _ _ hs hstep => ⟨hstep ▸ hs, fun _ _ => trivial⟩

/-! ## Waiting -/

/-- The row of an instance, as the registry names its container. -/
theorem upholds_instanceRow (k : ClusterId) (ordinal : UInt32) :
    Ledger.machine.Upholds (Ledger.Frame σ L₀) (instanceRow k ordinal) fun row =>
      ∀ r, row = some r → NamedRow r ∧ r.cluster = k.name := by
  refine .bind (Ledger.upholds_instances k) fun rows hrows => .pure (Ledger.stable _) ?_
  exact fun r hr => hrows r (List.mem_of_find?_eq_some hr)

theorem framed_markRunning (inst : InstanceId) : Framed σ L₀ (markRunning inst) := by
  refine .bind (upholds_instanceRow _ _) fun row hrow => ?_
  cases row with
  | some row => exact Ledger.upholds_putInstance (hrow row rfl).1
  | none => exact framed_pure _

theorem framed_pollReady (inst : InstanceId) (timeout : Duration) (rounds : Nat) (last : String) :
    Framed σ L₀ (pollReady inst timeout rounds last) := by
  induction rounds generalizing last with
  | zero => exact framed_plain (notReady_plain _ _ _)
  | succ rounds ih =>
    have hagain : ∀ last : String, Framed σ L₀ (do
        let probe ← podman (.probe inst.containerName)
        if probe.any fun p => !p.running then notReady inst timeout last
        else pollReady inst timeout rounds last : CtlTask Unit) := by
      intro last
      refine framed_bind (framed_plain (Task.calls_ask trivial)) fun probe => ?_
      split
      · exact framed_plain (notReady_plain _ _ _)
      · exact ih _
    refine framed_bind (framed_plain (Task.calls_perform trivial)) fun time => ?_
    split
    · exact framed_plain (notReady_plain _ _ _)
    refine framed_bind (framed_attempt (framed_plain (Task.calls_ask trivial))) fun r => ?_
    cases r with
    | error e => exact hagain _
    | ok out =>
      simp only
      split
      · exact framed_markRunning _
      · exact hagain _

theorem framed_waitReady (inst : InstanceId) (timeout : Duration) :
    Framed σ L₀ (waitReady inst timeout) :=
  framed_pollReady _ _ _ _

/-! ## Jobs -/

section Jobs

variable (h₀ : L₀.Tidy)

include h₀

/-- What runs in a throwaway container: it is made, waited for, and removed. -/
theorem framed_job {α : Type} {spec : ContainerSpec} {f : String → CtlTask α}
    (hname : ∃ rest, spec.name = some ("pgpod-" ++ rest))
    (hf : ∀ id, Ledger.Spares σ L₀ id → Framed σ L₀ (f id)) :
    Framed σ L₀ (podman (.createContainer spec) >>= f) :=
  .bind (Ledger.upholds_createContainer hname) fun id hid =>
    hf id (Ledger.Frame.spares_fresh h₀ hid)

theorem framed_removeStale {rest : String}
    (hname : ∀ t, σ.tag t → t.spec.name ≠ some ("pgpod-" ++ rest)) :
    Framed σ L₀ (removeStale ("pgpod-" ++ rest)) := by
  refine framed_bind (framed_plain (Task.calls_ask trivial)) fun probe => ?_
  cases probe with
  | none => exact framed_pure _
  | some p =>
    refine framed_bind (framed_ignore (framed_stop _ _)) fun _ => ?_
    exact framed_ignore (Ledger.upholds_remove (Ledger.Frame.spares_name h₀ hname))

theorem framed_upgradeJob {α : Type} {host : Host} {read : Report → Option α} {m : ClusterManifest}
    {inst : InstanceId} {job : String} {argv : List String} {specEnv : Option String}
    {wait : Duration} (hname : ∀ t, σ.tag t → t.spec.name ≠ some (inst.jobContainerName job)) :
    Framed σ L₀ (upgradeJob host read m inst job argv specEnv wait) := by
  have hfront : inst.jobContainerName job =
      "pgpod-" ++ (inst.cluster.name ++ "-" ++ inst.ordinalText ++ "-" ++ job) := by
    simp [InstanceId.jobContainerName, String.append_assoc]
  refine framed_bind (framed_plain (agentBinary_plain _)) fun agent => ?_
  refine framed_bind ?_ fun _ => ?_
  · rw [hfront]
    exact framed_removeStale h₀ (hfront ▸ hname)
  have hspec : (upgradeJobSpec m inst agent job argv specEnv).name =
      some (inst.jobContainerName job) := by
    cases specEnv <;> rfl
  refine framed_job h₀ ⟨_, hspec.trans (congrArg some hfront)⟩ fun id hid => ?_
  refine framed_bind (framed_start _) fun _ => ?_
  refine framed_bind (framed_plain (waitForJob_plain _ _ _ _)) fun code => ?_
  refine framed_bind (framed_plain (logsOrWhyNot_plain _)) fun logs => ?_
  refine framed_bind (framed_ignore (Ledger.upholds_remove hid)) fun _ => ?_
  split
  · exact framed_throw _
  · exact framed_plain (Task.calls_ofExcept _)

/-! ### pgBackRest -/

theorem framed_runPgbackrest {host : Host} {m : ClusterManifest} {cluster : ClusterId}
    {rest : String} {args : List String} {wait : Duration} :
    Framed σ L₀ (runPgbackrest host m cluster ("pgpod-" ++ rest) args wait) := by
  refine framed_bind (framed_plain (instanceRow_plain _ _)) fun row => ?_
  cases row with
  | none => exact framed_throw _
  | some row =>
    refine .bind (.ofExcept (Ledger.stable _)) fun spec hspec => ?_
    have hname := (pgbackrestContainerSpec_eq_ok hspec).1
    refine framed_job h₀ ⟨rest, hname⟩ fun id hid => ?_
    refine framed_bind (framed_start _) fun _ => ?_
    refine framed_bind (framed_plain (waitForJob_plain _ _ _ _)) fun code => ?_
    refine framed_bind (framed_plain (logsOrWhyNot_plain _)) fun logs => ?_
    refine framed_bind (framed_ignore (Ledger.upholds_remove hid)) fun _ => ?_
    split
    · exact framed_pure _
    · exact framed_pure _

theorem framed_stanzaInfo (I : Installation) (cluster : ClusterId) :
    Framed σ L₀ (stanzaInfo I cluster) := by
  refine framed_bind (framed_plain (requireCluster_plain _)) fun record => ?_
  split
  · exact framed_pure _
  refine framed_bind (framed_plain (Task.calls_perform trivial)) fun stamp => ?_
  refine framed_bind ?_ fun out => ?_
  · simp only [String.append_assoc]
    exact framed_runPgbackrest h₀
  refine framed_bind (framed_plain (Task.calls_ofExcept _)) fun logs => ?_
  refine framed_bind (framed_plain (Task.calls_ofExcept _)) fun json => ?_
  exact framed_bind (framed_plain (Task.calls_ofExcept _)) fun stanzas => framed_pure _

theorem framed_backups (I : Installation) (cluster : ClusterId) :
    Framed σ L₀ (backups I cluster) :=
  framed_bind (framed_stanzaInfo h₀ _ _) fun _ => framed_pure _

theorem framed_backup (I : Installation) (cluster : ClusterId) (wait : Duration) :
    Framed σ L₀ (backup I cluster wait) := by
  refine framed_bind (framed_plain (requireCluster_plain _)) fun record => ?_
  split
  · exact framed_throw _
  refine framed_bind (framed_stanzaInfo h₀ _ _) fun before => ?_
  refine framed_bind (framed_event _ _ _ _) fun _ => ?_
  refine framed_bind (framed_plain (Task.calls_perform trivial)) fun stamp => ?_
  refine framed_bind ?_ fun out => ?_
  · simp only [String.append_assoc]
    exact framed_runPgbackrest h₀
  cases out with
  | error e => exact framed_bind (framed_event _ _ _ _) fun _ => framed_throw _
  | ok logs =>
    refine framed_bind (framed_stanzaInfo h₀ _ _) fun after => ?_
    exact framed_bind (framed_event _ _ _ _) fun _ => framed_pure _

theorem framed_stanzaUpgrade (I : Installation) (cluster : ClusterId) :
    Framed σ L₀ (stanzaUpgrade I cluster) := by
  refine framed_bind (framed_plain (requireCluster_plain _)) fun record => ?_
  refine framed_bind ?_ fun out => ?_
  · simp only [String.append_assoc]
    exact framed_runPgbackrest h₀
  exact framed_bind (framed_plain (Task.calls_ofExcept _)) fun _ => framed_pure _

end Jobs

/-! ## Instances -/

/-- The scope names no network and no container that an operation on `k` works with. -/
structure Clear (σ : Ledger.Scope) (k : ClusterId) : Prop where
  network : ¬ σ.network k.networkName
  inst : ∀ ordinal t, σ.tag t → t.spec.name ≠ some (k.inst ordinal).containerName
  job : ∀ ordinal (job : UpgradeJob) t, σ.tag t →
    t.spec.name ≠ some ((k.inst ordinal).jobContainerName job.name)

/-- What an operation on `k` has no business with. -/
def others (k : ClusterId) : Ledger.Scope where
  cluster n := n ≠ k.name
  network n := n ≠ k.networkName
  tag t := ∃ i : InstanceId, i.cluster ≠ k ∧ t.spec.name = some i.containerName

theorem clear_others (k : ClusterId) : Clear (others k) k where
  network h := h rfl
  inst := by
    rintro ordinal t ⟨i, hne, hi⟩ hname
    have heq := Named.inst_containerName_inj (Option.some.inj (hi.symm.trans hname))
    exact hne (congrArg InstanceId.cluster heq)
  job := by
    rintro ordinal job t ⟨i, -, hi⟩ hname
    have hnames := Option.some.inj (hi.symm.trans hname)
    have heq := Named.eq_of_containerName_eq (a := .inst i) (b := .instanceJob (k.inst ordinal) job)
      rfl rfl hnames
    cases heq

theorem networkName_inj {k k' : ClusterId} (h : k.networkName = k'.networkName) : k = k' := by
  have hlist := congrArg String.toList h
  simp only [ClusterId.networkName, String.toList_append, List.append_cancel_left_eq] at hlist
  exact ClusterId.ext (String.toList_injective hlist)

section Instances

variable {host : Host} {m : ClusterManifest} {inst : InstanceId}
  (hinst : ∀ t, σ.tag t → t.spec.name ≠ some inst.containerName)

/-- An instance's container, by its name. -/
theorem spares_containerName (h₀ : L₀.Tidy)
    (hinst : ∀ t, σ.tag t → t.spec.name ≠ some inst.containerName) :
    Ledger.Spares σ L₀ inst.containerName := by
  obtain ⟨rest, hrest⟩ := inst.containerName_front
  rw [hrest] at hinst ⊢
  exact Ledger.Frame.spares_name h₀ hinst

theorem framed_createInstance {ctx : ApplyContext} {port : UInt16} {spec : ContainerSpec}
    (h : containerSpec host m inst ctx port = .ok spec) :
    Framed σ L₀ (podman (.createContainer spec)) := by
  obtain ⟨rest, hrest⟩ := inst.containerName_front
  exact (Ledger.upholds_createContainer ⟨rest, (containerSpec_name h).trans (congrArg some hrest)⟩).mono
    fun _ _ => trivial

theorem framed_createAndStart {ctx : ApplyContext} {port : UInt16} {spec : ContainerSpec}
    (h : containerSpec host m inst ctx port = .ok spec) : Framed σ L₀ (createAndStart spec) := by
  refine framed_bind (framed_createInstance h) fun id => ?_
  exact framed_bind (framed_start _) fun _ => framed_pure _

include hinst

theorem framed_recreateHeld (h₀ : L₀.Tidy) (ctx : ApplyContext) (port : UInt16) :
    Framed σ L₀ (recreateHeld host m inst ctx port) := by
  refine framed_bind (framed_event _ _ _ _) fun _ => ?_
  refine framed_bind (framed_ignore (framed_stop _ _)) fun _ => ?_
  refine framed_bind (Ledger.upholds_remove (spares_containerName h₀ hinst)) fun _ => ?_
  refine framed_bind (framed_event _ _ _ _) fun _ => ?_
  refine .bind (.ofExcept (Ledger.stable _)) fun spec hspec => ?_
  refine framed_bind (framed_createInstance hspec) fun id => ?_
  refine framed_bind (framed_start _) fun _ => ?_
  exact framed_bind (framed_waitReady _ _) fun _ => framed_pure _

theorem framed_recreateInstance (h₀ : L₀.Tidy) (ctx : ApplyContext) (port : UInt16) :
    Framed σ L₀ (recreateInstance host m inst ctx port) := by
  refine framed_bind (framed_plain (Task.calls_perform trivial)) fun started => ?_
  refine framed_bind (framed_plain (acquire_plain _)) fun held => ?_
  refine framed_bind (.when (Ledger.stable _) fun _ => framed_event _ _ _ _) fun _ => ?_
  refine framed_bind (framed_attempt (framed_recreateHeld hinst h₀ _ _)) fun r => ?_
  cases r with
  | ok id =>
    refine framed_bind (framed_plain (releaseAfterRecreate_plain _ _)) fun _ => ?_
    refine framed_bind (framed_plain (Task.calls_perform trivial)) fun elapsed => ?_
    exact framed_bind (framed_event _ _ _ _) fun _ => framed_pure _
  | error e =>
    refine framed_bind (framed_plain (release_plain _ _)) fun _ => ?_
    exact framed_bind (framed_event _ _ _ _) fun _ => framed_throw _

/-- The container that `apply` found is the instance's own. -/
theorem upholds_probeInstance :
    Ledger.machine.Upholds (Ledger.Frame σ L₀) (podman (.probe inst.containerName)) fun a =>
      ∀ p, a = some p → Ledger.Spares σ L₀ p.id := by
  obtain ⟨rest, hrest⟩ := inst.containerName_front
  rw [hrest] at hinst ⊢
  exact Ledger.upholds_probe hinst

theorem framed_convergeContainer (h₀ : L₀.Tidy) (ctx : ApplyContext) (port : UInt16) :
    Framed σ L₀ (convergeContainer host m inst ctx port) := by
  refine .bind (upholds_probeInstance hinst) fun probe hprobe => ?_
  cases probe with
  | none =>
    refine .bind (.ofExcept (Ledger.stable _)) fun spec hspec => ?_
    refine framed_bind (Ledger.upholds_pullImage _) fun _ => ?_
    exact framed_createAndStart hspec
  | some p =>
    simp only
    split
    · exact framed_pure _
    · split
      · refine framed_bind (framed_event _ _ _ _) fun _ => ?_
        exact framed_recreateInstance hinst h₀ _ _
      · exact framed_throw _
    · exact framed_bind (framed_start _) fun _ => framed_pure _
    · refine framed_bind (framed_event _ _ _ _) fun _ => ?_
      refine .bind (.ofExcept (Ledger.stable _)) fun spec hspec => ?_
      refine framed_bind (Ledger.upholds_pullImage _) fun _ => ?_
      refine framed_bind (Ledger.upholds_remove (hprobe p rfl)) fun _ => ?_
      exact framed_createAndStart hspec

omit hinst in
theorem namedRow_instanceRecordOf (volume : String) (port : UInt16) (id : Option String)
    (phase : InstancePhase) : NamedRow (instanceRecordOf inst volume port id phase) := by
  intro c hc
  obtain rfl : c = inst.cluster := ClusterId.ext hc
  rfl

theorem framed_applyInstance (h₀ : L₀.Tidy) (ctx : ApplyContext) :
    Framed σ L₀ (applyInstance host m inst ctx) := by
  have hafter : ∀ port : UInt16, Framed σ L₀ (do
      let volume ← podman (.createVolume inst.volumeName)
      registry (.putInstance (instanceRecordOf inst volume port none .creating))
      let id ← convergeContainer host m inst ctx port
      registry (.putInstance (instanceRecordOf inst volume port (some id) .bootstrapping))
      pure
        { inst := inst.toText
          container := inst.containerName
          volume
          hostPort := port
          connectionUri := connectionUri port m } : CtlTask InstanceSummary) := by
    intro port
    refine framed_bind (framed_plain (Task.calls_ask trivial)) fun volume => ?_
    refine framed_bind (Ledger.upholds_putInstance (namedRow_instanceRecordOf _ _ _ _)) fun _ => ?_
    refine framed_bind (framed_convergeContainer hinst h₀ _ _) fun id => ?_
    refine framed_bind (Ledger.upholds_putInstance (namedRow_instanceRecordOf _ _ _ _)) fun _ => ?_
    exact framed_pure _
  refine framed_bind (framed_plain (instanceRow_plain _ _)) fun existing => ?_
  cases existing with
  | some row => exact hafter row.hostPort
  | none => exact framed_bind (framed_plain (Task.calls_ask trivial)) hafter

end Instances

/-! ## Apply and restore -/

section Apply

variable {host : Host} {m : ClusterManifest} {k : ClusterId}

theorem framed_waitEach (wait : Duration) (ordinals : List UInt32) :
    Framed σ L₀ (waitEach k wait ordinals) := by
  induction ordinals with
  | nil => exact framed_pure _
  | cons ordinal rest ih => exact framed_bind (framed_waitReady _ _) fun _ => ih

theorem framed_settleInstances (options : ApplyOptions) (rotate : List (String × String)) :
    Framed σ L₀ (settleInstances k m options rotate) := by
  unfold settleInstances
  split
  · exact framed_bind (framed_waitEach _ _) fun _ => framed_plain (rotateRestoredRoles_plain _ _)
  · exact .when (Ledger.stable _) fun _ => framed_event _ _ _ _

variable (h₀ : L₀.Tidy)

include h₀

theorem framed_applyEach (ctx : ApplyContext) {ordinals : List UInt32}
    (hinst : ∀ ordinal ∈ ordinals, ∀ t, σ.tag t →
      t.spec.name ≠ some (k.inst ordinal).containerName) :
    Framed σ L₀ (applyEach host m k ctx ordinals) := by
  induction ordinals with
  | nil => exact framed_pure _
  | cons ordinal rest ih =>
    refine framed_bind (framed_applyInstance (hinst ordinal List.mem_cons_self) h₀ _) fun _ => ?_
    refine framed_bind (ih fun o ho => hinst o (List.mem_cons_of_mem _ ho)) fun _ => ?_
    exact framed_pure _

variable (hclear : Clear σ k)

include hclear

theorem framed_applyRecorded (bootstrap : Bootstrap) (options : ApplyOptions) (agent : String)
    (desiredImageId : Option String) :
    Framed σ L₀ (applyRecorded host m k bootstrap options agent desiredImageId) := by
  refine framed_bind (Ledger.upholds_ensureNetwork hclear.network) fun networkCidr => ?_
  have hafter : Framed σ L₀ (do
      let ensured ← ensureSecrets k m bootstrap
      let summaries ← applyEach host m k
        { bootstrap, networkCidr, secrets := ensured.names, agent, recreate := options.recreate
          desiredImageId } (ordinals m.spec.instances)
      settleInstances k m options ensured.rotate
      pure summaries : CtlTask (List InstanceSummary)) := by
    refine framed_bind (framed_plain (ensureSecrets_plain _ _ _)) fun ensured => ?_
    refine framed_bind (framed_applyEach h₀ _ fun o _ => hclear.inst o) fun summaries => ?_
    exact framed_bind (framed_settleInstances _ _) fun _ => framed_pure _
  split
  · exact framed_bind (framed_plain (Task.calls_ask trivial)) fun _ => hafter
  · exact hafter

theorem framed_refuseIncompatibleImage (desiredImageId : Option String) :
    Framed σ L₀ (refuseIncompatibleImage host k m desiredImageId) := by
  refine framed_bind (framed_plain (Task.calls_ask trivial)) fun there => ?_
  split
  · exact framed_pure _
  refine framed_bind (framed_plain (Task.calls_ask trivial)) fun probe => ?_
  split
  · exact framed_pure _
  refine framed_bind (framed_upgradeJob h₀ (hclear.job _ .imageProbe)) fun report => ?_
  exact framed_plain (Task.calls_ofExcept _)

theorem framed_applyChecks : Framed σ L₀ (applyChecks host m k) := by
  refine framed_bind (framed_plain (Task.calls_ofExcept _)) fun _ => ?_
  refine framed_bind (framed_plain (agentBinary_plain _)) fun agent => ?_
  refine framed_bind (framed_plain (Task.calls_ask trivial)) fun existing => ?_
  refine framed_bind (Ledger.upholds_pullImage _) fun _ => ?_
  refine framed_bind (framed_plain (Task.calls_ask trivial)) fun desiredImageId => ?_
  exact framed_bind (framed_refuseIncompatibleImage h₀ hclear _) fun _ => framed_pure _

theorem framed_applyAndRecord (hk : ¬ σ.cluster k.name) (hm : m.metadata.name = k.name)
    (bootstrap : Bootstrap) (options : ApplyOptions) (existed : Bool) (agent : String)
    (desiredImageId : Option String) :
    Framed σ L₀ (applyAndRecord host m k bootstrap options existed agent desiredImageId) := by
  refine framed_bind (Ledger.upholds_putCluster _ (hm ▸ hk)) fun generation => ?_
  refine framed_bind (framed_event _ _ _ _) fun _ => ?_
  refine framed_bind (framed_attempt (framed_applyRecorded h₀ hclear _ _ _ _)) fun r => ?_
  cases r with
  | error e =>
    refine framed_bind ?_ fun _ => framed_throw _
    refine framed_bind (framed_ignore (Ledger.upholds_setClusterPhase _ hk)) fun _ => ?_
    exact framed_ignore (framed_event _ _ _ _)
  | ok summaries =>
    refine framed_bind (Ledger.upholds_setClusterPhase _ hk) fun _ => ?_
    exact framed_bind (framed_event _ _ _ _) fun _ => framed_pure _

omit hclear in
/-- **An apply leaves the rest alone.** -/
theorem framed_applyWithBootstrap
    (hclear : ∀ k, m.clusterId = .ok k → Clear σ k ∧ ¬ σ.cluster k.name)
    (bootstrap : Bootstrap) (options : ApplyOptions) :
    Framed σ L₀ (applyWithBootstrap host m bootstrap options) := by
  refine .bind (.ofExcept (Ledger.stable _)) fun k hk => ?_
  have hk := except_mapError_eq_ok.mp hk
  obtain ⟨hclear, hrow⟩ := hclear k hk
  refine framed_bind (framed_applyChecks h₀ hclear) fun checked => ?_
  exact framed_applyAndRecord h₀ hclear hrow (ClusterManifest.clusterId_eq_ok.mp hk).symm _ _ _ _ _

end Apply

section Restore

variable {H : RestoreHost} {source target : ClusterId}

/-- **A restore leaves the rest alone**: the cluster it restores from too. -/
theorem framed_restore (h₀ : L₀.Tidy) (hclear : Clear σ target) (hrow : ¬ σ.cluster target.name)
    (atTime : Option DateTime) (image : Option String) (wait : Duration) :
    Framed σ L₀ (restore H source target atTime image wait) := by
  have hfrom : ∀ m info, Framed σ L₀ (restoreFrom H source target atTime image wait m info) := by
    intro m info
    unfold restoreFrom
    cases info.backupForTarget H.clock atTime with
    | none => exact framed_throw _
    | some chosen =>
      refine framed_bind (framed_plain (Task.calls_ofExcept _)) fun _ => ?_
      refine framed_bind (framed_applyWithBootstrap h₀ (fun k hk => ?_) _ _) fun _ => framed_pure _
      obtain rfl : k = target := ClusterId.ext (ClusterManifest.clusterId_eq_ok.mp hk)
      exact ⟨hclear, hrow⟩
  unfold restore
  split
  · exact framed_throw _
  refine framed_bind (framed_plain (Task.calls_ask trivial)) fun found => ?_
  cases found with
  | some _ => exact framed_throw _
  | none =>
    refine framed_bind (framed_plain (requireCluster_plain _)) fun record => ?_
    split
    · exact framed_throw _
    refine framed_bind (framed_stanzaInfo h₀ _ _) fun answer => ?_
    cases answer with
    | none => exact framed_throw _
    | some info => exact hfrom _ _

end Restore

/-! ## Delete -/

section Delete

variable {k : ClusterId}

theorem framed_removeContainers (h₀ : L₀.Tidy) (hclear : Clear σ k) {rows : List InstanceRecord}
    (hrows : ∀ r ∈ rows, NamedRow r ∧ r.cluster = k.name) :
    Framed σ L₀ (removeContainers rows) := by
  induction rows with
  | nil => exact framed_pure _
  | cons row rest ih =>
    have hrest := ih fun r hr => hrows r (List.mem_cons_of_mem _ hr)
    obtain ⟨hnamed, hcluster⟩ := hrows row List.mem_cons_self
    refine framed_bind (framed_plain (Task.calls_ask trivial)) fun probe => ?_
    cases probe with
    | none => exact hrest
    | some p =>
      refine framed_bind (framed_ignore (framed_stop _ _)) fun _ => ?_
      refine framed_bind (Ledger.upholds_remove ?_) fun _ => ?_
      · rw [hnamed k hcluster.symm]
        exact spares_containerName h₀ (hclear.inst _)
      · exact framed_bind hrest fun _ => framed_pure _

theorem framed_stopRows {rows : List InstanceRecord} (hrows : ∀ r ∈ rows, NamedRow r) :
    Framed σ L₀ (stopRows rows) := by
  induction rows with
  | nil => exact framed_pure _
  | cons row rest ih =>
    refine framed_bind (Ledger.upholds_putInstance (hrows row List.mem_cons_self)) fun _ => ?_
    exact ih fun r hr => hrows r (List.mem_cons_of_mem _ hr)

/-- **A delete without `--purge` leaves the rest alone.** -/
theorem framed_delete (h₀ : L₀.Tidy) (hclear : Clear σ k) (hk : ¬ σ.cluster k.name) :
    Framed σ L₀ (delete k false) := by
  refine framed_bind (framed_plain (requireCluster_plain _)) fun record => ?_
  refine .bind (Ledger.upholds_instances k) fun rows hrows => ?_
  refine framed_bind (framed_plain (Task.calls_ask trivial)) fun poolers => ?_
  refine framed_bind (framed_removeContainers h₀ hclear hrows) fun removed => ?_
  refine framed_bind (framed_pure _) fun _ => ?_
  refine framed_bind (framed_ignore (Ledger.upholds_removeNetwork hclear.network)) fun _ => ?_
  refine framed_bind ?_ fun _ => ?_
  · refine framed_bind (framed_stopRows fun r hr => (hrows r hr).1) fun _ => ?_
    exact Ledger.upholds_setClusterPhase _ hk
  · exact framed_bind (framed_plain (Task.calls_ask trivial)) fun _ => framed_pure _

end Delete

/-! ## Upgrade -/

section Upgrade

variable {host : Host} {m : ClusterManifest} {inst : InstanceId}

theorem framed_startInstance (h₀ : L₀.Tidy) (hclear : Clear σ inst.cluster) (agent : String) :
    Framed σ L₀ (startInstance host m inst agent) := by
  refine .bind (upholds_instanceRow _ _) fun row hrow => ?_
  cases row with
  | none => exact framed_throw _
  | some row =>
    refine framed_bind (Ledger.upholds_ensureNetwork hclear.network) fun networkCidr => ?_
    have hafter : Framed σ L₀ (do
        let spec ← Task.ofExcept
          (containerSpec host m inst (upgradeContext m inst agent networkCidr) row.hostPort)
        let id ← podman (.createContainer spec)
        podman (.start id)
        registry (.putInstance { row with containerId := some id, phase := .bootstrapping }) :
          CtlTask Unit) := by
      refine .bind (.ofExcept (Ledger.stable _)) fun spec hspec => ?_
      refine framed_bind (framed_createInstance hspec) fun id => ?_
      refine framed_bind (framed_start _) fun _ => ?_
      exact Ledger.upholds_putInstance (hrow row rfl).1
    refine framed_bind (framed_plain (Task.calls_ask trivial)) fun probe => ?_
    cases probe with
    | none => exact hafter
    | some p =>
      refine framed_bind (framed_ignore (framed_stop _ _)) fun _ => ?_
      refine framed_bind (Ledger.upholds_remove ?_) fun _ => hafter
      exact spares_containerName h₀ (hclear.inst _)

theorem framed_upgradeHeld (h₀ : L₀.Tidy) (hclear : Clear σ inst.cluster) (specEnv : String)
    (options : UpgradeOptions) : Framed σ L₀ (upgradeHeld host m inst specEnv options) := by
  have hafter : Framed σ L₀ (do
      recordEvent inst.cluster (some inst.ordinal) "info"
        (if options.check then "running pg_upgrade --check" else "running pg_upgrade")
      upgradeRun host m inst specEnv options.method : CtlTask UpgradeRunReport) :=
    framed_bind (framed_event _ _ _ _) fun _ => framed_upgradeJob h₀ (hclear.job _ .upgradeRun)
  refine framed_bind (framed_event _ _ _ _) fun _ => ?_
  refine framed_bind (framed_plain (Task.calls_ask trivial)) fun probe => ?_
  cases probe with
  | none => exact hafter
  | some p =>
    refine framed_bind (framed_stop _ _) fun _ => ?_
    refine framed_bind (Ledger.upholds_remove ?_) fun _ => hafter
    exact spares_containerName h₀ (hclear.inst _)

theorem runningVersion_plain (inst : InstanceId) : (runningVersion inst).run.Calls Plain := by
  refine Task.calls_bind (runningContainer_plain _) fun container => ?_
  refine Task.calls_bind (Task.calls_ask trivial) fun out => ?_
  split
  · exact Task.calls_throw _
  · split
    · exact Task.calls_pure _
    · exact Task.calls_throw _

theorem analyzeInStages_plain (inst : InstanceId) : (analyzeInStages inst).run.Calls Plain := by
  refine Task.calls_bind (runningContainer_plain _) fun container => ?_
  refine Task.calls_bind (Task.calls_ask trivial) fun out => ?_
  split
  · exact Task.calls_pure _
  · exact Task.calls_throw _

/-- The call of `upgrade` is about the cluster `k`. -/
def Concerns (k : ClusterId) : ∀ ⦃β : Type⦄, UpgradeOp β → Prop
  | _, .putCluster m _ => m.metadata.name = k.name
  | _, .setClusterPhase c _ => c = k
  | _, .upgradeProbe _ inst => inst.cluster = k
  | _, .upgradeStage _ inst => inst.cluster = k
  | _, .upgradeHeld _ inst _ _ => inst.cluster = k
  | _, .startInstance _ inst _ => inst.cluster = k
  | _, _ => True

/-- The call works with the cluster's network, or with containers by their names. -/
def Handles : ∀ ⦃β : Type⦄, UpgradeOp β → Prop
  | _, .upgradeProbe .. => True
  | _, .upgradeStage .. => True
  | _, .upgradeHeld .. => True
  | _, .startInstance .. => True
  | _, _ => False

/-- The call writes the row of a cluster. -/
def WritesCluster : ∀ ⦃β : Type⦄, UpgradeOp β → Prop
  | _, .putCluster .. => True
  | _, .setClusterPhase .. => True
  | _, _ => False

/-- Each call of `upgrade` leaves the rest alone, and most of them its cluster's row as well. -/
theorem frame_callee {I : Installation} {k : ClusterId} {β : Type} {op : UpgradeOp β}
    (hclear : Handles op → Clear σ k) (hk : WritesCluster op → ¬ σ.cluster k.name)
    (hop : Concerns k op) {L L' : Ledger} {b : β} (h₀ : L₀.Tidy) (hL : Ledger.Frame σ L₀ L)
    (hreach : Ledger.machine.Reach (callee I op) L (.ret b) L') : Ledger.Frame σ L₀ L' := by
  have htask : ∀ {α : Type} {t : CtlTask α} {r : Except Error α}, Framed σ L₀ t →
      Ledger.machine.Reach t.run L (.ret r) L' → Ledger.Frame σ L₀ L' :=
    fun ht hr => (ht L _ L' hL hr).1
  have hplain : ∀ {α : Type} {p : Prog CtlOp α} {a : α}, p.Calls Plain →
      Ledger.machine.Reach p L (.ret a) L' → Ledger.Frame σ L₀ L' :=
    fun hp hr => hr.keeps (Ledger.stable _)
      (fun _ _ _ _ _ hplain hs hstep => Ledger.step_plain hplain hstep ▸ hs) hp hL
  cases op with
  | requireCluster c => exact hplain (requireCluster_plain c) hreach
  | agentBinary => exact hplain (agentBinary_plain _) hreach
  | pullImageIfAbsent image => exact htask (Ledger.upholds_pullImage image) hreach
  | runningVersion inst => exact hplain (runningVersion_plain inst) hreach
  | upgradeProbe m inst =>
    obtain rfl : inst.cluster = k := hop
    exact htask (framed_upgradeJob h₀ ((hclear trivial).job _ .upgradeProbe)) hreach
  | upgradeStage m inst =>
    obtain rfl : inst.cluster = k := hop
    exact htask (framed_upgradeJob h₀ ((hclear trivial).job _ .upgradeStage)) hreach
  | poolersForCluster c => exact hplain (p := callee I (.poolersForCluster c)) ⟨trivial, fun _ => trivial⟩ hreach
  | backups c => exact htask (framed_bind (framed_backups h₀ I c) fun _ => framed_pure _) hreach
  | recordEvent c ordinal level message => exact htask (framed_event c ordinal level message) hreach
  | setClusterPhase c phase =>
    obtain rfl : c = k := hop
    exact htask (Ledger.upholds_setClusterPhase phase (hk trivial)) hreach
  | putCluster m phase =>
    have hm : m.metadata.name = k.name := hop
    exact htask (Ledger.upholds_putCluster phase (hm ▸ hk trivial)) hreach
  | acquireHold c => exact hplain (acquire_plain c) hreach
  | releaseHold c held =>
    exact hplain (p := callee I (.releaseHold c held))
      (Prog.Calls.bind (release_plain c held) fun _ => trivial) hreach
  | releaseAfterRecreate c held => exact hplain (releaseAfterRecreate_plain c held) hreach
  | upgradeHeld target inst specEnv options =>
    obtain rfl : inst.cluster = k := hop
    exact htask (framed_upgradeHeld h₀ (hclear trivial) specEnv options) hreach
  | startInstance m inst agent =>
    obtain rfl : inst.cluster = k := hop
    exact htask (framed_startInstance h₀ (hclear trivial) agent) hreach
  | waitReady inst wait => exact htask (framed_waitReady inst wait) hreach
  | stanzaUpgrade c => exact htask (framed_stanzaUpgrade h₀ I c) hreach
  | analyzeInStages inst => exact hplain (analyzeInStages_plain inst) hreach
  | backup c wait => exact htask (framed_backup h₀ I c wait) hreach
  | now => exact hplain (p := callee I .now) ⟨trivial, fun _ => trivial⟩ hreach
  | elapsed since => exact hplain (p := callee I (.elapsed since)) ⟨trivial, fun _ => trivial⟩ hreach

end Upgrade

end Framed

end Control

end Pgpod
