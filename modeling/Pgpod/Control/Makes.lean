import Pgpod.Control.Adoption
import Pgpod.Control.Plain
import Pgpod.Control.Restore

/-!
# The containers an apply makes

Along every run of an apply, each container it makes is of the manifest's
image: the instances', and the job that looks into a volume before.
-/

namespace Pgpod

open Effect

namespace Control

/-- If the operation makes a container, it is one with `P`. -/
def Makes (P : ContainerSpec → Prop) : ∀ ⦃β : Type⦄, CtlOp β → Prop
  | _, .podman (.createContainer spec) => P spec
  | _, _ => True

section Calls

variable {P : ContainerSpec → Prop}

theorem makes_of_plain {α : Type} {p : Prog CtlOp α} (h : p.Calls Plain) : p.Calls (Makes P) := by
  refine h.mono fun _ op hop => ?_
  cases op with
  | podman op =>
    cases op with
    | createContainer spec => exact hop.elim
    | _ => trivial
  | registry op => trivial
  | host op => trivial

theorem markRunning_makes (inst : InstanceId) : (markRunning inst).run.Calls (Makes P) := by
  refine Task.calls_bind (makes_of_plain (instanceRow_plain _ _)) fun row => ?_
  cases row with
  | some row => exact Task.calls_ask trivial
  | none => exact Task.calls_pure _

theorem pollReady_makes (inst : InstanceId) (timeout : Duration) (rounds : Nat) (last : String) :
    (pollReady inst timeout rounds last).run.Calls (Makes P) := by
  induction rounds generalizing last with
  | zero => exact makes_of_plain (notReady_plain _ _ _)
  | succ rounds ih =>
    have hagain : ∀ last : String, (do
        let probe ← podman (.probe inst.containerName)
        if probe.any fun p => !p.running then notReady inst timeout last
        else pollReady inst timeout rounds last : CtlTask Unit).run.Calls (Makes P) := by
      intro last
      refine Task.calls_bind (Task.calls_ask trivial) fun probe => ?_
      split
      · exact makes_of_plain (notReady_plain _ _ _)
      · exact ih _
    refine Task.calls_bind (Task.calls_perform trivial) fun time => ?_
    split
    · exact makes_of_plain (notReady_plain _ _ _)
    refine Task.calls_bind (Task.calls_attempt (Task.calls_ask trivial)) fun r => ?_
    cases r with
    | error e => exact hagain _
    | ok out =>
      simp only
      split
      · exact markRunning_makes _
      · exact hagain _

/-! ## Jobs -/

theorem removeStale_makes (name : String) : (removeStale name).run.Calls (Makes P) := by
  refine Task.calls_bind (Task.calls_ask trivial) fun probe => ?_
  cases probe with
  | none => exact Task.calls_pure _
  | some p =>
    refine Task.calls_bind (ignore_calls (Task.calls_ask trivial)) fun _ => ?_
    exact ignore_calls (Task.calls_ask trivial)

/-- A job makes the container of its spec. -/
theorem upgradeJob_makes {α : Type} {host : Host} {read : Report → Option α} {m : ClusterManifest}
    {inst : InstanceId} {job : String} {argv : List String} {specEnv : Option String}
    {wait : Duration} (h : ∀ agent, P (upgradeJobSpec m inst agent job argv specEnv)) :
    (upgradeJob host read m inst job argv specEnv wait).run.Calls (Makes P) := by
  refine Task.calls_bind (makes_of_plain (agentBinary_plain _)) fun agent => ?_
  refine Task.calls_bind (removeStale_makes _) fun _ => ?_
  refine Task.calls_bind (Task.calls_ask (h agent)) fun id => ?_
  refine Task.calls_bind (Task.calls_ask trivial) fun _ => ?_
  refine Task.calls_bind (makes_of_plain (waitForJob_plain _ _ _ _)) fun code => ?_
  refine Task.calls_bind (makes_of_plain (logsOrWhyNot_plain _)) fun logs => ?_
  refine Task.calls_bind (ignore_calls (Task.calls_ask trivial)) fun _ => ?_
  split
  · exact Task.calls_throw _
  · exact Task.calls_ofExcept _

theorem runPgbackrest_makes {host : Host} {m : ClusterManifest} {cluster : ClusterId}
    {name : String} {args : List String} {wait : Duration}
    (h : ∀ row spec, pgbackrestContainerSpec host m cluster name args row = .ok spec → P spec) :
    (runPgbackrest host m cluster name args wait).run.Calls (Makes P) := by
  refine Task.calls_bind (makes_of_plain (instanceRow_plain _ _)) fun row => ?_
  cases row with
  | none => exact Task.calls_throw _
  | some row =>
    simp only
    refine Task.calls_ofExcept_bind fun spec hspec => ?_
    refine Task.calls_bind (Task.calls_ask (h row spec hspec)) fun id => ?_
    refine Task.calls_bind (Task.calls_ask trivial) fun _ => ?_
    refine Task.calls_bind (makes_of_plain (waitForJob_plain _ _ _ _)) fun code => ?_
    refine Task.calls_bind (makes_of_plain (logsOrWhyNot_plain _)) fun logs => ?_
    refine Task.calls_bind (ignore_calls (Task.calls_ask trivial)) fun _ => ?_
    split <;> exact Task.calls_pure _

theorem stanzaInfo_makes {I : Installation} {cluster : ClusterId}
    (h : ∀ m name args row spec,
      pgbackrestContainerSpec I.toHost m cluster name args row = .ok spec → P spec) :
    (stanzaInfo I cluster).run.Calls (Makes P) := by
  refine Task.calls_bind (makes_of_plain (requireCluster_plain _)) fun record => ?_
  split
  · exact Task.calls_pure _
  refine Task.calls_bind (Task.calls_perform trivial) fun stamp => ?_
  refine Task.calls_bind (runPgbackrest_makes fun row spec => h _ _ _ row spec) fun out => ?_
  refine Task.calls_bind (Task.calls_ofExcept _) fun logs => ?_
  refine Task.calls_bind (Task.calls_ofExcept _) fun json => ?_
  exact Task.calls_bind (Task.calls_ofExcept _) fun _ => Task.calls_pure _

/-! ## Instances -/

section Apply

variable {host : Host} {m : ClusterManifest}
  (hspec : ∀ inst ctx port spec, containerSpec host m inst ctx port = .ok spec → P spec)

include hspec

theorem recreateHeld_makes (inst : InstanceId) (ctx : ApplyContext) (port : UInt16) :
    (recreateHeld host m inst ctx port).run.Calls (Makes P) := by
  refine Task.calls_bind (Task.calls_ask trivial) fun _ => ?_
  refine Task.calls_bind (ignore_calls (Task.calls_ask trivial)) fun _ => ?_
  refine Task.calls_bind (Task.calls_ask trivial) fun _ => ?_
  refine Task.calls_bind (Task.calls_ask trivial) fun _ => ?_
  refine Task.calls_ofExcept_bind fun spec h => ?_
  refine Task.calls_bind (Task.calls_ask (hspec _ _ _ _ h)) fun id => ?_
  refine Task.calls_bind (Task.calls_ask trivial) fun _ => ?_
  exact Task.calls_bind (pollReady_makes _ _ _ _) fun _ => Task.calls_pure _

theorem recreateInstance_makes (inst : InstanceId) (ctx : ApplyContext) (port : UInt16) :
    (recreateInstance host m inst ctx port).run.Calls (Makes P) := by
  refine Task.calls_bind (Task.calls_perform trivial) fun started => ?_
  refine Task.calls_bind (makes_of_plain (acquire_plain _)) fun held => ?_
  refine Task.calls_bind (Task.calls_when (Task.calls_ask trivial)) fun _ => ?_
  refine Task.calls_bind (Task.calls_attempt (recreateHeld_makes hspec _ _ _)) fun r => ?_
  cases r with
  | ok id =>
    refine Task.calls_bind (makes_of_plain (releaseAfterRecreate_plain _ _)) fun _ => ?_
    refine Task.calls_bind (Task.calls_perform trivial) fun elapsed => ?_
    exact Task.calls_bind (Task.calls_ask trivial) fun _ => Task.calls_pure _
  | error e =>
    refine Task.calls_bind (makes_of_plain (release_plain _ _)) fun _ => ?_
    exact Task.calls_bind (Task.calls_ask trivial) fun _ => Task.calls_throw _

theorem createAndStart_makes {inst : InstanceId} {ctx : ApplyContext} {port : UInt16}
    {spec : ContainerSpec} (h : containerSpec host m inst ctx port = .ok spec) :
    (createAndStart spec).run.Calls (Makes P) := by
  refine Task.calls_bind (Task.calls_ask (hspec _ _ _ _ h)) fun id => ?_
  exact Task.calls_bind (Task.calls_ask trivial) fun _ => Task.calls_pure _

theorem convergeContainer_makes (inst : InstanceId) (ctx : ApplyContext) (port : UInt16) :
    (convergeContainer host m inst ctx port).run.Calls (Makes P) := by
  refine Task.calls_bind (Task.calls_ask trivial) fun probe => ?_
  cases probe with
  | none =>
    refine Task.calls_ofExcept_bind fun spec h => ?_
    refine Task.calls_bind (Task.calls_ask trivial) fun _ => ?_
    exact createAndStart_makes hspec h
  | some p =>
    simp only
    split
    · exact Task.calls_pure _
    · split
      · refine Task.calls_bind (Task.calls_ask trivial) fun _ => ?_
        exact recreateInstance_makes hspec _ _ _
      · exact Task.calls_throw _
    · exact Task.calls_bind (Task.calls_ask trivial) fun _ => Task.calls_pure _
    · refine Task.calls_bind (Task.calls_ask trivial) fun _ => ?_
      refine Task.calls_ofExcept_bind fun spec h => ?_
      refine Task.calls_bind (Task.calls_ask trivial) fun _ => ?_
      refine Task.calls_bind (Task.calls_ask trivial) fun _ => ?_
      exact createAndStart_makes hspec h

theorem applyInstance_makes (inst : InstanceId) (ctx : ApplyContext) :
    (applyInstance host m inst ctx).run.Calls (Makes P) := by
  have hafter : ∀ port : UInt16, (do
      let volume ← podman (.createVolume inst.volumeName)
      registry (.putInstance (instanceRecordOf inst volume port none .creating))
      let id ← convergeContainer host m inst ctx port
      registry (.putInstance (instanceRecordOf inst volume port (some id) .bootstrapping))
      pure
        { inst := inst.toText
          container := inst.containerName
          volume
          hostPort := port
          connectionUri := connectionUri port m } : CtlTask InstanceSummary).run.Calls
        (Makes P) := by
    intro port
    refine Task.calls_bind (Task.calls_ask trivial) fun volume => ?_
    refine Task.calls_bind (Task.calls_ask trivial) fun _ => ?_
    refine Task.calls_bind (convergeContainer_makes hspec _ _ _) fun id => ?_
    exact Task.calls_bind (Task.calls_ask trivial) fun _ => Task.calls_pure _
  refine Task.calls_bind (makes_of_plain (instanceRow_plain _ _)) fun existing => ?_
  cases existing with
  | some row => exact hafter row.hostPort
  | none => exact Task.calls_bind (Task.calls_ask trivial) hafter

theorem applyEach_makes (cluster : ClusterId) (ctx : ApplyContext) (ordinals : List UInt32) :
    (applyEach host m cluster ctx ordinals).run.Calls (Makes P) := by
  induction ordinals with
  | nil => exact Task.calls_pure _
  | cons ordinal rest ih =>
    refine Task.calls_bind (applyInstance_makes hspec _ _) fun summary => ?_
    exact Task.calls_bind ih fun _ => Task.calls_pure _

omit hspec in
theorem settleInstances_makes (cluster : ClusterId) (options : ApplyOptions)
    (rotate : List (String × String)) :
    (settleInstances cluster m options rotate).run.Calls (Makes P) := by
  have hwait : ∀ ordinals, (waitEach cluster options.wait ordinals).run.Calls (Makes P) := by
    intro ordinals
    induction ordinals with
    | nil => exact Task.calls_pure _
    | cons ordinal rest ih => exact Task.calls_bind (pollReady_makes _ _ _ _) fun _ => ih
  unfold settleInstances
  split
  · exact Task.calls_bind (hwait _) fun _ => makes_of_plain (rotateRestoredRoles_plain _ _)
  · exact Task.calls_when (Task.calls_ask trivial)

theorem applyRecorded_makes (cluster : ClusterId) (bootstrap : Bootstrap) (options : ApplyOptions)
    (agent : String) (desiredImageId : Option String) :
    (applyRecorded host m cluster bootstrap options agent desiredImageId).run.Calls (Makes P) := by
  refine Task.calls_bind (Task.calls_ask trivial) fun networkCidr => ?_
  have hafter : (do
      let ensured ← ensureSecrets cluster m bootstrap
      let summaries ← applyEach host m cluster
        { bootstrap, networkCidr, secrets := ensured.names, agent, recreate := options.recreate
          desiredImageId } (ordinals m.spec.instances)
      settleInstances cluster m options ensured.rotate
      pure summaries : CtlTask (List InstanceSummary)).run.Calls (Makes P) := by
    refine Task.calls_bind (makes_of_plain (ensureSecrets_plain _ _ _)) fun ensured => ?_
    refine Task.calls_bind (applyEach_makes hspec _ _ _) fun summaries => ?_
    exact Task.calls_bind (settleInstances_makes _ _ _) fun _ => Task.calls_pure _
  split
  · exact Task.calls_bind (Task.calls_ask trivial) fun _ => hafter
  · exact hafter

theorem applyAndRecord_makes (cluster : ClusterId) (bootstrap : Bootstrap)
    (options : ApplyOptions) (existed : Bool) (agent : String) (desiredImageId : Option String) :
    (applyAndRecord host m cluster bootstrap options existed agent desiredImageId).run.Calls
      (Makes P) := by
  refine Task.calls_bind (Task.calls_ask trivial) fun generation => ?_
  refine Task.calls_bind (Task.calls_ask trivial) fun _ => ?_
  refine Task.calls_bind (Task.calls_attempt (applyRecorded_makes hspec _ _ _ _ _)) fun r => ?_
  cases r with
  | error e =>
    refine Task.calls_bind ?_ fun _ => Task.calls_throw _
    refine Task.calls_bind (ignore_calls (Task.calls_ask trivial)) fun _ => ?_
    exact ignore_calls (Task.calls_ask trivial)
  | ok summaries =>
    refine Task.calls_bind (Task.calls_ask trivial) fun _ => ?_
    exact Task.calls_bind (Task.calls_ask trivial) fun _ => Task.calls_pure _

omit hspec in
theorem refuseIncompatibleImage_makes
    (hjob : ∀ inst agent job argv, P (upgradeJobSpec m inst agent job argv none))
    (cluster : ClusterId) (desiredImageId : Option String) :
    (refuseIncompatibleImage host cluster m desiredImageId).run.Calls (Makes P) := by
  refine Task.calls_bind (Task.calls_ask trivial) fun there => ?_
  split
  · exact Task.calls_pure _
  refine Task.calls_bind (Task.calls_ask trivial) fun probe => ?_
  split
  · exact Task.calls_pure _
  refine Task.calls_bind (upgradeJob_makes fun agent => hjob _ agent _ _) fun report => ?_
  exact Task.calls_ofExcept _

/-- Every container an apply makes is an instance's, or the job's that looks into its volume. -/
theorem applyWithBootstrap_makes
    (hjob : ∀ inst agent job argv, P (upgradeJobSpec m inst agent job argv none))
    (bootstrap : Bootstrap) (options : ApplyOptions) :
    (applyWithBootstrap host m bootstrap options).run.Calls (Makes P) := by
  refine Task.calls_bind (Task.calls_ofExcept _) fun cluster => ?_
  refine Task.calls_bind ?_ fun checked => applyAndRecord_makes hspec _ _ _ _ _ _
  refine Task.calls_bind (Task.calls_ofExcept _) fun _ => ?_
  refine Task.calls_bind (makes_of_plain (agentBinary_plain _)) fun agent => ?_
  refine Task.calls_bind (Task.calls_ask trivial) fun existing => ?_
  refine Task.calls_bind (Task.calls_ask trivial) fun _ => ?_
  refine Task.calls_bind (Task.calls_ask trivial) fun desiredImageId => ?_
  exact Task.calls_bind (refuseIncompatibleImage_makes hjob _ _) fun _ => Task.calls_pure _

end Apply

end Calls

end Control

end Pgpod
