import Pgpod.Control.Apply

/-!
# What leaves rows, containers, images and networks alone

Most of what the operations of the control plane are made of asks, waits, or
works inside a container that is there.
-/

namespace Pgpod

open Effect

namespace Control

/-- The operation writes no row but an event's, makes, starts, stops and removes no container, and
changes neither an image's name nor a network. -/
def Plain : ∀ ⦃β : Type⦄, CtlOp β → Prop
  | _, .registry (.putCluster ..) | _, .registry (.setClusterPhase ..)
  | _, .registry (.deleteCluster _) | _, .registry (.putInstance _)
  | _, .registry (.putPooler ..) | _, .registry (.deletePooler _) => False
  | _, .podman (.pullImageIfAbsent _) | _, .podman (.ensureNetwork _)
  | _, .podman (.removeNetwork _) | _, .podman (.createContainer _)
  | _, .podman (.remove _) | _, .podman (.start _) | _, .podman (.stop ..) => False
  | _, _ => True

theorem logsOrWhyNot_plain (ref : String) : (logsOrWhyNot ref).run.Calls Plain := by
  refine Task.calls_bind (Task.calls_attempt (Task.calls_ask trivial)) fun r => ?_
  cases r <;> exact Task.calls_pure _

theorem ignore_calls {α : Type} {P : ∀ ⦃β : Type⦄, CtlOp β → Prop} {t : CtlTask α}
    (h : t.run.Calls P) : (ignore t).run.Calls P :=
  Task.calls_bind (Task.calls_attempt h) fun _ => Task.calls_pure _

theorem notReady_plain {α : Type} (inst : InstanceId) (timeout : Duration) (last : String) :
    (notReady inst timeout last : CtlTask α).run.Calls Plain :=
  Task.calls_bind (logsOrWhyNot_plain _) fun _ => Task.calls_throw _

theorem instanceRow_plain (cluster : ClusterId) (ordinal : UInt32) :
    (instanceRow cluster ordinal).run.Calls Plain :=
  Task.calls_bind (Task.calls_ask trivial) fun _ => Task.calls_pure _

theorem requireCluster_plain (cluster : ClusterId) :
    (requireCluster cluster).run.Calls Plain := by
  refine Task.calls_bind (Task.calls_ask trivial) fun found => ?_
  cases found with
  | some record => exact Task.calls_pure _
  | none => exact Task.calls_throw _

theorem pollWritable_plain (inst : InstanceId) (timeout : Duration) (rounds : Nat)
    (last : String) : (pollWritable inst timeout rounds last).run.Calls Plain := by
  induction rounds generalizing last with
  | zero => exact Task.calls_throw _
  | succ rounds ih =>
    have hagain : ∀ last : String, (do
        let probe ← podman (.probe inst.containerName)
        if probe.any fun p => !p.running then neverWritable inst timeout last
        else pollWritable inst timeout rounds last : CtlTask Unit).run.Calls Plain := by
      intro last
      refine Task.calls_bind (Task.calls_ask trivial) fun probe => ?_
      split
      · exact Task.calls_throw _
      · exact ih _
    refine Task.calls_bind (Task.calls_perform trivial) fun time => ?_
    split
    · exact Task.calls_throw _
    refine Task.calls_bind (Task.calls_attempt (Task.calls_ask trivial)) fun r => ?_
    cases r with
    | error e => exact hagain _
    | ok out =>
      simp only
      split
      · exact Task.calls_pure _
      · split
        · exact hagain _
        · exact hagain _

theorem poolerControl_plain (pooler : PoolerId) (verb : String) (args : List String) :
    (poolerControl pooler verb args).run.Calls Plain := by
  refine Task.calls_bind (Task.calls_ask trivial) fun out => ?_
  split
  · exact Task.calls_pure _
  · exact Task.calls_throw _

theorem poolerResume_plain (pooler : PoolerId) (cluster : ClusterId) :
    (poolerResume pooler cluster).run.Calls Plain :=
  Task.calls_bind (poolerControl_plain _ _ _) fun _ => Task.calls_pure _

theorem release_plain (cluster : ClusterId) (held : List PoolerId) :
    (PoolerHold.release cluster held).run.Calls Plain := by
  induction held with
  | nil => exact Task.calls_pure _
  | cons id rest ih => exact Task.calls_bind (ignore_calls (poolerResume_plain _ _)) fun _ => ih

theorem pauseEach_plain (cluster : ClusterId) (records : List PoolerRecord)
    (held : List PoolerId) : (PoolerHold.pauseEach cluster records held).run.Calls Plain := by
  induction records generalizing held with
  | nil => exact Task.calls_pure _
  | cons record rest ih =>
    refine Task.calls_bind (Task.calls_ofExcept _) fun id => ?_
    refine Task.calls_bind (Task.calls_attempt
      (Task.calls_bind (poolerControl_plain _ _ _) fun _ => Task.calls_pure _)) fun r => ?_
    cases r with
    | ok _ => exact ih _
    | error e => exact Task.calls_bind (release_plain _ _) fun _ => Task.calls_throw _

theorem acquire_plain (cluster : ClusterId) : (PoolerHold.acquire cluster).run.Calls Plain := by
  refine Task.calls_bind (Task.calls_ask trivial) fun poolers => ?_
  refine Task.calls_bind (pauseEach_plain _ _ _) fun held => ?_
  exact Task.calls_bind (Task.calls_ask trivial) fun _ => Task.calls_pure _

theorem releaseAfterRecreate_plain (cluster : ClusterId) (held : List PoolerId) :
    (PoolerHold.releaseAfterRecreate cluster held).run.Calls Plain := by
  induction held with
  | nil => exact Task.calls_pure _
  | cons id rest ih =>
    refine Task.calls_bind (poolerControl_plain _ _ _) fun _ => ?_
    exact Task.calls_bind (poolerResume_plain _ _) fun _ => ih

theorem runningContainer_plain (inst : InstanceId) :
    (runningContainer inst).run.Calls Plain := by
  refine Task.calls_bind (Task.calls_ask trivial) fun probe => ?_
  cases probe with
  | none => exact Task.calls_throw _
  | some p =>
    simp only
    split
    · exact Task.calls_pure _
    · exact Task.calls_throw _

/-! ## Secrets and roles -/

theorem ensureSecret_plain (restoring : Bool) (name source : String) :
    (ensureSecret restoring name source).run.Calls Plain := by
  have hgenerated : (do
      let generated ← Task.perform (.host .generatePassword)
      podman (.putSecret name generated)
      pure restoring : CtlTask Bool).run.Calls Plain := by
    refine Task.calls_bind (Task.calls_perform trivial) fun generated => ?_
    exact Task.calls_bind (Task.calls_ask trivial) fun _ => Task.calls_pure _
  refine Task.calls_bind (Task.calls_ask trivial) fun there => ?_
  split
  · exact Task.calls_pure _
  split
  · refine Task.calls_bind (Task.calls_ask trivial) fun adopted => ?_
    cases adopted with
    | some value => exact Task.calls_bind (Task.calls_ask trivial) fun _ => Task.calls_pure _
    | none => exact hgenerated
  · exact hgenerated

theorem ensureEach_plain (cluster : ClusterId) (restoring wantsApp : Bool) (appOwner : String)
    (pairs : List (String × String)) :
    (ensureEach cluster restoring wantsApp appOwner pairs).run.Calls Plain := by
  induction pairs with
  | nil => exact Task.calls_pure _
  | cons pair rest ih =>
    obtain ⟨name, source⟩ := pair
    unfold ensureEach
    split
    · exact ih
    refine Task.calls_bind (ensureSecret_plain _ _ _) fun _ => ?_
    exact Task.calls_bind ih fun _ => Task.calls_pure _

theorem ensureSecrets_plain (cluster : ClusterId) (m : ClusterManifest) (bootstrap : Bootstrap) :
    (ensureSecrets cluster m bootstrap).run.Calls Plain := by
  refine Task.calls_bind (Task.calls_ofExcept _) fun source => ?_
  refine Task.calls_bind (ensureEach_plain _ _ _ _ _) fun unavailable => ?_
  split
  · exact Task.calls_pure _
  · exact Task.calls_bind (Task.calls_ask trivial) fun _ => Task.calls_pure _

theorem rotateRole_plain (cluster : ClusterId) (container : String) (names : SecretNames)
    (role which : String) : (rotateRole cluster container names role which).run.Calls Plain := by
  refine Task.calls_bind (Task.calls_ask trivial) fun value => ?_
  cases value with
  | none => exact Task.calls_throw _
  | some password =>
    refine Task.calls_bind (Task.calls_ofExcept _) fun sql => ?_
    refine Task.calls_bind (Task.calls_ask trivial) fun out => ?_
    split
    · exact Task.calls_throw _
    · exact Task.calls_ask trivial

theorem rotateEach_plain (cluster : ClusterId) (container : String) (names : SecretNames)
    (roles : List (String × String)) :
    (rotateEach cluster container names roles).run.Calls Plain := by
  induction roles with
  | nil => exact Task.calls_pure _
  | cons role rest ih => exact Task.calls_bind (rotateRole_plain _ _ _ _ _) fun _ => ih

theorem rotateRestoredRoles_plain (cluster : ClusterId) (rotate : List (String × String)) :
    (rotateRestoredRoles cluster rotate).run.Calls Plain := by
  unfold rotateRestoredRoles
  split
  · exact Task.calls_pure _
  refine Task.calls_bind (runningContainer_plain _) fun container => ?_
  refine Task.calls_bind (pollWritable_plain _ _ _ _) fun _ => ?_
  exact rotateEach_plain _ _ _ _

/-! ## Jobs -/

theorem agentBinary_plain (host : Host) : (agentBinary host).run.Calls Plain := by
  refine Task.calls_bind (Task.calls_perform trivial) fun there => ?_
  split
  · exact Task.calls_pure _
  · exact Task.calls_throw _

theorem waitForJob_plain (inst : InstanceId) (ref : String) (wait : Duration) (what : String) :
    (waitForJob inst ref wait what).run.Calls Plain := by
  refine Task.calls_bind (Task.calls_ask trivial) fun code => ?_
  cases code with
  | some code => exact Task.calls_pure _
  | none => exact Task.calls_throw _

end Control

end Pgpod
