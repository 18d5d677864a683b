import Pgpod.Control.Refusal

/-!
# Recreating an instance whose replacement cannot be built

`refuseIfDiverged` fails on a container that diverges and on a spec that does not
validate alike, and an apply that may recreate takes either for divergence.  It then
removes the container before it builds the one that is to replace it.
-/

namespace Pgpod

open Effect

namespace Control

/-! ## What can be built -/

/-- An apply that may recreate, before it has looked at the host. -/
def recreating (m : ClusterManifest) (inst : InstanceId) : ApplyContext where
  bootstrap := .initdb m.spec.bootstrap.initdb
  networkCidr := none
  secrets := .forCluster inst.cluster
  agent := ""
  recreate := true
  desiredImageId := none

/-- The instance spec validates, and pgBackRest is installed where the manifest archives. -/
structure Buildable (host : Host) (m : ClusterManifest) (inst : InstanceId) : Prop where
  valid : (buildInstanceSpec m inst (recreating m inst)).validate host.crates = .ok ()
  bundle : (sanitizedBackup m).isEnabled = true → host.bundleInstalled = true

/-- No replacement can be built, and this is why. -/
def NotBuilt (host : Host) (m : ClusterManifest) (inst : InstanceId) (e : Error) : Prop :=
  ∃ ctx port, ctx.bootstrap = .initdb m.spec.bootstrap.initdb ∧ ctx.recreate = true ∧
    containerSpec host m inst ctx port = .error e

/-- An apply that may recreate, and fails because no replacement can be built, leaves the
container as it stands. -/
def SparesUnbuilt (A : Agent.Code) (host : Host) (m : AcceptedManifest) (c : Container) : Prop :=
  ∀ wait w e u, Stands (m.cluster.inst 1).containerName c w →
    (stillHost A (m.cluster.inst 1).containerName).Reach
      (applyWith host m.manifest ⟨wait, true⟩).run w (.ret (.error e)) u →
    NotBuilt host m.manifest (m.cluster.inst 1) e → u.find (m.cluster.inst 1).containerName = some c

section Buildable

variable {host : Host} {m : ClusterManifest} {inst : InstanceId} {ctx : ApplyContext}
  {port : UInt16}

theorem validate_recreating (h : ctx.bootstrap = .initdb m.spec.bootstrap.initdb)
    (crates : Crates) :
    (buildInstanceSpec m inst ctx).validate crates =
      (buildInstanceSpec m inst (recreating m inst)).validate crates := by
  cases ctx
  cases h
  rfl

/-- What the host and the manifest decide of a replacement, the rest of the apply does not. -/
theorem containerSpec_built_iff (h : ctx.bootstrap = .initdb m.spec.bootstrap.initdb) :
    (∃ spec, containerSpec host m inst ctx port = .ok spec) ↔ Buildable host m inst := by
  constructor
  · rintro ⟨spec, hspec⟩
    obtain ⟨s, hs, hbundle, -⟩ := containerSpec_eq_ok.1 hspec
    obtain ⟨rfl, hvalid⟩ := instanceSpec_eq_ok.1 hs
    refine ⟨(validate_recreating h _).symm.trans hvalid, fun henabled => hbundle ?_⟩
    exact Bool.or_eq_true_iff.2 (.inl henabled)
  · rintro ⟨hvalid, hbundle⟩
    have hs : instanceSpec host m inst ctx = .ok (buildInstanceSpec m inst ctx) :=
      instanceSpec_eq_ok.2 ⟨rfl, (validate_recreating h _).trans hvalid⟩
    refine ⟨_, containerSpec_eq_ok.2 ⟨_, hs, fun hneeds => hbundle ?_, rfl⟩⟩
    have hrecovery : (buildInstanceSpec m inst ctx).recovery = none := by
      simp [InstanceSpec.recovery, buildInstanceSpec, h]
    rw [NeedsBundle, hrecovery] at hneeds
    simpa [buildInstanceSpec] using hneeds

/-- Some network makes any container one that diverges. -/
theorem exists_diverging (host : Host) (m : ClusterManifest) (inst : InstanceId)
    (probe : ContainerProbe) : ∃ cidr, ∀ ctx : ApplyContext, ctx.networkCidr = cidr →
      ∃ e, refuseIfDiverged host m inst ctx probe = .error e := by
  have herror : ∀ {r : Except Error Unit}, r ≠ .ok () → ∃ e, r = .error e := by
    intro r hr
    cases r with
    | ok _ => exact absurd rfl hr
    | error e => exact ⟨e, rfl⟩
  cases hraw : probe.envVar SPEC_ENV with
  | none => exact ⟨none, fun ctx _ => ⟨_, by rw [refuseIfDiverged, hraw]⟩⟩
  | some raw =>
    cases hjson : host.crates.instanceSpecFromJson raw with
    | error e =>
      refine ⟨none, fun ctx _ => herror fun hok => ?_⟩
      simp only [refuseIfDiverged, hraw, hjson, bind, Except.bind, Except.mapError] at hok
      split at hok <;> cases hok
    | ok running =>
      obtain ⟨cidr, hne⟩ : ∃ cidr, cidr ≠ running.networkCidr := by
        cases running.networkCidr with
        | none => exact ⟨some "", by simp⟩
        | some _ => exact ⟨none, by simp⟩
      refine ⟨cidr, fun ctx hctx => herror fun hok => ?_⟩
      obtain ⟨hs, -⟩ := (refuseIfDiverged_eq_ok hraw hjson).1 hok
      rw [(instanceSpec_eq_ok.1 hs).1] at hne
      exact hne hctx.symm

end Buildable

/-! ## A host on which nothing else is in the way -/

/-- Everything an apply asks for is there, and the container runs. -/
structure Furnished (k : ClusterId) (c : Container) (cidr : Option String) (w : World) : Prop where
  containers : w.containers = [c]
  images : ∀ n, w.images n = some c.image
  volumes : ∀ n, (w.volumes n).isSome = true
  secrets : ∀ n, (w.secrets n).isSome = true
  networks : ∀ n, w.networks n = some cidr
  agent : w.agentExists = true
  poolers : w.registry.poolers = []
  recorded : ∃ r, w.registry.clusters = [r] ∧ r.name = k.name

section Run

variable {A : Agent.Code} {name : String} {α β : Type} {w v u : World} {e : Error}

theorem ok_bind {t : CtlTask α} {f : α → CtlTask β} {a : α} {q : Prog CtlOp (Except Error β)}
    (h : (stillHost A name).Reach t.run w (.ret (.ok a)) v)
    (hf : (stillHost A name).Reach (f a).run v q u) :
    (stillHost A name).Reach (t >>= f).run w q u :=
  h.bind_ret hf

theorem error_bind {t : CtlTask α} {f : α → CtlTask β}
    (h : (stillHost A name).Reach t.run w (.ret (.error e)) v) :
    (stillHost A name).Reach (t >>= f).run w (.ret (.error e)) v :=
  h.bind_ret .refl

theorem attempted_bind {t : CtlTask α} {f : Except Error α → CtlTask β} {r : Except Error α}
    {q : Prog CtlOp (Except Error β)} (h : (stillHost A name).Reach t.run w (.ret r) v)
    (hf : (stillHost A name).Reach (f r).run v q u) :
    (stillHost A name).Reach (Task.attempt t >>= f).run w q u := by
  rw [Task.run_attempt_bind]
  exact h.bind_ret hf

/-- The operation is carried out, and nothing fails. -/
theorem answered {op : CtlOp (Except Error α)} {r : Except Error α}
    (h : op.perform A {} w = (r, u)) : (stillHost A name).Reach (Task.ask op).run w (.ret r) u :=
  .head ⟨⟨{}, h⟩, trivial⟩ .refl

theorem performed {op : CtlOp α} {a : α} (h : op.perform A {} w = (a, u)) :
    (stillHost A name).Reach (Task.perform op : CtlTask α).run w (.ret (.ok a)) u :=
  .head ⟨⟨{}, h⟩, trivial⟩ .refl

theorem ignored {t : CtlTask α} {r : Except Error α}
    (h : (stillHost A name).Reach t.run w (.ret r) v) :
    (stillHost A name).Reach (ignore t).run w (.ret (.ok ())) v :=
  attempted_bind h .refl

variable {k : ClusterId} {c : Container} {cidr : Option String}

namespace Furnished

theorem withRegistry (h : Furnished k c cidr w) {R : Registry} (hpoolers : R.poolers = [])
    (hrecorded : ∃ r, R.clusters = [r] ∧ r.name = k.name) :
    Furnished k c cidr { w with registry := R } :=
  ⟨h.containers, h.images, h.volumes, h.secrets, h.networks, h.agent, hpoolers, hrecorded⟩

variable (A name) in
theorem event (h : Furnished k c cidr w) (ordinal : Option UInt32) (level message : String) :
    ∃ v, (stillHost A name).Reach (recordEvent k ordinal level message).run w (.ret (.ok ())) v ∧
      Furnished k c cidr v :=
  ⟨_, answered rfl, h.withRegistry h.poolers h.recorded⟩

theorem probe (h : Furnished k c cidr w) (hname : c.name = some name) :
    (stillHost A name).Reach (podman (.probe name)).run w (.ret (.ok (some c.probe))) w := by
  have hfind : w.find name = some c := by
    simp [World.find, h.containers, Container.answersTo, hname]
  exact answered (by simp [CtlOp.perform, PodmanOp.perform, podmanCall, hfind])

theorem secretsThere (h : Furnished k c cidr w) (wantsApp : Bool) (appOwner : String)
    (pairs : List (String × String)) :
    (stillHost A name).Reach (ensureEach k false wantsApp appOwner pairs).run w (.ret (.ok []))
      w := by
  induction pairs with
  | nil => exact .refl
  | cons pair rest ih =>
    obtain ⟨secret, source⟩ := pair
    unfold ensureEach
    split
    · exact ih
    have hthere : (stillHost A name).Reach (podman (.secretExists secret)).run w
        (.ret (.ok true)) w :=
      answered (by simp [CtlOp.perform, PodmanOp.perform, podmanCall, h.secrets])
    have hensured : (stillHost A name).Reach (ensureSecret false secret source).run w
        (.ret (.ok false)) w := by
      unfold ensureSecret
      exact ok_bind hthere .refl
    exact ok_bind hensured (ok_bind ih .refl)

theorem ensured (h : Furnished k c cidr w) (m : ClusterManifest) (init : InitdbBootstrap) :
    (stillHost A name).Reach (ensureSecrets k m (.initdb init)).run w
      (.ret (.ok ⟨.forCluster k, []⟩)) w := by
  unfold ensureSecrets
  refine ok_bind (t := Task.ofExcept (recoverySource (.initdb init))) .refl ?_
  exact ok_bind (h.secretsThere _ _ _) .refl

/-- The image is the one the container runs: the data on disk is not asked about. -/
theorem checks (h : Furnished k c cidr w) (hname : c.name = some (k.inst 1).containerName)
    (hrun : c.status.isRunning = true) (host : Host) {m : ClusterManifest}
    (hparams : validateParameters m = .ok ()) : ∃ existed,
      (stillHost A (k.inst 1).containerName).Reach (applyChecks host m k).run w
        (.ret (.ok (existed, host.agentBinary, some c.image.id))) w := by
  have hagent : (stillHost A (k.inst 1).containerName).Reach (agentBinary host).run w
      (.ret (.ok host.agentBinary)) w := by
    unfold agentBinary
    refine ok_bind (performed (a := true) ?_) .refl
    simp [CtlOp.perform, HostOp.perform, h.agent]
  have hcompatible : (stillHost A (k.inst 1).containerName).Reach
      (refuseIncompatibleImage host k m (some c.image.id)).run w (.ret (.ok ())) w := by
    unfold refuseIncompatibleImage
    refine ok_bind (a := true) (answered (u := w) ?_) ?_
    · simp [CtlOp.perform, PodmanOp.perform, podmanCall, h.volumes]
    refine ok_bind (h.probe hname) ?_
    have hsame : alreadyRuns (some c.probe) (some c.image.id) = true := by
      simp [alreadyRuns, Container.probe, hrun]
    rw [hsame]
    exact .refl
  refine ⟨(w.registry.cluster k.name).isSome, ?_⟩
  unfold applyChecks
  rw [hparams]
  refine ok_bind (t := Task.ofExcept (.ok ())) .refl ?_
  refine ok_bind hagent ?_
  refine ok_bind (answered rfl) ?_
  refine ok_bind (answered (r := .ok ()) (u := w) ?_) ?_
  · simp [CtlOp.perform, PodmanOp.perform, h.images]
  refine ok_bind (answered (r := .ok (some c.image.id)) (u := w) ?_) ?_
  · simp [CtlOp.perform, PodmanOp.perform, podmanCall, h.images]
  exact ok_bind hcompatible .refl

end Furnished

/-! ## The removal -/

variable (A name) in
theorem eventKept (w : World) (cluster : ClusterId) (ordinal : Option UInt32)
    (level message : String) : ∃ v,
      (stillHost A name).Reach (recordEvent cluster ordinal level message).run w (.ret (.ok ())) v ∧
        v.containers = w.containers :=
  ⟨_, answered rfl, rfl⟩

namespace Furnished

variable {host : Host} {m : ClusterManifest} {ctx : ApplyContext} {port : UInt16}

theorem recreateHeld_removes (h : Furnished k c cidr w)
    (hname : c.name = some (k.inst 1).containerName)
    (hrun : c.status.isRunning = true)
    (hspec : containerSpec host m (k.inst 1) ctx port = .error e) : ∃ v,
      (stillHost A (k.inst 1).containerName).Reach
        (recreateHeld host m (k.inst 1) ctx port).run w (.ret (.error e)) v ∧
      v.containers = [] := by
  obtain ⟨w₁, hevent, h₁⟩ := h.event A (k.inst 1).containerName (some 1) "info"
    "removing the container to apply a changed spec"
  have hfind : w₁.find (k.inst 1).containerName = some c := by
    simp [World.find, h₁.containers, Container.answersTo, hname]
  have hstop : (stillHost A (k.inst 1).containerName).Reach
      (podman (.stop (k.inst 1).containerName (.fromSecs 30))).run w₁ (.ret (.ok ()))
      (w₁.halt (k.inst 1).containerName 0) :=
    answered (by simp [CtlOp.perform, PodmanOp.perform, podmanCall, hfind])
  have hhalted : (w₁.halt (k.inst 1).containerName 0).containers =
      [{ c with status := .exited 0 }] := by
    simp [World.halt, World.update, h₁.containers, Container.answersTo, hname, hrun]
  have hanswers : ({ c with status := .exited 0 } : Container).answersTo
      (k.inst 1).containerName = true := by
    simp only [Container.answersTo, Container.name] at hname ⊢
    simp [hname]
  have hremove : (stillHost A (k.inst 1).containerName).Reach
      (podman (.remove (k.inst 1).containerName)).run (w₁.halt (k.inst 1).containerName 0)
      (.ret (.ok ())) ((w₁.halt (k.inst 1).containerName 0).drop (k.inst 1).containerName) := by
    refine answered ?_
    have hthere : ((w₁.halt (k.inst 1).containerName 0).find
        (k.inst 1).containerName).isSome = true := by
      simp [World.find, hhalted, hanswers]
    simp [CtlOp.perform, PodmanOp.perform, podmanCall, hthere]
  obtain ⟨w₂, hcreating, h₂⟩ := eventKept A (k.inst 1).containerName
    ((w₁.halt (k.inst 1).containerName 0).drop (k.inst 1).containerName) k (some 1) "info"
    "creating the replacement container"
  refine ⟨w₂, ?_, ?_⟩
  · unfold recreateHeld
    refine ok_bind hevent (ok_bind (ignored hstop) (ok_bind hremove (ok_bind hcreating ?_)))
    rw [hspec]
    exact error_bind (t := Task.ofExcept (.error e)) .refl
  · rw [h₂]
    simp [World.drop, hhalted, hanswers]

variable (A name) in
/-- With no pooler in front there is no one to hold. -/
theorem acquired (h : Furnished k c cidr w) : ∃ v,
    (stillHost A name).Reach (PoolerHold.acquire k).run w (.ret (.ok [])) v ∧
      Furnished k c cidr v := by
  obtain ⟨v, hevent, hv⟩ := h.event A name none "info"
    ("held " ++ toString ([] : List PoolerId).length ++ " pooler(s)")
  refine ⟨v, ?_, hv⟩
  unfold PoolerHold.acquire
  refine ok_bind (a := []) (v := w) (answered ?_) ?_
  · simp [CtlOp.perform, RegistryOp.perform, Registry.poolersFor, h.poolers]
  exact ok_bind (t := PoolerHold.pauseEach k [] []) .refl (ok_bind hevent .refl)

theorem recreateInstance_removes (h : Furnished k c cidr w)
    (hname : c.name = some (k.inst 1).containerName) (hrun : c.status.isRunning = true)
    (hspec : containerSpec host m (k.inst 1) ctx port = .error e) : ∃ v,
      (stillHost A (k.inst 1).containerName).Reach
        (recreateInstance host m (k.inst 1) ctx port).run w (.ret (.error e)) v ∧
      v.containers = [] := by
  obtain ⟨w₁, hheld, h₁⟩ := h.acquired A (k.inst 1).containerName
  obtain ⟨w₂, hwarn, h₂⟩ := h₁.event A (k.inst 1).containerName (some 1) "warn"
    "recreating with no pooler in front — open connections will drop"
  obtain ⟨w₃, hfails, h₃⟩ := h₂.recreateHeld_removes (A := A) hname hrun hspec
  obtain ⟨w₄, hevent, h₄⟩ := eventKept A (k.inst 1).containerName w₃ k (some 1)
    "error" ("recreate failed: " ++ e.toString)
  refine ⟨w₄, ?_, h₄.trans h₃⟩
  unfold recreateInstance
  refine ok_bind (performed rfl) (ok_bind hheld (ok_bind hwarn ?_))
  refine attempted_bind hfails ?_
  exact ok_bind (t := PoolerHold.release k []) .refl (ok_bind hevent .refl)

theorem convergeContainer_removes (h : Furnished k c cidr w)
    (hname : c.name = some (k.inst 1).containerName) (hrun : c.status.isRunning = true)
    (hrec : ctx.recreate = true) {e' : Error}
    (hrefused : refuseIfDiverged host m (k.inst 1) ctx c.probe = .error e')
    (hspec : containerSpec host m (k.inst 1) ctx port = .error e) : ∃ v,
      (stillHost A (k.inst 1).containerName).Reach
        (convergeContainer host m (k.inst 1) ctx port).run w (.ret (.error e)) v ∧
      v.containers = [] := by
  obtain ⟨w₁, hevent, h₁⟩ := h.event A (k.inst 1).containerName (some 1) "info"
    ("spec diverged, recreating: " ++ e'.toString)
  obtain ⟨w₂, hfails, h₂⟩ := h₁.recreateInstance_removes (A := A) hname hrun hspec
  refine ⟨w₂, ?_, h₂⟩
  have hrunning : c.probe.running = true := hrun
  unfold convergeContainer
  refine ok_bind (h.probe hname) ?_
  simp only [hrunning, hrefused, hrec, if_true]
  exact ok_bind hevent hfails

/-- Once the instance has its port: the row says that it is being created, and has no container. -/
theorem placed_removes (h : Furnished k c cidr w)
    (hname : c.name = some (k.inst 1).containerName) (hrun : c.status.isRunning = true)
    (hrec : ctx.recreate = true) {e' : Error}
    (hrefused : refuseIfDiverged host m (k.inst 1) ctx c.probe = .error e')
    (hspec : containerSpec host m (k.inst 1) ctx port = .error e) : ∃ v,
      (stillHost A (k.inst 1).containerName).Reach (do
        let volume ← podman (.createVolume (k.inst 1).volumeName)
        registry (.putInstance (instanceRecordOf (k.inst 1) volume port none .creating))
        let id ← convergeContainer host m (k.inst 1) ctx port
        registry (.putInstance (instanceRecordOf (k.inst 1) volume port (some id) .bootstrapping))
        pure
          { inst := (k.inst 1).toText
            container := (k.inst 1).containerName
            volume
            hostPort := port
            connectionUri := connectionUri port m } : CtlTask InstanceSummary).run w
        (.ret (.error e)) v ∧ v.containers = [] := by
  have hvolume : (stillHost A (k.inst 1).containerName).Reach
      (podman (.createVolume (k.inst 1).volumeName)).run w (.ret (.ok (k.inst 1).volumeName)) w :=
    answered (by simp [CtlOp.perform, PodmanOp.perform, podmanCall, h.volumes])
  obtain ⟨r, hclusters, hr⟩ := h.recorded
  let row : InstanceRecord :=
    instanceRecordOf (k.inst 1) (k.inst 1).volumeName port none .creating
  have hput : (stillHost A (k.inst 1).containerName).Reach
      (Control.registry (.putInstance row)).run w (.ret (.ok ()))
      { w with registry := w.registry.putInstance row } := by
    have hcluster : (w.registry.cluster row.cluster).isNone = false := by
      simp [Registry.cluster, hclusters, show row.cluster = k.name from rfl, hr]
    exact answered (by simp [CtlOp.perform, RegistryOp.perform, hcluster])
  obtain ⟨v, hfails, hv⟩ := (h.withRegistry (R := w.registry.putInstance row) h.poolers
    h.recorded).convergeContainer_removes (A := A) hname hrun hrec hrefused hspec
  exact ⟨v, ok_bind hvolume (ok_bind hput (error_bind hfails)), hv⟩

theorem applyInstance_removes (h : Furnished k c cidr w)
    (hname : c.name = some (k.inst 1).containerName) (hrun : c.status.isRunning = true)
    (hrec : ctx.recreate = true) {e' : Error}
    (hrefused : refuseIfDiverged host m (k.inst 1) ctx c.probe = .error e')
    (hspec : ∀ port, ∃ e, containerSpec host m (k.inst 1) ctx port = .error e) : ∃ port e v,
      containerSpec host m (k.inst 1) ctx port = .error e ∧
      (stillHost A (k.inst 1).containerName).Reach
        (applyInstance host m (k.inst 1) ctx).run w (.ret (.error e)) v ∧
      v.containers = [] := by
  have hrow : (stillHost A (k.inst 1).containerName).Reach (instanceRow k 1).run w
      (.ret (.ok ((w.registry.instancesOf k.name).find? fun r => r.ordinal = 1))) w :=
    ok_bind (answered rfl) .refl
  cases hfind : (w.registry.instancesOf k.name).find? fun r => r.ordinal = 1 with
  | some row =>
    obtain ⟨e, he⟩ := hspec row.hostPort
    obtain ⟨v, hfails, hv⟩ := h.placed_removes (A := A) hname hrun hrec hrefused he
    rw [hfind] at hrow
    exact ⟨_, e, v, he, ok_bind hrow hfails, hv⟩
  | none =>
    obtain ⟨e, he⟩ := hspec (UInt16.ofNat 0)
    obtain ⟨v, hfails, hv⟩ := h.placed_removes (A := A) hname hrun hrec hrefused he
    rw [hfind] at hrow
    exact ⟨_, e, v, he, ok_bind hrow (ok_bind (answered rfl) hfails), hv⟩

theorem applyRecorded_removes (h : Furnished k c cidr w)
    (hname : c.name = some (k.inst 1).containerName) (hrun : c.status.isRunning = true)
    (hone : m.spec.instances = 1) (hun : ¬ Buildable host m (k.inst 1))
    (hdiverges : ∀ ctx : ApplyContext, ctx.bootstrap = .initdb m.spec.bootstrap.initdb →
      ctx.networkCidr = cidr → ∃ e, refuseIfDiverged host m (k.inst 1) ctx c.probe = .error e)
    (wait : Duration) (agent : String) (desired : Option String) : ∃ e v,
      NotBuilt host m (k.inst 1) e ∧
      (stillHost A (k.inst 1).containerName).Reach
        (applyRecorded host m k (.initdb m.spec.bootstrap.initdb) ⟨wait, true⟩ agent desired).run w
        (.ret (.error e)) v ∧
      v.containers = [] := by
  let ctx : ApplyContext :=
    { bootstrap := .initdb m.spec.bootstrap.initdb, networkCidr := cidr, secrets := .forCluster k
      agent, recreate := true, desiredImageId := desired }
  have hrec : ctx.recreate = true := rfl
  obtain ⟨e', hrefused⟩ := hdiverges ctx rfl rfl
  have hspec : ∀ port, ∃ e, containerSpec host m (k.inst 1) ctx port = .error e := by
    intro port
    cases hresult : containerSpec host m (k.inst 1) ctx port with
    | ok spec => exact absurd ((containerSpec_built_iff rfl).1 ⟨spec, hresult⟩) hun
    | error e => exact ⟨e, rfl⟩
  obtain ⟨port, e, v, he, hfails, hv⟩ :=
    h.applyInstance_removes (A := A) hname hrun hrec hrefused hspec
  refine ⟨e, v, ⟨ctx, port, rfl, rfl, he⟩, ?_, hv⟩
  have hnetwork : (stillHost A (k.inst 1).containerName).Reach
      (podman (.ensureNetwork k.networkName)).run w (.ret (.ok cidr)) w :=
    answered (by simp [CtlOp.perform, PodmanOp.perform, podmanCall, h.networks])
  have heach : (stillHost A (k.inst 1).containerName).Reach
      (applyEach host m k ctx (ordinals m.spec.instances)).run w (.ret (.error e)) v := by
    rw [hone, show ordinals 1 = [1] from rfl]
    exact error_bind hfails
  have hrest : (stillHost A (k.inst 1).containerName).Reach (do
      let ensured ← ensureSecrets k m (.initdb m.spec.bootstrap.initdb)
      let summaries ← applyEach host m k
        { bootstrap := .initdb m.spec.bootstrap.initdb, networkCidr := cidr
          secrets := ensured.names, agent, recreate := true, desiredImageId := desired }
        (ordinals m.spec.instances)
      settleInstances k m ⟨wait, true⟩ ensured.rotate
      pure summaries : CtlTask (List InstanceSummary)).run w (.ret (.error e)) v :=
    ok_bind (h.ensured m _) (error_bind heach)
  unfold applyRecorded
  refine ok_bind hnetwork ?_
  cases m.spec.backup.volume with
  | none => exact hrest
  | some volume =>
    refine ok_bind (a := volume) (answered ?_) hrest
    simp [CtlOp.perform, PodmanOp.perform, podmanCall, h.volumes]

/-- **The container is gone**, and the apply has failed for want of a replacement. -/
theorem applyWith_removes {m : AcceptedManifest} (h : Furnished m.cluster c cidr w)
    (hname : c.name = some (m.cluster.inst 1).containerName) (hrun : c.status.isRunning = true)
    (hparams : validateParameters m.manifest = .ok ())
    (hun : ¬ Buildable host m.manifest (m.cluster.inst 1))
    (hdiverges : ∀ ctx : ApplyContext, ctx.bootstrap = .initdb m.manifest.spec.bootstrap.initdb →
      ctx.networkCidr = cidr →
      ∃ e, refuseIfDiverged host m.manifest (m.cluster.inst 1) ctx c.probe = .error e)
    (wait : Duration) : ∃ e u,
      NotBuilt host m.manifest (m.cluster.inst 1) e ∧
      (stillHost A (m.cluster.inst 1).containerName).Reach
        (applyWith host m.manifest ⟨wait, true⟩).run w (.ret (.error e)) u ∧
      u.containers = [] := by
  obtain ⟨existed, hchecks⟩ := h.checks (A := A) hname hrun host hparams
  obtain ⟨r, hclusters, hr⟩ := h.recorded
  have hmeta : m.manifest.metadata.name = m.cluster.name :=
    (ClusterManifest.clusterId_eq_ok.1 m.clusterId_eq).symm
  have h₁ : Furnished m.cluster c cidr
      { w with registry := (w.registry.putCluster m.manifest .applying).2 } := by
    refine h.withRegistry ?_ ?_
    · simp [Registry.putCluster, Registry.cluster, hclusters, hr, hmeta, Registry.updateCluster,
        h.poolers]
    · simp [Registry.putCluster, Registry.cluster, hclusters, hr, hmeta, Registry.updateCluster]
  obtain ⟨w₂, hevent, h₂⟩ := h₁.event A (m.cluster.inst 1).containerName none
    "info" "apply requested"
  obtain ⟨e, v, hwhy, hfails, hv⟩ := h₂.applyRecorded_removes (A := A) hname hrun m.instances_eq
    hun hdiverges wait host.agentBinary (some c.image.id)
  obtain ⟨u, hnoted, hu⟩ := eventKept A (m.cluster.inst 1).containerName
    { v with registry := (v.registry.updateCluster m.cluster.name
        fun r => { r with phase := ClusterPhase.failed.asStr }) }
    m.cluster none "error" ("apply failed: " ++ e.toString)
  refine ⟨e, u, hwhy, ?_, hu.trans hv⟩
  unfold applyWith applyWithBootstrap
  rw [m.clusterId_eq]
  refine ok_bind (t := Task.ofExcept (.ok m.cluster)) .refl (ok_bind hchecks ?_)
  unfold applyAndRecord
  refine ok_bind (answered rfl) (ok_bind hevent (attempted_bind hfails ?_))
  exact ok_bind (ok_bind (ignored (answered rfl)) (ignored hnoted)) .refl

end Furnished

end Run

/-- A host furnished for the cluster, with this container on it. -/
def furnished (m : AcceptedManifest) (c : Container) (n : Nat) (cidr : Option String) : World where
  registry := { clusters := [⟨m.cluster.name, m.manifest, 1, ClusterPhase.running.asStr⟩] }
  containers := [c]
  images _ := some c.image
  volumes _ := some fun _ => none
  secrets _ := some ""
  networks _ := some cidr
  nextId := n + 1

theorem furnished_furnished (m : AcceptedManifest) (c : Container) (n : Nat)
    (cidr : Option String) : Furnished m.cluster c cidr (furnished m c n cidr) :=
  ⟨rfl, fun _ => rfl, fun _ => rfl, fun _ => rfl, fun _ => rfl, rfl, rfl, _, rfl, rfl⟩

theorem furnished_stands {m : AcceptedManifest} {c : Container} {n : Nat} {cidr : Option String}
    (hname : c.name = some (m.cluster.inst 1).containerName) (hid : c.id = "id-" ++ toString n) :
    Stands (m.cluster.inst 1).containerName c (furnished m c n cidr) where
  found := by simp [World.find, furnished, Container.answersTo, hname]
  named := hname
  front := ⟨_, by rw [InstanceId.containerName, String.append_assoc, String.append_assoc]⟩
  id := ⟨n, Nat.lt_succ_self n, hid⟩

/-- **No recreate spares the container of an unbuildable manifest**: whatever container runs for
the instance, an apply that fails for want of a replacement leaves it alone only where there is no
such failure, the replacement being one that can be built. -/
theorem unbuilt_spared_iff {A : Agent.Code} {host : Host} (m : AcceptedManifest)
    (hparams : validateParameters m.manifest = .ok ()) {c : Container} {n : Nat}
    (hname : c.name = some (m.cluster.inst 1).containerName) (hid : c.id = "id-" ++ toString n)
    (hrun : c.status.isRunning = true) :
    SparesUnbuilt A host m c ↔ Buildable host m.manifest (m.cluster.inst 1) := by
  constructor
  · intro hspares
    by_contra hun
    obtain ⟨cidr, hdiverges⟩ := exists_diverging host m.manifest (m.cluster.inst 1) c.probe
    obtain ⟨e, u, hwhy, hreach, hu⟩ := (furnished_furnished m c n cidr).applyWith_removes (A := A)
      hname hrun hparams hun (fun ctx _ hcidr => hdiverges ctx hcidr) ⟨0⟩
    have hfound := hspares ⟨0⟩ _ e u (furnished_stands hname hid) hreach hwhy
    simp [World.find, hu] at hfound
  · rintro hbuildable wait w e u - - ⟨ctx, port, hbootstrap, -, herror⟩
    obtain ⟨spec, hspec⟩ := (containerSpec_built_iff hbootstrap).2 hbuildable
    rw [hspec] at herror
    cases herror

namespace ReplacementSample

/-- The minimal manifest, archiving with an option whose name reads like a credential's. -/
def keyed : AcceptedManifest where
  manifest :=
    { minimalManifest 999 with
      spec := { (minimalManifest 999).spec with
        backup :=
          { destinations :=
              [{ url := "s3://backups/mydb", options := .single "s3-key-type" "auto" }] } } }
  accepted := by decide +kernel

/-- What the minimal manifest was applied to. -/
def container : Container where
  id := "id-0"
  spec := minimalContainer 999
  image := ⟨"sha256:5a1e", Agent.Sample.image18⟩
  mounts := fun _ => some "s3cr3t"
  status := .running ⟨none, some 5432⟩
  reports := []

def world : World := furnished keyed container 0 (some "10.89.0.0/24")

theorem keyed_invalid :
    (buildInstanceSpec keyed.manifest (keyed.cluster.inst 1)
      (recreating keyed.manifest (keyed.cluster.inst 1))).validate minimalHost.crates ≠ .ok () := by
  decide +kernel

theorem container_named : container.name = some (keyed.cluster.inst 1).containerName := by
  decide +kernel

/-- **The running container is gone**: its replacement could not be built. -/
theorem unbuildable_recreate_removes : container.status.isRunning = true ∧
    validateParameters keyed.manifest = .ok () ∧
    ∃ e u, NotBuilt minimalHost keyed.manifest (keyed.cluster.inst 1) e ∧
      (stillHost RefusalSample.agentCode (keyed.cluster.inst 1).containerName).Reach
        (applyWith minimalHost keyed.manifest ⟨⟨0⟩, true⟩).run world (.ret (.error e)) u ∧
      world.find (keyed.cluster.inst 1).containerName = some container ∧
      u.find (keyed.cluster.inst 1).containerName = none ∧
      ¬ SparesUnbuilt RefusalSample.agentCode minimalHost keyed container := by
  have hrefused : ∀ ctx : ApplyContext,
      ctx.bootstrap = .initdb keyed.manifest.spec.bootstrap.initdb → ∃ e,
        refuseIfDiverged minimalHost keyed.manifest (keyed.cluster.inst 1) ctx container.probe =
          .error e := by
    intro ctx hbootstrap
    unfold refuseIfDiverged
    cases container.probe.envVar SPEC_ENV with
    | none => exact ⟨_, rfl⟩
    | some raw =>
      cases hs : instanceSpec minimalHost keyed.manifest (keyed.cluster.inst 1) ctx with
      | error e => exact ⟨e, rfl⟩
      | ok s =>
        have hvalid := (instanceSpec_eq_ok.1 hs).2
        rw [(instanceSpec_eq_ok.1 hs).1, validate_recreating hbootstrap] at hvalid
        exact absurd hvalid keyed_invalid
  have hparams : validateParameters keyed.manifest = .ok () := by decide +kernel
  have hstands : Stands (keyed.cluster.inst 1).containerName container world :=
    furnished_stands container_named rfl
  obtain ⟨e, u, hwhy, hreach, hu⟩ := (furnished_furnished keyed container 0
    (some "10.89.0.0/24")).applyWith_removes (A := RefusalSample.agentCode) container_named rfl
    hparams (fun hbuildable => keyed_invalid hbuildable.valid)
    (fun ctx hbootstrap _ => hrefused ctx hbootstrap) ⟨0⟩
  have hgone : u.find (keyed.cluster.inst 1).containerName = none := by simp [World.find, hu]
  refine ⟨rfl, hparams, e, u, hwhy, hreach, hstands.found, hgone, fun hspares => ?_⟩
  have hfound := hspares ⟨0⟩ world e u hstands hreach hwhy
  rw [hgone] at hfound
  cases hfound

/-- One more parameter keeps no replacement from being built. -/
theorem unbuilt_spared_iff_changed :
    SparesUnbuilt RefusalSample.agentCode minimalHost RefusalSample.changed container :=
  (unbuilt_spared_iff (n := 0) RefusalSample.changed (by decide +kernel) (by decide +kernel) rfl
    rfl).2 ⟨by decide +kernel, by decide +kernel⟩

end ReplacementSample

end Control

end Pgpod
