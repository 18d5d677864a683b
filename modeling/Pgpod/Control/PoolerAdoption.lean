import Pgpod.Control.Adoption
import Pgpod.Control.Kept
import Pgpod.Control.Plain
import Pgpod.Control.PoolerApply

/-!
# When an adopted pooler is the one the manifest describes

`applyPooler` compares nothing but the pooler spec in the container's
environment.  The image, the user and the published port come from elsewhere in
the manifest, and the registry is told the new port whatever the container does.
-/

namespace Pgpod

open Effect

namespace Control

/-! ## Inversion of the builder -/

/-- The container of a validated pooler spec. -/
def assemblePooler (codec : PoolerCodec) (m : PoolerManifest) (spec : PoolerSpec) (agent : String)
    (hostPort : UInt16) (adminSecret : String) (networks : List String)
    (lookups : List SecretMount) : ContainerSpec where
  name := some spec.pooler.containerName
  image := m.spec.imageName
  entrypoint := [Container.AGENT_BIN, "pooler", "run"]
  env := [(POOLER_SPEC_ENV, codec.toJson spec)]
  mounts := [.tmpfs "/tmp", .tmpfs SECRETS_DIR, .tmpfs Container.POOLER_DIR,
    .bindReadOnly agent Container.AGENT_BIN]
  labels := Names.poolerLabels spec.pooler spec.clusters
  user := some (toString m.spec.poolerUid.toNat ++ ":" ++ toString m.spec.poolerGid.toNat)
  networks := networks
  portPublishes := [.loopback hostPort Container.POOLER_PORT]
  secrets := secretMount m.spec.poolerUid m.spec.poolerGid
    (adminSecret, Container.SECRET_POOLER_ADMIN) :: lookups
  capDrop := ["ALL"]
  noNewPrivileges := true
  readOnlyFs := true
  hostname := some spec.pooler.containerName

theorem foldl_addNetwork (networks : List String) (c : ContainerSpec) :
    networks.foldl ContainerSpec.addNetwork c = { c with networks := c.networks ++ networks } := by
  induction networks generalizing c with
  | nil => simp
  | cons n rest ih =>
    rw [List.foldl_cons, ih]
    simp [ContainerSpec.addNetwork]

/-- **Inversion of `poolerContainerSpec`**. -/
theorem poolerContainerSpec_eq_ok {codec : PoolerCodec} {m : PoolerManifest} {spec : PoolerSpec}
    {agent : String} {hostPort : UInt16} {adminSecret : String} {c : ContainerSpec} :
    poolerContainerSpec codec m spec agent hostPort adminSecret = .ok c ↔
      spec.validate = .ok () ∧ ∃ networks lookups, clusterNetworks spec.clusters = .ok networks ∧
        lookupMounts m.spec.poolerUid m.spec.poolerGid [] spec.pools = .ok lookups ∧
        c = assemblePooler codec m spec agent hostPort adminSecret networks lookups := by
  have hfold : ∀ (lookups : List SecretMount) (c : ContainerSpec),
      lookups.foldl ContainerSpec.addSecret c = { c with secrets := c.secrets ++ lookups } := by
    intro lookups c
    induction lookups generalizing c with
    | nil => simp
    | cons l rest ih =>
      rw [List.foldl_cons, ih]
      simp [ContainerSpec.addSecret]
  simp only [poolerContainerSpec, PoolerSpec.toEnvValue]
  cases hvalid : spec.validate with
  | error e => simp [bind, Except.bind, Except.mapError]
  | ok _ =>
    cases hnet : clusterNetworks spec.clusters with
    | error e => simp [bind, Except.bind, Except.mapError, pure, Except.pure]
    | ok networks =>
      cases hlook : lookupMounts m.spec.poolerUid m.spec.poolerGid [] spec.pools with
      | error e => simp [bind, Except.bind, Except.mapError, pure, Except.pure]
      | ok lookups =>
        simp only [bind, Except.bind, Except.mapError, pure, Except.pure, foldl_addNetwork, hfold,
          Except.ok.injEq, true_and]
        constructor
        · intro h
          exact ⟨networks, lookups, rfl, rfl, h.symm⟩
        · rintro ⟨_, _, rfl, rfl, rfl⟩
          rfl

/-! ## What the comparison sees -/

/-- The fields of the manifest that shape the container and are not in the spec. -/
def AgreeOutsidePoolerSpec (m₁ m₂ : PoolerManifest) : Prop :=
  m₁.spec.imageName = m₂.spec.imageName ∧ m₁.spec.poolerUid = m₂.spec.poolerUid ∧
    m₁.spec.poolerGid = m₂.spec.poolerGid

/-- On one spec, the containers are the same exactly when the manifests agree outside it and
the ports are one. -/
theorem poolerContainerSpec_same_iff {codec : PoolerCodec} {m₁ m₂ : PoolerManifest}
    {spec : PoolerSpec} {agent : String} {port₁ port₂ : UInt16} {adminSecret : String}
    {c : ContainerSpec} (h : poolerContainerSpec codec m₁ spec agent port₁ adminSecret = .ok c) :
    poolerContainerSpec codec m₂ spec agent port₂ adminSecret = .ok c ↔
      AgreeOutsidePoolerSpec m₁ m₂ ∧ port₂ = port₁ := by
  constructor
  · intro h₂
    obtain ⟨-, _, _, -, -, rfl⟩ := poolerContainerSpec_eq_ok.mp h
    obtain ⟨-, _, _, -, -, heq⟩ := poolerContainerSpec_eq_ok.mp h₂
    have himage := congrArg ContainerSpec.image heq
    have hports := congrArg ContainerSpec.portPublishes heq
    -- the admin secret's mount is always first and carries the uid and the gid
    have hhead := congrArg (fun c : ContainerSpec => c.secrets.head?) heq
    simp only [assemblePooler, PortPublish.loopback, List.cons.injEq, PortPublish.mk.injEq,
      true_and, and_true] at hports
    simp only [assemblePooler, secretMount, List.head?_cons, Option.some.injEq,
      SecretMount.mk.injEq, true_and] at hhead
    exact ⟨⟨himage, hhead.1, hhead.2⟩, hports.symm⟩
  · rintro ⟨⟨himage, huid, hgid⟩, rfl⟩
    unfold poolerContainerSpec at h ⊢
    rw [← himage, ← huid, ← hgid]
    exact h

/-- **Inversion of `refuseIfPoolerDiverged`** on a container that carries a readable spec. -/
theorem refuseIfPoolerDiverged_eq_ok {codec : PoolerCodec} {pooler : PoolerId}
    {running desired : PoolerSpec} {probe : ContainerProbe}
    (henv : probe.envVar POOLER_SPEC_ENV = some (codec.toJson running))
    (hjson : codec.fromJson (codec.toJson running) = .ok running) :
    refuseIfPoolerDiverged codec pooler desired probe = .ok () ↔ running = desired := by
  simp only [refuseIfPoolerDiverged, henv, hjson, bind, Except.bind, Except.mapError]
  split
  · next h => exact iff_of_true rfl h
  · next h => exact iff_of_false (by simp) h

/-! ## What a manifest asks for -/

/-- What the rows of the clusters contribute. -/
def inputsOf (R : Registry) : List PoolerClusterRef → List ClusterPools
  | [] => []
  | entry :: rest =>
    ⟨entry.cluster,
      (R.cluster entry.cluster).bind fun r => r.manifest.spec.bootstrap.initdb.database,
      entry.pools⟩ :: inputsOf R rest

/-- The spec `applyPooler` makes from a manifest, on what the registry holds. -/
def poolerSpecOf (R : Registry) (m : PoolerManifest) (pooler : PoolerId) :
    Except Error PoolerSpec := do
  let (targets, _) ← poolsFrom (inputsOf R m.spec.clusters)
  return poolerSpec m pooler targets

/-- The manifest's port, or else the one recorded. -/
def takenPort (m : PoolerManifest) (existing : Option PoolerRecord) : Option UInt16 :=
  m.spec.port.or (existing.map PoolerRecord.hostPort)

/-- The host hands out this port when it is asked for a free one. -/
def HandsOut (free : UInt16) : ∀ ⦃β : Type⦄, CtlOp β → World → β → World → Prop
  | _, .host .allocatePort, _, b, _ => ∀ port, b = .ok port → port = free
  | _, _, _, _, _ => True

/-- The host on which the free port is `free`. -/
def portMachine (A : Agent.Code) (free : UInt16) : Machine CtlOp World :=
  (hostMachine A).restrict (HandsOut free) fun _ _ => True

/-! ## Footprints -/

theorem Plain.calm {β : Type} {op : CtlOp β} (h : Plain op) : Pgpod.Calm op := by
  cases op with
  | registry op => cases op <;> first | exact h | trivial
  | podman op => cases op <;> first | exact h | trivial
  | host op => trivial

theorem runLookupSql_plain (cluster : ClusterId) (container : String)
    (statements : List Statement) : (runLookupSql cluster container statements).run.Calls Plain := by
  induction statements with
  | nil => exact Task.calls_pure _
  | cons statement rest ih =>
    refine Task.calls_bind (Task.calls_ask trivial) fun out => ?_
    split
    · exact Task.calls_throw _
    · exact ih

theorem ensurePoolerRole_plain (cluster : ClusterId) :
    (ensurePoolerRole cluster).run.Calls Plain := by
  refine Task.calls_bind (Task.calls_ask trivial) fun there => ?_
  split
  · exact Task.calls_pure _
  refine Task.calls_bind (Task.calls_perform trivial) fun _ => ?_
  refine Task.calls_bind (Task.calls_mapError (runningContainer_plain _)) fun _ => ?_
  refine Task.calls_bind (Task.calls_ofExcept _) fun _ => ?_
  exact Task.calls_bind (runLookupSql_plain _ _ _) fun _ => Task.calls_ask trivial

theorem ensurePoolerRoles_plain (inputs : List ClusterPools) :
    (ensurePoolerRoles inputs).run.Calls Plain := by
  induction inputs with
  | nil => exact Task.calls_pure _
  | cons input rest ih =>
    refine Task.calls_bind (Task.calls_ofExcept _) fun cluster => ?_
    exact Task.calls_bind (ensurePoolerRole_plain cluster) fun _ => ih

theorem ensureAdminSecret_plain (secret : String) : (ensureAdminSecret secret).run.Calls Plain := by
  refine Task.calls_bind (Task.calls_ask trivial) fun there => ?_
  split
  · exact Task.calls_pure _
  · exact Task.calls_bind (Task.calls_perform trivial) fun _ => Task.calls_ask trivial

theorem convergePooler_leaves (m : PoolerManifest) (spec : ContainerSpec)
    (probe : Option ContainerProbe) : (convergePooler m spec probe).run.Calls LeavesPoolers := by
  cases probe with
  | some p =>
    simp only [convergePooler]
    split
    · exact Task.calls_pure _
    · exact Task.calls_bind (Task.calls_ask trivial) fun _ => Task.calls_pure _
  | none =>
    refine Task.calls_bind (Task.calls_ask trivial) fun _ => ?_
    refine Task.calls_bind (Task.calls_ask trivial) fun _ => ?_
    exact Task.calls_bind (Task.calls_ask trivial) fun _ => Task.calls_pure _

theorem pollPooler_leaves (pooler : PoolerId) (timeout : Duration) (rounds : Nat) (last : String) :
    (pollPooler pooler timeout rounds last).run.Calls LeavesPoolers := by
  refine (pollPooler_outside pooler timeout rounds last).mono fun _ op hop => ?_
  cases op with
  | registry op => exact hop.elim
  | podman op => trivial
  | host op => trivial

theorem poolerEvents_leaves (pooler : PoolerId) (clusters : List String) :
    (poolerEvents pooler clusters).run.Calls LeavesPoolers := by
  induction clusters with
  | nil => exact Task.calls_pure _
  | cons cluster rest ih => exact Task.calls_bind (Task.calls_ask trivial) fun _ => ih

/-! ## Runs -/

section Runs

variable {A : Agent.Code} {w : World}

theorem agentBinary_yields (host : Host) :
    (hostMachine A).Yields (World.Kept w) (agentBinary host) fun agent u =>
      agent = host.agentBinary ∧ w.Kept u := by
  refine .bind (yields_calm w (Task.calls_perform trivial)) fun there => ?_
  split
  · exact .pure ((Machine.Stable.const _).and (stable_kept w)) fun _ h => ⟨rfl, h⟩
  · exact .throw

theorem poolerInputs_yields (pooler : PoolerId) (entries : List PoolerClusterRef) :
    (hostMachine A).Yields (World.Kept w) (poolerInputs pooler entries) fun inputs u =>
      inputs = inputsOf w.registry entries ∧ w.Kept u := by
  induction entries with
  | nil => exact .pure ((Machine.Stable.const _).and (stable_kept w)) fun _ h => ⟨rfl, h⟩
  | cons entry rest ih =>
    refine .bind (.ofExcept (stable_kept w)) fun cluster => .fact fun hcluster => ?_
    have hname : cluster.name = entry.cluster := by
      cases hnew : ClusterId.new entry.cluster with
      | error e => simp [hnew, Except.mapError] at hcluster
      | ok c =>
        simp only [hnew, Except.mapError, Except.ok.injEq] at hcluster
        rw [← hcluster]
        exact ClusterId.new_eq_ok.mp hnew
    have hread : (hostMachine A).Yields (World.Kept w) (registry (.cluster cluster)) fun a u =>
        a = w.registry.cluster cluster.name ∧ w.Kept u :=
      yields_ask (by trivial) fun _ _ _ => cluster_answer
    refine .bind hread fun a => .fact fun ha => ?_
    cases a with
    | none => exact .throw
    | some record =>
      refine .bind ih fun inputs => .fact fun hinputs => ?_
      refine .pure ((Machine.Stable.const _).and (stable_kept w)) fun _ h => ⟨?_, h⟩
      rw [hinputs, inputsOf, ← hname, ← ha]
      rfl

/-- The registry has this port for the pooler. -/
def Recorded (pooler : String) (port : UInt16) (u : World) : Prop :=
  (u.registry.pooler pooler).map PoolerRecord.hostPort = some port

theorem Recorded.of_poolers {pooler : String} {port : UInt16} {u v : World}
    (h : Recorded pooler port u) (heq : v.registry.poolers = u.registry.poolers) :
    Recorded pooler port v := by
  unfold Recorded Registry.pooler at h ⊢
  rw [heq]
  exact h

theorem stable_recorded (pooler : String) (port : UInt16) :
    (hostMachine A).Stable (Recorded pooler port) :=
  fun _ _ hd h => h.of_poolers (hostMachine_drift hd).poolers

theorem yields_recorded {α : Type} {t : CtlTask α} (pooler : String) (port : UInt16)
    (ht : t.run.Calls LeavesPoolers) :
    (hostMachine A).Yields (Recorded pooler port) t fun _ => Recorded pooler port :=
  .of_calls (stable_recorded pooler port)
    (fun _ _ _ _ _ hop h hstep => h.of_poolers (hostMachine_poolers hop hstep)) ht

/-- A pooler's row, written, has the port it was written with. -/
theorem putPooler_recorded {m : PoolerManifest} {containerName : String}
    {containerId : Option String} {port : UInt16} {phase : String} {rows : List PoolerPool}
    {u v : World} {generation : Int64}
    (hstep : (hostMachine A).step
      (.registry (.putPooler m containerName containerId port phase rows)) u (.ok generation) v) :
    Recorded m.metadata.name port v := by
  obtain ⟨ch, hstep⟩ := hstep
  simp only [hostExec, CtlOp.perform, RegistryOp.perform] at hstep
  split at hstep
  · cases hstep
  · obtain ⟨-, rfl⟩ := Prod.mk.inj hstep
    unfold Recorded Registry.putPooler
    cases hold : u.registry.pooler m.metadata.name with
    | none =>
      have hnone : u.registry.poolers.find? (fun p => decide (p.name = m.metadata.name)) = none :=
        hold
      simp [Registry.pooler, List.find?_append, hnone]
    | some old =>
      have hsome : u.registry.poolers.find? (fun p => decide (p.name = m.metadata.name)) =
          some old := hold
      have hname : old.name = m.metadata.name := by simpa using List.find?_some hsome
      simp only [Registry.pooler, List.find?_map, Function.comp_def]
      have hpred : ∀ (row : PoolerRecord), row.name = m.metadata.name → ∀ p : PoolerRecord,
          decide ((if p.name = m.metadata.name then row else p).name = m.metadata.name) =
            decide (p.name = m.metadata.name) := by
        intro row hrow p
        split
        · next hp => simp [hrow, hp]
        · rfl
      simp only [hpred, hsome, Option.map_some, if_pos hname]

/-- The half of `applyPooler` that tells the registry, on a pooler that is there. -/
theorem applyPoolerSpec_yields {codec : PoolerCodec} {m : PoolerManifest} {wait : Duration}
    {agent : String} {running spec : PoolerSpec} {rows : List PoolerPool} {existed : Bool}
    {hostPort : UInt16} {c : Container} (hname : m.metadata.name = spec.pooler.name)
    (hfound : w.find spec.pooler.containerName = some c)
    (henv : c.spec.env = [(POOLER_SPEC_ENV, codec.toJson running)])
    (hjson : codec.fromJson (codec.toJson running) = .ok running) :
    (hostMachine A).Yields (World.Kept w)
      (applyPoolerSpec codec m wait agent spec rows existed hostPort) fun report u =>
        (running = spec ∧ report.hostPort = hostPort) ∧ Recorded spec.pooler.name hostPort u := by
  refine .bind (yields_calm w ((ensureAdminSecret_plain _).mono fun _ _ => Plain.calm)) fun _ => ?_
  have hprobe : (hostMachine A).Yields (World.Kept w)
      (podman (.probe spec.pooler.containerName)) fun a u =>
        (∃ p, a = some p ∧ p.env = c.spec.envLines) ∧ w.Kept u :=
    yields_ask (by trivial) fun _ _ _ => probe_answer hfound
  refine .bind hprobe fun probe => .fact ?_
  rintro ⟨p, rfl, hlines⟩
  refine .bind (.ofExcept (stable_kept w)) fun _ => .fact fun hcheck => ?_
  have hraw : p.envVar POOLER_SPEC_ENV = some (codec.toJson running) :=
    ContainerProbe.envVar_of_env (by rw [hlines, ContainerSpec.envLines, henv]; rfl)
  have hspec : running = spec := (refuseIfPoolerDiverged_eq_ok hraw hjson).mp hcheck
  have hput : ∀ (I : World → Prop) (id : Option String) (phase : String),
      (hostMachine A).Stable I → (hostMachine A).Yields I
        (registry (.putPooler m spec.pooler.containerName id hostPort phase rows)) fun _ =>
          Recorded spec.pooler.name hostPort :=
    fun I id phase hI => .ask hI (fun _ => stable_recorded _ _) fun _ _ _ _ hstep =>
      hname ▸ putPooler_recorded hstep
  have hstable := stable_recorded (A := A) spec.pooler.name hostPort
  refine .bind (hput _ none "applying" (stable_kept w)) fun generation => ?_
  refine .bind (.ofExcept hstable) fun container => .fact fun _ => ?_
  refine .bind (yields_recorded _ _ (convergePooler_leaves _ _ _)) fun id => ?_
  refine .bind (hput _ (some id) "running" hstable) fun _ => ?_
  refine .bind (yields_recorded _ _ (Task.calls_when (pollPooler_leaves _ _ _ _))) fun _ => ?_
  refine .bind (yields_recorded _ _ (poolerEvents_leaves _ _)) fun _ => ?_
  exact .pure ((Machine.Stable.const _).and hstable) fun _ h => ⟨⟨hspec, rfl⟩, h⟩

theorem choosePoolerPort_yields (free : UInt16) (m : PoolerManifest)
    (existing : Option PoolerRecord) :
    (portMachine A free).Yields (World.Kept w) (choosePoolerPort existing m.spec.port)
      fun port u => port = (takenPort m existing).getD free ∧ w.Kept u := by
  have hstable : (hostMachine A).Stable fun u => World.Kept w u := stable_kept w
  unfold takenPort
  cases hport : m.spec.port with
  | some port =>
    refine .restrict (.pure ((Machine.Stable.const _).and hstable) fun _ h => ⟨?_, h⟩)
    simp
  | none =>
    cases existing with
    | some record =>
      refine .restrict (.pure ((Machine.Stable.const _).and hstable) fun _ h => ⟨?_, h⟩)
      simp
    | none =>
      refine .ask (fun _ _ hd => hstable _ _ hd.1)
        (fun _ _ _ hd h => ⟨h.1, hstable _ _ hd.1 h.2⟩) fun u port v h hstep => ⟨?_, ?_⟩
      · exact hstep.2 port rfl
      · exact h.trans (hostMachine_calm (by trivial) hstep.1)

end Runs

/-! ## Adoption -/

/-- The container is the one that the manifest describes, and its port is the one the registry
and the report name. -/
structure AsDescribed (host : Host) (codec : PoolerCodec) (m : PoolerManifest) (pooler : PoolerId)
    (R : Registry) (c : ContainerSpec) (report : PoolerReport) (u : World) : Prop where
  container : ∃ spec, poolerSpecOf R m pooler = .ok spec ∧
    poolerContainerSpec codec m spec host.agentBinary report.hostPort
      (Names.poolerAdminSecret pooler) = .ok c
  recorded : ∃ row, u.registry.pooler pooler.name = some row ∧
    c.portPublishes = [.loopback row.hostPort Container.POOLER_PORT]
  reported : c.portPublishes = [.loopback report.hostPort Container.POOLER_PORT]

section Adopted

variable {A : Agent.Code} {host : Host} {codec : PoolerCodec} {m₁ m₂ : PoolerManifest}
  {pooler : PoolerId} {spec : PoolerSpec} {port free : UInt16} {wait : Duration} {w u : World}
  {c : Container} {report : PoolerReport}

theorem PoolerManifest.name_of_poolerId {m : PoolerManifest} {pooler : PoolerId}
    (h : m.poolerId = .ok pooler) : m.metadata.name = pooler.name := by
  unfold PoolerManifest.poolerId PoolerId.new at h
  split at h
  · simp only [Except.mapError, Except.ok.injEq] at h
    rw [← h]
  · cases h

/-- What a run of `applyPooler` has found when it returns. -/
theorem applyPooler_yields (hid : m₂.poolerId = .ok pooler)
    (hfound : w.find pooler.containerName = some c)
    (henv : c.spec.env = [(POOLER_SPEC_ENV, codec.toJson spec)])
    (hjson : codec.fromJson (codec.toJson spec) = .ok spec) :
    (portMachine A free).Yields (World.Kept w) (applyPooler host codec m₂ wait) fun report u =>
      poolerSpecOf w.registry m₂ pooler = .ok spec ∧
        report.hostPort = (takenPort m₂ (w.registry.pooler pooler.name)).getD free ∧
        Recorded pooler.name report.hostPort u := by
  have hname := PoolerManifest.name_of_poolerId hid
  have hkept := stable_kept (A := A) w
  refine .bind (.restrict (.ofExcept hkept)) fun k => .fact fun hk => ?_
  obtain rfl : k = pooler := by
    simp only [hid, Except.mapError, Except.ok.injEq] at hk
    exact hk.symm
  refine .bind (.restrict (agentBinary_yields host)) fun agent => .fact fun _ => ?_
  refine .bind (.restrict (poolerInputs_yields k _)) fun inputs => .fact fun hinputs => ?_
  refine .bind (.restrict (.ofExcept hkept)) fun pools => .fact fun hpools => ?_
  refine .bind (.restrict (yields_calm w
    ((ensurePoolerRoles_plain inputs).mono fun _ _ => Plain.calm))) fun _ => ?_
  have hread : (hostMachine A).Yields (World.Kept w) (registry (.pooler k)) fun a u =>
      a = w.registry.pooler k.name ∧ w.Kept u :=
    yields_ask (by trivial) fun _ _ _ => pooler_answer
  refine .bind (.restrict hread) fun existing => .fact fun hexisting => ?_
  refine .bind (choosePoolerPort_yields free m₂ existing) fun hostPort => .fact fun hport => ?_
  refine .bind (.restrict (.ofExcept hkept)) fun _ => .fact fun _ => ?_
  refine .bind (.restrict (.ofExcept hkept)) fun _ => .fact fun _ => ?_
  refine .restrict ((applyPoolerSpec_yields hname hfound henv hjson).mono (fun _ h => h) ?_)
  rintro report u ⟨⟨hspec, hreport⟩, hrecorded⟩
  refine ⟨?_, ?_, hreport ▸ hrecorded⟩
  · rw [poolerSpecOf, ← hinputs, hpools, hspec]
    rfl
  · rw [hreport, hport, hexisting]

/-- **Adoption of a pooler, exactly**: a container made from `m₁` that `applyPooler` adopts for
`m₂` is the one `m₂` describes, under the port that is recorded and reported, if and only if the
manifests agree on the image, the user and the group, and the port `m₂` takes is the one the
container publishes. -/
theorem adopted_pooler_agrees_iff (hid : m₂.poolerId = .ok pooler)
    (hcreate : poolerContainerSpec codec m₁ spec host.agentBinary port
      (Names.poolerAdminSecret pooler) = .ok c.spec)
    (hjson : codec.fromJson (codec.toJson spec) = .ok spec)
    (hfound : w.find pooler.containerName = some c)
    (hrun : (portMachine A free).Reach (applyPooler host codec m₂ wait).run w
      (.ret (.ok report)) u) :
    AsDescribed host codec m₂ pooler w.registry c.spec report u ↔
      AgreeOutsidePoolerSpec m₁ m₂ ∧
        (takenPort m₂ (w.registry.pooler pooler.name)).getD free = port := by
  obtain ⟨-, _, _, -, -, hspec⟩ := poolerContainerSpec_eq_ok.mp hcreate
  have henv : c.spec.env = [(POOLER_SPEC_ENV, codec.toJson spec)] := by rw [hspec]; rfl
  have hports : c.spec.portPublishes = [.loopback port Container.POOLER_PORT] := by rw [hspec]; rfl
  have hpublishes : ∀ q, c.spec.portPublishes = [.loopback q Container.POOLER_PORT] ↔ q = port := by
    intro q
    rw [hports]
    simp only [PortPublish.loopback, List.cons.injEq, PortPublish.mk.injEq, true_and, and_true]
    exact eq_comm
  obtain ⟨hmade, hreport, hrecorded⟩ :=
    applyPooler_yields hid hfound henv hjson _ _ _ (.refl w) hrun
  rw [← hreport]
  constructor
  · rintro ⟨⟨spec₂, hspec₂, hcontainer⟩, -, -⟩
    obtain rfl := Except.ok.inj (hmade.symm.trans hspec₂)
    exact (poolerContainerSpec_same_iff hcreate).mp hcontainer
  · rintro ⟨hagree, hport⟩
    obtain ⟨row, hrow, hrowPort⟩ := Option.map_eq_some_iff.mp hrecorded
    exact
      { container := ⟨spec, hmade, (poolerContainerSpec_same_iff hcreate).mpr ⟨hagree, hport⟩⟩
        recorded := ⟨row, hrow, (hpublishes _).mpr (hrowPort.trans hport)⟩
        reported := (hpublishes _).mpr hport }

end Adopted

/-! ## An edited port that `applyPooler` reports and does not publish -/

namespace PoolerSample

def manifest (port : UInt16) : PoolerManifest where
  apiVersion := "pgpod/v1"
  kind := "Pooler"
  metadata := ⟨"front"⟩
  spec :=
    { port := some port
      clusters := [{ cluster := "mydb", pools := [{ database := "app" }] }] }

def front : PoolerId := ⟨"front", front_valid⟩

/-- The spec both manifests send to the agent, and its JSON. -/
def spec : PoolerSpec where
  pooler := front
  pools := [{ name := "app", cluster := "mydb", serverHost := "pgpod-mydb-1", database := "app"
              lookupRole := "pgpod_pooler", lookupSecretIndex := 0 }]

def specJson : String :=
  "\x7b\"pooler\":\"front\",\"port\":6432,\"pools\":[\x7b\"name\":\"app\",\"cluster\":" ++
  "\"mydb\",\"serverHost\":\"pgpod-mydb-1\",\"serverPort\":5432,\"database\":\"app\"," ++
  "\"lookupRole\":\"pgpod_pooler\",\"lookupDatabase\":\"postgres\",\"lookupSecretIndex\":0\x7d]," ++
  "\"poolMode\":\"transaction\",\"poolSize\":40,\"maxHold\":\"1m\",\"parameters\":[]\x7d"

def codec : PoolerCodec where
  toJson s := if s = spec then specJson else ""
  fromJson raw := if raw = specJson then .ok spec else .error "expected value"

/-- The container made from the manifest with port 6432. -/
def container : Container where
  id := "f00d"
  spec := assemblePooler codec (manifest 6432) spec minimalHost.agentBinary 6432
    "pgpod-pooler-front-admin" ["pgpod-mydb"]
    [secretMount 999 999 ("pgpod-mydb-pooler", "/run/secrets/pgpod-pooler-lookup-0")]
  image := ⟨"sha256:d00a", ⟨"", "", rfl⟩⟩
  mounts := fun _ => some "s3cr3t"
  status := .running ⟨none, none⟩
  reports := []

/-- `mydb`, with its pooler running. -/
def world : World where
  registry :=
    { clusters := [⟨"mydb", minimalManifest 999, 1, "running"⟩]
      poolers := [{ name := "front", manifest := manifest 6432, generation := 1
                    containerName := "pgpod-pooler-front", containerId := some "f00d"
                    hostPort := 6432, phase := "running", pools := [⟨"mydb", "app", "app"⟩] }] }
  containers := [container]
  secrets := fun _ => some "s3cr3t"

/-- No container is started, so what an agent would run does not matter. -/
def code : Agent.Code :=
  ⟨minimalHost.crates, ⟨fun _ _ => [], fun _ => .ok [], fun _ => [], fun _ _ _ => .ok []⟩,
    fun _ => .error .missing⟩

/-- The run of `applyPooler` in which every call succeeds. -/
def applied (m : PoolerManifest) : Prog CtlOp (Except Error PoolerReport) × World :=
  (hostExec code).follow (List.replicate 9 (.inl {}))
    (applyPooler minimalHost codec m ⟨0⟩).run world

def report (port : UInt16) : PoolerReport where
  pooler := "front"
  generation := 2
  created := false
  container := "pgpod-pooler-front"
  hostPort := port
  pools := [⟨"app", "mydb", "app", "postgresql://127.0.0.1:" ++ toString port ++ "/app"⟩]

theorem applied_returns : (applied (manifest 7000)).1 = .ret (.ok (report 7000)) :=
  Prog.eq_ret_of_value (by decide +kernel)

theorem applied_reach (m : PoolerManifest) :
    (portMachine code 0).Reach (applyPooler minimalHost codec m ⟨0⟩).run world (applied m).1
      (applied m).2 := by
  refine (hostExec code).follow_restrict _ ?_ (fun _ _ _ => trivial) _ _
  intro c hc β op s
  obtain rfl := Sum.inl.inj (List.eq_of_mem_replicate hc)
  cases op with
  | host op =>
    cases op with
    | allocatePort =>
      intro port hport
      exact (Except.ok.inj hport).symm
    | _ => trivial
  | _ => trivial

theorem container_made :
    poolerContainerSpec codec (manifest 6432) spec minimalHost.agentBinary 6432
      (Names.poolerAdminSecret front) = .ok container.spec :=
  poolerContainerSpec_eq_ok.mpr
    ⟨by decide +kernel, ["pgpod-mydb"], _, by decide +kernel, by decide +kernel, rfl⟩

theorem spec_json : codec.fromJson (codec.toJson spec) = .ok spec := by simp [codec]

/-- **A changed port is adopted**: the manifest that asks for port 7000 is applied, recorded and
reported with it, and the container publishes 6432. -/
theorem changed_port_is_adopted :
    (manifest 6432).validate = .ok () ∧ (manifest 7000).validate = .ok () ∧
    poolerContainerSpec codec (manifest 6432) spec minimalHost.agentBinary 6432
      (Names.poolerAdminSecret front) = .ok container.spec ∧
    world.find front.containerName = some container ∧
    ∃ report u, (hostMachine code).Reach
        (applyPooler minimalHost codec (manifest 7000) ⟨0⟩).run world (.ret (.ok report)) u ∧
      ¬ AsDescribed minimalHost codec (manifest 7000) front world.registry container.spec report u := by
  refine ⟨by decide +kernel, by decide +kernel, container_made, by rfl, report 7000,
    (applied (manifest 7000)).2, ?_, ?_⟩
  · rw [← applied_returns]
    exact (hostExec code).follow_reach _ _ _
  · rintro ⟨-, -, hports⟩
    exact absurd hports (by decide)

/-- The manifest with no port of its own. -/
def unported : PoolerManifest :=
  { manifest 6432 with spec := { (manifest 6432).spec with port := none } }

/-- Applied where the pooler stands, it takes the port on record, which is the container's. -/
theorem adopted_pooler_agrees_iff_unported :
    unported.spec.port ≠ (manifest 6432).spec.port ∧
    AsDescribed minimalHost codec unported front world.registry container.spec (report 6432)
      (applied unported).2 := by
  have hreturns : (applied unported).1 = .ret (.ok (report 6432)) :=
    Prog.eq_ret_of_value (by decide +kernel)
  refine ⟨by decide, (adopted_pooler_agrees_iff rfl container_made spec_json rfl
    (hreturns ▸ applied_reach unported)).mpr ⟨⟨rfl, rfl, rfl⟩, by decide⟩⟩

end PoolerSample

end Control

end Pgpod
