import Pgpod.Control.Ready

/-!
# What a successful `apply` leaves behind

An instance that was converged has a container that fits, whichever way it came
by it; what follows in the same operation does not touch that container.
-/

namespace Pgpod

open Effect

namespace Control

/-- The image of the manifest is on the host. -/
abbrev HasImage (m : ClusterManifest) (image : Image) (L : Ledger) : Prop :=
  L.images m.spec.imageName = some image

section Converge

variable {α : Type} {host : Host} {m : ClusterManifest} {inst : InstanceId} {ctx : ApplyContext}
  {image : Image}

/-- Nothing takes an image away. -/
theorem yields_image {t : CtlTask α} (ht : ∀ L₀ : Ledger, L₀.Tidy → Framed .none L₀ t) :
    Ledger.machine.Yields (fun L => L.Tidy ∧ HasImage m image L) t
      fun _ L => L.Tidy ∧ HasImage m image L :=
  yields_framed ht fun _ _ h hframe => hframe.images _ _ h

/-- An instance of this context has a container that fits. -/
abbrev InPlace (host : Host) (m : ClusterManifest) (inst : InstanceId) (ctx : ApplyContext)
    (image : Image) (L : Ledger) : Prop :=
  Placed host m inst ctx.bootstrap ctx.networkCidr image L

theorem yields_inPlace {t : CtlTask α} (ht : ∀ L₀ : Ledger, L₀.Tidy → Framed .all L₀ t) :
    Ledger.machine.Yields (fun L => L.Tidy ∧ InPlace host m inst ctx image L) t
      fun _ L => L.Tidy ∧ InPlace host m inst ctx image L :=
  yields_framed ht fun _ _ h hframe => h.frame hframe fun _ _ => trivial

variable (hjson : ∀ s : InstanceSpec, s.validate host.crates = .ok () →
  host.crates.instanceSpecFromJson (host.crates.instanceSpecToJson s) = .ok s)

include hjson

/-- The container that was made is the instance's, and fits. -/
theorem made_inPlace {port : UInt16} {spec : ContainerSpec} {id : String} {L L' : Ledger}
    (hspec : containerSpec host m inst ctx port = .ok spec) (htidy : L.Tidy)
    (hmade : L.Made spec id L') :
    L'.Tidy ∧ ∃ image, HasImage m image L ∧ HasImage m image L' ∧
      InPlace host m inst ctx image L' := by
  have hname := containerSpec_name hspec
  obtain ⟨rest, hrest⟩ := inst.containerName_front
  refine ⟨htidy.made hmade ⟨rest, hname.trans (congrArg some hrest)⟩, ?_⟩
  obtain ⟨image, himage, -, -, rfl⟩ := hmade
  rw [containerSpec_image hspec] at himage
  exact ⟨image, himage, himage, ⟨id, spec, image⟩,
    List.mem_append_right _ (List.mem_singleton_self _), hname, fits_of_container hjson hspec rfl⟩

theorem yields_createInstance {port : UInt16} {spec : ContainerSpec}
    (hspec : containerSpec host m inst ctx port = .ok spec) :
    Ledger.machine.Yields (fun L => L.Tidy ∧ HasImage m image L) (podman (.createContainer spec))
      fun _ L => L.Tidy ∧ InPlace host m inst ctx image L := by
  refine .ask (Ledger.stable _) (fun _ => Ledger.stable _) fun L id L' hL hstep => ?_
  obtain ⟨htidy', found, hfound, -, hplaced⟩ := made_inPlace hjson hspec hL.1 (hstep.2 id rfl)
  obtain rfl := Option.some.inj (hL.2.symm.trans hfound)
  exact ⟨htidy', hplaced⟩

theorem yields_createAndStart {port : UInt16} {spec : ContainerSpec}
    (hspec : containerSpec host m inst ctx port = .ok spec) :
    Ledger.machine.Yields (fun L => L.Tidy ∧ HasImage m image L) (createAndStart spec)
      fun _ L => L.Tidy ∧ InPlace host m inst ctx image L := by
  refine .bind (yields_createInstance hjson hspec) fun id => ?_
  refine .bind (yields_inPlace fun _ _ => framed_start _) fun _ => ?_
  exact .pure (Ledger.stable _) fun _ h => h

theorem yields_recreateHeld (port : UInt16) :
    Ledger.machine.Yields (fun L => L.Tidy ∧ HasImage m image L)
      (recreateHeld host m inst ctx port) fun _ L => L.Tidy ∧ InPlace host m inst ctx image L := by
  refine .bind (yields_plain (Task.calls_ask trivial)) fun _ => ?_
  refine .bind (yields_image fun _ _ => framed_ignore (framed_stop _ _)) fun _ => ?_
  refine .bind (yields_image fun _ _ => Ledger.upholds_remove fun _ _ h => h.elim) fun _ => ?_
  refine .bind (yields_plain (Task.calls_ask trivial)) fun _ => ?_
  refine .bind (.ofExcept (Ledger.stable _)) fun spec => .fact fun hspec => ?_
  refine .bind (yields_createInstance hjson hspec) fun id => ?_
  refine .bind (yields_inPlace fun _ _ => framed_start _) fun _ => ?_
  refine .bind (yields_inPlace fun _ _ => framed_waitReady _ _) fun _ => ?_
  exact .pure (Ledger.stable _) fun _ h => h

theorem yields_recreateInstance (port : UInt16) :
    Ledger.machine.Yields (fun L => L.Tidy ∧ HasImage m image L)
      (recreateInstance host m inst ctx port)
      fun _ L => L.Tidy ∧ InPlace host m inst ctx image L := by
  refine .bind (yields_plain (Task.calls_perform trivial)) fun started => ?_
  refine .bind (yields_plain (acquire_plain _)) fun held => ?_
  refine .bind (yields_plain (Task.calls_when (Task.calls_ask trivial))) fun _ => ?_
  refine .bind (yields_recreateHeld hjson port).attempt fun r => ?_
  cases r with
  | error e =>
    refine .bind (yields_plain (release_plain _ _)) fun _ => ?_
    exact .bind (yields_plain (Task.calls_ask trivial)) fun _ => .throw
  | ok id =>
    refine .bind (yields_plain (releaseAfterRecreate_plain _ _)) fun _ => ?_
    refine .bind (yields_plain (Task.calls_perform trivial)) fun elapsed => ?_
    refine .bind (yields_plain (Task.calls_ask trivial)) fun _ => ?_
    exact .pure (Ledger.stable _) fun _ h => h id rfl

omit hjson in
/-- A probe by the instance's name shows the container of that name. -/
theorem yields_probeInstance {P : Ledger → Prop} :
    Ledger.machine.Yields (fun L => L.Tidy ∧ P L) (podman (.probe inst.containerName))
      fun a L => (∀ p, a = some p → ∃ t ∈ L.shelf, t.spec.name = some inst.containerName ∧
        Ledger.Shows t p) ∧ L.Tidy ∧ P L := by
  refine .ask (Ledger.stable _) (fun _ => Ledger.stable _) fun L a L' hL hstep => ?_
  obtain ⟨rfl, hfound⟩ := hstep
  refine ⟨?_, hL⟩
  rintro p rfl
  obtain ⟨t, hfind, hshows⟩ := hfound
  obtain ⟨rest, hrest⟩ := inst.containerName_front
  rw [hrest] at hfind ⊢
  obtain ⟨ht, hname⟩ := hL.1.of_find_name hfind
  exact ⟨t, ht, hname, hshows⟩

/-- **However it came by it**, a converged instance has a container that fits. -/
theorem yields_convergeContainer (himage : ctx.desiredImageId = some image.id) (port : UInt16) :
    Ledger.machine.Yields (fun L => L.Tidy ∧ HasImage m image L)
      (convergeContainer host m inst ctx port)
      fun _ L => L.Tidy ∧ InPlace host m inst ctx image L := by
  refine .bind yields_probeInstance fun probe => ?_
  have hafter : ∀ L : Ledger, ((∀ p, probe = some p → ∃ t ∈ L.shelf,
      t.spec.name = some inst.containerName ∧ Ledger.Shows t p) ∧ L.Tidy ∧ HasImage m image L) →
      L.Tidy ∧ HasImage m image L := fun _ h => h.2
  cases probe with
  | none =>
    refine .mono ?_ hafter fun _ _ h => h
    refine .bind (.ofExcept (Ledger.stable _)) fun spec => .fact fun hspec => ?_
    refine .bind (yields_image fun _ _ => Ledger.upholds_pullImage _) fun _ => ?_
    exact yields_createAndStart hjson hspec
  | some p =>
    -- the container that is there is adopted only if the comparison passes
    have hadopt : refuseIfDiverged host m inst ctx p = .ok () → ∀ L : Ledger,
        ((∀ q, some p = some q → ∃ t ∈ L.shelf, t.spec.name = some inst.containerName ∧
          Ledger.Shows t q) ∧ L.Tidy ∧ HasImage m image L) →
        L.Tidy ∧ InPlace host m inst ctx image L := by
      rintro hpass L ⟨hfound, htidy, -⟩
      obtain ⟨t, ht, hname, hshows⟩ := hfound p rfl
      exact ⟨htidy, t, ht, hname, fits_of_refuse hpass hshows himage⟩
    simp only
    split
    · next hpass => exact .pure (Ledger.stable _) (hadopt hpass)
    · refine .mono ?_ hafter fun _ _ h => h
      split
      · refine .bind (yields_plain (Task.calls_ask trivial)) fun _ => ?_
        exact yields_recreateInstance hjson port
      · exact .throw
    · next hpass =>
      refine .mono ?_ (hadopt hpass) fun _ _ h => h
      refine .bind (yields_inPlace fun _ _ => framed_start _) fun _ => ?_
      exact .pure (Ledger.stable _) fun _ h => h
    · refine .mono ?_ hafter fun _ _ h => h
      refine .bind (yields_plain (Task.calls_ask trivial)) fun _ => ?_
      refine .bind (.ofExcept (Ledger.stable _)) fun spec => .fact fun hspec => ?_
      refine .bind (yields_image fun _ _ => Ledger.upholds_pullImage _) fun _ => ?_
      refine .bind (yields_image fun _ _ => Ledger.upholds_remove fun _ _ h => h.elim) fun _ => ?_
      exact yields_createAndStart hjson hspec

theorem yields_applyInstance (himage : ctx.desiredImageId = some image.id) :
    Ledger.machine.Yields (fun L => L.Tidy ∧ HasImage m image L) (applyInstance host m inst ctx)
      fun _ L => L.Tidy ∧ InPlace host m inst ctx image L := by
  have hafter : ∀ port : UInt16, Ledger.machine.Yields (fun L => L.Tidy ∧ HasImage m image L) (do
      let volume ← podman (.createVolume inst.volumeName)
      registry (.putInstance (instanceRecordOf inst volume port none .creating))
      let id ← convergeContainer host m inst ctx port
      registry (.putInstance (instanceRecordOf inst volume port (some id) .bootstrapping))
      pure
        { inst := inst.toText
          container := inst.containerName
          volume
          hostPort := port
          connectionUri := connectionUri port m } : CtlTask InstanceSummary)
      fun _ L => L.Tidy ∧ InPlace host m inst ctx image L := by
    intro port
    have hput : ∀ {σ : Ledger.Scope} {L₀ : Ledger} volume id phase,
        Framed σ L₀ (registry (.putInstance (instanceRecordOf inst volume port id phase))) :=
      fun _ _ _ => Ledger.upholds_putInstance (namedRow_instanceRecordOf _ _ _ _)
    refine .bind (yields_plain (Task.calls_ask trivial)) fun volume => ?_
    refine .bind (yields_image fun _ _ => hput _ _ _) fun _ => ?_
    refine .bind (yields_convergeContainer hjson himage port) fun id => ?_
    refine .bind (yields_inPlace fun _ _ => hput _ _ _) fun _ => ?_
    exact .pure (Ledger.stable _) fun _ h => h
  refine .bind (yields_plain (instanceRow_plain _ _)) fun existing => ?_
  cases existing with
  | some row => exact hafter row.hostPort
  | none => exact .bind (yields_plain (Task.calls_ask trivial)) hafter

/-- One instance after the other, and none of them touches those before it. -/
theorem yields_applyEach {k : ClusterId} (himage : ctx.desiredImageId = some image.id)
    {ordinals : List UInt32} (hnodup : ordinals.Nodup) :
    Ledger.machine.Yields (fun L => L.Tidy ∧ HasImage m image L) (applyEach host m k ctx ordinals)
      fun _ L => L.Tidy ∧ HasImage m image L ∧
        ∀ ordinal ∈ ordinals, InPlace host m (k.inst ordinal) ctx image L := by
  induction ordinals with
  | nil => exact .pure (Ledger.stable _) fun _ h => ⟨h.1, h.2, nofun⟩
  | cons ordinal rest ih =>
    obtain ⟨hnot, hrest⟩ := List.nodup_cons.mp hnodup
    have hfirst : Ledger.machine.Yields (fun L => L.Tidy ∧ HasImage m image L)
        (applyInstance host m (k.inst ordinal) ctx)
        fun _ L => (L.Tidy ∧ HasImage m image L) ∧ InPlace host m (k.inst ordinal) ctx image L := by
      intro L a L' hL hr
      have himg : L'.Tidy ∧ HasImage m image L' := by
        refine yields_image (fun _ h₀ => ?_) L a L' hL hr
        exact framed_applyInstance (by rintro t ⟨⟩) h₀ _
      exact ⟨himg, (yields_applyInstance hjson himage L a L' hL hr).2⟩
    -- the rest works on containers of other names
    have hkept : Ledger.machine.Yields
        (fun L => L.Tidy ∧ InPlace host m (k.inst ordinal) ctx image L)
        (applyEach host m k ctx rest)
        fun _ L => L.Tidy ∧ InPlace host m (k.inst ordinal) ctx image L := by
      refine yields_framed (σ := .container (k.inst ordinal).containerName) (fun L₀ h₀ => ?_)
        fun _ _ h hframe => h.frame hframe fun _ ht => ht
      refine framed_applyEach h₀ _ fun o ho t ht hname => hnot ?_
      have heq := Named.inst_containerName_inj (Option.some.inj (ht.symm.trans hname))
      rw [show ordinal = o from congrArg InstanceId.ordinal heq]
      exact ho
    have hothers : Ledger.machine.Yields
        (fun L => (L.Tidy ∧ HasImage m image L) ∧ InPlace host m (k.inst ordinal) ctx image L)
        (applyEach host m k ctx rest)
        fun _ L => L.Tidy ∧ HasImage m image L ∧
          ∀ o ∈ ordinal :: rest, InPlace host m (k.inst o) ctx image L := by
      intro L a L' hL hr
      obtain ⟨⟨htidy, himg⟩, hplaced⟩ := hL
      obtain ⟨htidy', himg', hall⟩ := ih hrest L a L' ⟨htidy, himg⟩ hr
      refine ⟨htidy', himg', fun o ho => ?_⟩
      rcases List.mem_cons.mp ho with rfl | ho
      · exact (hkept L a L' ⟨htidy, hplaced⟩ hr).2
      · exact hall o ho
    refine .bind hfirst fun summary => ?_
    refine .bind hothers fun others => ?_
    exact .pure (Ledger.stable _) fun _ h => h

end Converge

theorem ordinals_nodup (n : UInt32) : (ordinals n).Nodup := by
  unfold ordinals
  refine List.Nodup.map_on (fun i hi j hj h => ?_) List.nodup_range
  have hn := n.toNat_lt
  rw [List.mem_range] at hi hj
  have hmod : ∀ l : Nat, l < n.toNat → (UInt32.ofNat (l + 1)).toNat = l + 1 := by
    intro l hl
    rw [UInt32.toNat_ofNat']
    exact Nat.mod_eq_of_lt (by omega)
  have hnat := congrArg UInt32.toNat h
  rw [hmod i hi, hmod j hj] at hnat
  omega

/-! ## The whole of an apply -/

section Apply

variable {host : Host} {m : ClusterManifest} {k : ClusterId} {image : Image}
  {bootstrap : Bootstrap}

theorem clear_none (k : ClusterId) : Clear .none k := by
  refine ⟨?_, ?_, ?_⟩
  · rintro ⟨⟩
  · rintro ordinal t ⟨⟩
  · rintro ordinal job t ⟨⟩

theorem clear_clusters (k : ClusterId) : Clear .clusters k := by
  refine ⟨?_, ?_, ?_⟩
  · rintro ⟨⟩
  · rintro ordinal t ⟨⟩
  · rintro ordinal job t ⟨⟩

/-- The cluster's row holds this manifest. -/
def OnRecord (k : ClusterId) (m : ClusterManifest) (L : Ledger) : Prop :=
  (L.rows.cluster k.name).map ClusterRecord.manifest = some m

theorem OnRecord.frame {σ : Ledger.Scope} {L L' : Ledger} (h : OnRecord k m L)
    (hframe : Ledger.Frame σ L L') (hσ : σ.cluster k.name) : OnRecord k m L' := by
  unfold OnRecord
  rw [hframe.clusters _ hσ]
  exact h

theorem OnRecord.setPhase {L : Ledger} (h : OnRecord k m L) (c : ClusterId) (phase : ClusterPhase) :
    OnRecord k m (L.withRows (L.rows.updateCluster c.name fun r => { r with phase := phase.asStr })) := by
  have hrow := L.rows.cluster_updateCluster c.name (f := fun r => { r with phase := phase.asStr })
    (fun _ => rfl) k.name
  unfold OnRecord at h ⊢
  change Option.map _ ((L.rows.updateCluster c.name _).cluster k.name) = _
  rw [hrow, Option.map_map, ← h]
  refine congrArg (Option.map · _) (funext fun r => ?_)
  simp only [Function.comp_apply]
  split <;> rfl

theorem onRecord_putCluster {L : Ledger} (hm : m.metadata.name = k.name) (phase : ClusterPhase) :
    OnRecord k m (L.withRows (L.rows.putCluster m phase).2) := by
  unfold OnRecord
  change Option.map _ ((L.rows.putCluster m phase).2.cluster k.name) = _
  rw [← hm]
  unfold Registry.putCluster
  cases hold : L.rows.cluster m.metadata.name with
  | none =>
    have hfind := hold
    unfold Registry.cluster at hfind ⊢
    simp [List.find?_append, hfind]
  | some old =>
    have hname := Registry.name_of_cluster hold
    let generation := if old.manifest = m then old.generation else old.generation + 1
    have hrow := L.rows.cluster_updateCluster m.metadata.name
      (f := fun r => { r with manifest := m, generation, phase := phase.asStr }) (fun _ => rfl)
      m.metadata.name
    simp only [hold, Option.map_some, hname, if_true] at hrow
    exact congrArg (Option.map ClusterRecord.manifest) hrow

/-! ### The walk -/

/-- The network is there, with this subnet. -/
abbrev HasNetwork (k : ClusterId) (cidr : Option String) (L : Ledger) : Prop :=
  L.networks k.networkName = some cidr

theorem yields_onRecord {α : Type} {t : CtlTask α}
    (ht : ∀ L₀ : Ledger, L₀.Tidy → Framed .clusters L₀ t) :
    Ledger.machine.Yields (fun L => L.Tidy ∧ OnRecord k m L) t
      fun _ L => L.Tidy ∧ OnRecord k m L :=
  yields_framed ht fun _ _ h hframe => h.frame hframe trivial

theorem yields_ready {α : Type} {t : CtlTask α} (ht : ∀ L₀ : Ledger, L₀.Tidy → Framed .all L₀ t) :
    Ledger.machine.Yields (fun L => L.Tidy ∧ Ready host k m bootstrap L) t
      fun _ L => L.Tidy ∧ Ready host k m bootstrap L :=
  yields_framed ht fun _ _ h hframe => h.frame hframe trivial fun _ _ _ => trivial

theorem yields_ensureNetwork : Ledger.machine.Yields (fun L => L.Tidy ∧ HasImage m image L)
    (podman (.ensureNetwork k.networkName))
    fun cidr L => (L.Tidy ∧ HasImage m image L) ∧ HasNetwork k cidr L := by
  intro L cidr L' hL hr
  have himage := yields_image (fun _ _ => Ledger.upholds_ensureNetwork (by rintro ⟨⟩)) L cidr L' hL hr
  refine ⟨himage, ?_⟩
  obtain ⟨v, w, hv, hstep, hw⟩ := hr.perform_inv
  rw [Ledger.eq_of_drifts hw] at hstep
  exact hstep.2 cidr rfl

section Json

variable (hjson : ∀ s : InstanceSpec, s.validate host.crates = .ok () →
  host.crates.instanceSpecFromJson (host.crates.instanceSpecToJson s) = .ok s)

include hjson

/-- The recorded half, once the network is known. -/
theorem yields_applyRecorded (bootstrap : Bootstrap) (options : ApplyOptions) (agent : String)
    {desiredImageId : Option String} (himage : desiredImageId = some image.id) :
    Ledger.machine.Yields (fun L => L.Tidy ∧ HasImage m image L)
      (applyRecorded host m k bootstrap options agent desiredImageId)
      fun _ L => L.Tidy ∧ Ready host k m bootstrap L := by
  refine .bind yields_ensureNetwork fun networkCidr => ?_
  have hafter : Ledger.machine.Yields
      (fun L => (L.Tidy ∧ HasImage m image L) ∧ HasNetwork k networkCidr L) (do
        let ensured ← ensureSecrets k m bootstrap
        let summaries ← applyEach host m k
          { bootstrap, networkCidr, secrets := ensured.names, agent, recreate := options.recreate
            desiredImageId } (ordinals m.spec.instances)
        settleInstances k m options ensured.rotate
        pure summaries : CtlTask (List InstanceSummary))
      fun _ L => L.Tidy ∧ Ready host k m bootstrap L := by
    refine .bind (yields_plain (ensureSecrets_plain _ _ _)) fun ensured => ?_
    let ctx : ApplyContext :=
      { bootstrap, networkCidr, secrets := ensured.names, agent, recreate := options.recreate
        desiredImageId }
    have heach : Ledger.machine.Yields
        (fun L => (L.Tidy ∧ HasImage m image L) ∧ HasNetwork k networkCidr L)
        (applyEach host m k ctx (ordinals m.spec.instances))
        fun _ L => L.Tidy ∧ Ready host k m bootstrap L := by
      intro L a L' hL hr
      obtain ⟨⟨htidy, himg⟩, hnet⟩ := hL
      obtain ⟨htidy', himg', hall⟩ :=
        yields_applyEach hjson himage (ordinals_nodup _) L a L' ⟨htidy, himg⟩ hr
      have hframe : Ledger.Frame .networks L L' := by
        refine (framed_applyEach htidy ctx ?_ L _ L' (.refl htidy) hr).1
        rintro o - t ⟨⟩
      exact ⟨htidy', networkCidr, image, (hframe.networks _ trivial).trans hnet, himg', hall⟩
    refine .bind heach fun summaries => ?_
    refine .bind (yields_ready fun _ _ => framed_settleInstances _ _) fun _ => ?_
    exact .pure (Ledger.stable _) fun _ h => h
  split
  · exact .bind (yields_plain (Task.calls_ask trivial)) fun _ => hafter
  · exact hafter

/-- What a success says of the cluster the manifest names. -/
structure Applied (host : Host) (m : ClusterManifest) (b : Bootstrap) (k : ClusterId) (L : Ledger) :
    Prop where
  tidy : L.Tidy
  named : m.clusterId = .ok k
  parameters : validateParameters m = .ok ()
  ready : Ready host k m b L
  row : OnRecord k m L

omit hjson in
theorem yields_applyChecks : Ledger.machine.Yields Ledger.Tidy (applyChecks host m k)
    fun out L => validateParameters m = .ok () ∧
      ∃ image, out.2.2 = some image.id ∧ L.Tidy ∧ HasImage m image L := by
  refine .bind (.ofExcept (Ledger.stable _)) fun _ => .fact fun hparams => ?_
  refine .bind (yields_plain (agentBinary_plain _)) fun agent => ?_
  refine .bind (yields_plain (Task.calls_ask trivial)) fun existing => ?_
  have hpull : Ledger.machine.Yields Ledger.Tidy (podman (.pullImageIfAbsent m.spec.imageName))
      fun _ L => ∃ image, L.Tidy ∧ HasImage m image L := by
    intro L a L' hL hr
    have hframe := (Ledger.upholds_pullImage (σ := .none) _ L _ L' (.refl hL) hr).1
    obtain ⟨v, w, hv, hstep, hw⟩ := hr.perform_inv
    rw [Ledger.eq_of_drifts hw] at hstep
    obtain ⟨image, himage⟩ := Option.isSome_iff_exists.mp (hstep.2 a rfl)
    exact ⟨image, hframe.tidy, himage⟩
  refine .bind hpull fun _ => .of_exists fun image => ?_
  have hid : Ledger.machine.Yields (fun L => L.Tidy ∧ HasImage m image L)
      (podman (.imageId m.spec.imageName))
      fun id L => id = some image.id ∧ L.Tidy ∧ HasImage m image L := by
    refine .ask (Ledger.stable _) (fun _ => Ledger.stable _) fun L id L' hL hstep => ?_
    obtain ⟨rfl, hanswer⟩ := hstep
    refine ⟨?_, hL⟩
    rw [hanswer id rfl, hL.2]
    rfl
  refine .bind hid fun id => .fact fun hid => ?_
  refine .bind (yields_image fun _ h₀ => framed_refuseIncompatibleImage h₀ (clear_none k) _) fun _ => ?_
  exact .pure (Ledger.stable _) fun L hL => ⟨hparams, image, hid, hL⟩

theorem yields_applyAndRecord (hm : m.metadata.name = k.name) (bootstrap : Bootstrap)
    (options : ApplyOptions) (existed : Bool) (agent : String) {desiredImageId : Option String}
    (himage : desiredImageId = some image.id) :
    Ledger.machine.Yields (fun L => L.Tidy ∧ HasImage m image L)
      (applyAndRecord host m k bootstrap options existed agent desiredImageId)
      fun _ L => L.Tidy ∧ Ready host k m bootstrap L ∧ OnRecord k m L := by
  have hput : Ledger.machine.Yields (fun L => L.Tidy ∧ HasImage m image L)
      (registry (.putCluster m .applying))
      fun _ L => (L.Tidy ∧ HasImage m image L) ∧ OnRecord k m L := by
    refine .ask (Ledger.stable _) (fun _ => Ledger.stable _) fun L g L' hL hstep => ?_
    obtain ⟨-, rfl⟩ := hstep
    refine ⟨⟨hL.1.withRows fun r hr => ?_, hL.2⟩, onRecord_putCluster hm _⟩
    rw [Registry.putCluster_instances] at hr
    exact hL.1.rows r hr
  refine .bind hput fun generation => ?_
  refine .bind (yields_plain (Task.calls_ask trivial)) fun _ => ?_
  have hrecorded : Ledger.machine.Yields
      (fun L => (L.Tidy ∧ HasImage m image L) ∧ OnRecord k m L)
      (applyRecorded host m k bootstrap options agent desiredImageId)
      fun _ L => L.Tidy ∧ Ready host k m bootstrap L ∧ OnRecord k m L := by
    intro L a L' hL hr
    obtain ⟨htidy, hready⟩ := yields_applyRecorded hjson bootstrap options agent himage L a L' hL.1 hr
    refine ⟨htidy, hready, (yields_onRecord (fun _ h₀ => ?_) L a L' ⟨hL.1.1, hL.2⟩ hr).2⟩
    exact framed_applyRecorded h₀ (clear_clusters k) _ _ _ _
  refine .bind hrecorded.attempt fun r => ?_
  cases r with
  | error e =>
    refine .bind (J := fun _ _ => True) (fun _ _ _ _ _ => trivial) fun _ => .throw
  | ok summaries =>
    have hphase : Ledger.machine.Yields
        (fun L => ∀ a, Except.ok summaries = (.ok a : Except Error _) →
          L.Tidy ∧ Ready host k m bootstrap L ∧ OnRecord k m L)
        (registry (.setClusterPhase k .running))
        fun _ L => L.Tidy ∧ Ready host k m bootstrap L ∧ OnRecord k m L := by
      refine .ask (Ledger.stable _) (fun _ => Ledger.stable _) fun L a L' hL hstep => ?_
      obtain rfl := hstep
      obtain ⟨htidy, hready, hrow⟩ := hL summaries rfl
      exact ⟨htidy.withRows htidy.rows, hready, hrow.setPhase k .running⟩
    refine .bind hphase fun _ => ?_
    refine .bind (yields_plain (Task.calls_ask trivial)) fun _ => ?_
    exact .pure (Ledger.stable _) fun _ h => h

/-- **What a successful apply leaves behind**: its manifest on record, and every instance with a
container that passes the comparison for it. -/
theorem yields_applyWithBootstrap (bootstrap : Bootstrap) (options : ApplyOptions) :
    Ledger.machine.Yields Ledger.Tidy (applyWithBootstrap host m bootstrap options)
      fun _ L => ∃ k, Applied host m bootstrap k L := by
  refine .bind (.ofExcept (Ledger.stable _)) fun k => .fact fun hk => ?_
  have hk := except_mapError_eq_ok.mp hk
  have hname := (ClusterManifest.clusterId_eq_ok.mp hk).symm
  refine .bind yields_applyChecks fun checked => .fact fun hparams => .of_exists fun image => ?_
  refine .fact fun himage => ?_
  refine (yields_applyAndRecord hjson hname bootstrap options _ _ himage).mono (fun _ h => h) ?_
  exact fun _ L hL => ⟨k, hL.1, hk, hparams, hL.2.1, hL.2.2⟩

end Json

end Apply

/-! ## Restore -/

/-- **What a successful restore leaves behind**: a cluster whose containers are told to recover. -/
theorem yields_restore {H : RestoreHost} {source target : ClusterId} {atTime : Option DateTime}
    {image : Option String} {wait : Duration}
    (hjson : ∀ s : InstanceSpec, s.validate H.crates = .ok () →
      H.crates.instanceSpecFromJson (H.crates.instanceSpecToJson s) = .ok s) :
    Ledger.machine.Yields Ledger.Tidy (restore H source target atTime image wait)
      fun _ L => ∃ m r, Applied H.toHost m (.recovery r) target L := by
  have hfrom : ∀ m info, Ledger.machine.Yields Ledger.Tidy
      (restoreFrom H source target atTime image wait m info)
      fun _ L => ∃ m r, Applied H.toHost m (.recovery r) target L := by
    intro m info
    unfold restoreFrom
    cases info.backupForTarget H.clock atTime with
    | none => exact .throw
    | some chosen =>
      refine .bind (yields_plain (Task.calls_ofExcept _)) fun _ => ?_
      refine .bind (yields_applyWithBootstrap hjson _ _) fun report => ?_
      refine .pure (Ledger.stable _) fun L hL => ?_
      obtain ⟨k, happlied⟩ := hL
      obtain rfl : k = target := ClusterId.ext (ClusterManifest.clusterId_eq_ok.mp happlied.named)
      exact ⟨_, _, happlied⟩
  unfold restore
  split
  · exact .throw
  refine .bind (yields_plain (Task.calls_ask trivial)) fun found => ?_
  cases found with
  | some _ => exact .throw
  | none =>
    refine .bind (yields_plain (requireCluster_plain _)) fun record => ?_
    split
    · exact .throw
    have hinfo : Ledger.machine.Yields Ledger.Tidy (stanzaInfo H.toInstallation source)
        fun _ => Ledger.Tidy :=
      fun L a L' hL hr => (framed_stanzaInfo hL _ _ L _ L' (.refl (σ := .none) hL) hr).1.tidy
    refine .bind hinfo fun answer => ?_
    cases answer with
    | none => exact .throw
    | some info => exact hfrom _ _

end Control

end Pgpod
