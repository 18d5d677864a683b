import Pgpod.Control.Framed

/-!
# A cluster whose containers `apply` would leave as they are

`Fits` is the comparison of `refuseIfDiverged` itself, passed by a container
whatever a probe of it shows besides.  `Ready` says so of every instance of a
cluster, on the network and with the image that the host has now.
-/

namespace Pgpod

open Effect

namespace Control

/-! ## One container -/

/-- A comparison that passes has read the spec that is asked for. -/
theorem refuseIfDiverged_inv {host : Host} {m : ClusterManifest} {inst : InstanceId}
    {ctx : ApplyContext} {p : ContainerProbe} (h : refuseIfDiverged host m inst ctx p = .ok ()) :
    ∃ raw running, p.envVar SPEC_ENV = some raw ∧
      host.crates.instanceSpecFromJson raw = .ok running ∧
      instanceSpec host m inst ctx = .ok running ∧ imageChange m ctx p = none := by
  cases hraw : p.envVar SPEC_ENV with
  | none => simp [refuseIfDiverged, hraw] at h
  | some raw =>
    cases hjson : host.crates.instanceSpecFromJson raw with
    | error e =>
      simp only [refuseIfDiverged, hraw, hjson] at h
      cases hs : instanceSpec host m inst ctx <;>
        simp [hs, bind, Except.bind, Except.mapError] at h
    | ok running => exact ⟨raw, running, rfl, hjson, (refuseIfDiverged_eq_ok hraw hjson).mp h⟩

/-- What the comparison reads of the context and of the probe. -/
theorem refuseIfDiverged_congr {host : Host} {m : ClusterManifest} {inst : InstanceId}
    {ctx ctx' : ApplyContext} {p p' : ContainerProbe} (hboot : ctx'.bootstrap = ctx.bootstrap)
    (hcidr : ctx'.networkCidr = ctx.networkCidr)
    (himage : ctx'.desiredImageId = ctx.desiredImageId) (henv : p'.env = p.env)
    (hid : p'.imageId = p.imageId) (h : refuseIfDiverged host m inst ctx p = .ok ()) :
    refuseIfDiverged host m inst ctx' p' = .ok () := by
  have hbuild : buildInstanceSpec m inst ctx' = buildInstanceSpec m inst ctx := by
    simp only [buildInstanceSpec, hboot, hcidr]
  have hspec : instanceSpec host m inst ctx' = instanceSpec host m inst ctx := by
    simp only [instanceSpec, hbuild]
  have hraw : p'.envVar SPEC_ENV = p.envVar SPEC_ENV := by
    simp only [ContainerProbe.envVar, henv]
  obtain ⟨raw, running, hp, hjson, hs, hchange⟩ := refuseIfDiverged_inv h
  refine (refuseIfDiverged_eq_ok (hraw.trans hp) hjson).mpr ⟨hspec.trans hs, ?_⟩
  rw [imageChange_eq_none] at hchange ⊢
  intro desired running' hd hr
  exact hchange desired running' (himage ▸ hd) (hid ▸ hr)

/-- The instance spec that a container of this spec was started with, if it is readable. -/
def runs (host : Host) (c : ContainerSpec) : Option InstanceSpec :=
  (c.envLines.findSome? fun e => Text.stripPrefix e (SPEC_ENV ++ "=")).bind fun raw =>
    (host.crates.instanceSpecFromJson raw).toOption

/-- The container passes the comparison with what `m` asks for now. -/
def Fits (host : Host) (m : ClusterManifest) (inst : InstanceId) (b : Bootstrap)
    (cidr : Option String) (image : Image) (t : Tag) : Prop :=
  ∀ (ctx : ApplyContext) (p : ContainerProbe), ctx.bootstrap = b → ctx.networkCidr = cidr →
    ctx.desiredImageId = some image.id → Ledger.Shows t p →
    refuseIfDiverged host m inst ctx p = .ok ()

section Fits

variable {host : Host} {m : ClusterManifest} {inst : InstanceId} {ctx : ApplyContext}
  {image : Image} {t : Tag}

/-- A container that was adopted fits. -/
theorem fits_of_refuse {p : ContainerProbe} (h : refuseIfDiverged host m inst ctx p = .ok ())
    (hshows : Ledger.Shows t p) (himage : ctx.desiredImageId = some image.id) :
    Fits host m inst ctx.bootstrap ctx.networkCidr image t := by
  obtain ⟨-, henv, hid⟩ := hshows
  intro ctx' p' hboot hcidr himage' hshows'
  obtain ⟨-, henv', hid'⟩ := hshows'
  exact refuseIfDiverged_congr hboot hcidr (himage'.trans himage.symm) (henv'.trans henv.symm)
    (hid'.trans hid.symm) h

/-- A container that was made for the manifest fits. -/
theorem fits_of_container
    (hjson : ∀ s : InstanceSpec, s.validate host.crates = .ok () →
      host.crates.instanceSpecFromJson (host.crates.instanceSpecToJson s) = .ok s)
    {port : UInt16} (h : containerSpec host m inst ctx port = .ok t.spec) (himage : t.image = image) :
    Fits host m inst ctx.bootstrap ctx.networkCidr image t := by
  obtain ⟨s, hs, -, hspec⟩ := containerSpec_eq_ok.mp h
  intro ctx' p hboot hcidr hid hshows
  obtain ⟨-, henv, hpid⟩ := hshows
  have hraw : p.envVar SPEC_ENV = some (host.crates.instanceSpecToJson s) := by
    refine ContainerProbe.envVar_of_env ?_
    rw [henv, hspec]
    rfl
  obtain ⟨rfl, hvalid⟩ := instanceSpec_eq_ok.mp hs
  refine (refuseIfDiverged_eq_ok hraw (hjson _ hvalid)).mpr ⟨?_, ?_⟩
  · refine instanceSpec_eq_ok.mpr ⟨?_, hvalid⟩
    simp only [buildInstanceSpec, hboot, hcidr]
  · rw [imageChange_eq_none]
    intro desired running hd hr
    rw [hid] at hd
    rw [hpid, himage] at hr
    exact (Option.some.inj hd).symm.trans (Option.some.inj hr)

/-- A container that fits was started the way the manifest asks for. -/
theorem Fits.runs {b : Bootstrap} {cidr : Option String} (h : Fits host m inst b cidr image t) :
    ∃ s, runs host t.spec = some s ∧ s.bootstrap = b := by
  let ctx : ApplyContext :=
    { bootstrap := b, networkCidr := cidr, secrets := .forCluster inst.cluster, agent := ""
      recreate := false, desiredImageId := some image.id }
  let p : ContainerProbe :=
    { id := t.id, name := none, running := true, status := none, exitCode := none
      env := t.spec.envLines, imageId := some t.image.id, imageName := none }
  have hpass := h ctx p rfl rfl rfl ⟨rfl, rfl, rfl⟩
  obtain ⟨raw, running, hraw, hjson, hspec, -⟩ := refuseIfDiverged_inv hpass
  have hlines : (t.spec.envLines.findSome? fun e => Text.stripPrefix e (SPEC_ENV ++ "=")) =
      some raw := hraw
  refine ⟨running, ?_, ?_⟩
  · simp [Control.runs, hlines, hjson, Except.toOption]
  · rw [(instanceSpec_eq_ok.mp hspec).1]
    rfl

end Fits

/-! ## The instances of a cluster -/

/-- The instance has a container, and that fits. -/
def Placed (host : Host) (m : ClusterManifest) (inst : InstanceId) (b : Bootstrap)
    (cidr : Option String) (image : Image) (L : Ledger) : Prop :=
  ∃ t ∈ L.shelf, t.spec.name = some inst.containerName ∧ Fits host m inst b cidr image t

/-- On the network and with the image that are there now, every instance has a container
that fits. -/
def Ready (host : Host) (k : ClusterId) (m : ClusterManifest) (b : Bootstrap) (L : Ledger) : Prop :=
  ∃ cidr image, L.networks k.networkName = some cidr ∧ L.images m.spec.imageName = some image ∧
    ∀ ordinal ∈ ordinals m.spec.instances, Placed host m (k.inst ordinal) b cidr image L

section Ready

variable {host : Host} {m : ClusterManifest} {inst : InstanceId} {b : Bootstrap}
  {cidr : Option String} {image : Image} {σ : Ledger.Scope} {L L' : Ledger}

theorem Placed.frame (h : Placed host m inst b cidr image L) (hframe : Ledger.Frame σ L L')
    (hσ : ∀ t, t.spec.name = some inst.containerName → σ.tag t) :
    Placed host m inst b cidr image L' := by
  obtain ⟨t, ht, hname, hfits⟩ := h
  exact ⟨t, hframe.tags t ht (hσ t hname), hname, hfits⟩

theorem Ready.frame {k : ClusterId} (h : Ready host k m b L) (hframe : Ledger.Frame σ L L')
    (hnet : σ.network k.networkName)
    (hσ : ∀ ordinal t, t.spec.name = some (k.inst ordinal).containerName → σ.tag t) :
    Ready host k m b L' := by
  obtain ⟨cidr, image, hcidr, himage, hplaced⟩ := h
  refine ⟨cidr, image, (hframe.networks _ hnet).trans hcidr, hframe.images _ _ himage, ?_⟩
  exact fun ordinal ho => (hplaced ordinal ho).frame hframe (hσ ordinal)

/-- The container of a placed instance, by its name. -/
theorem Placed.find (h : Placed host m inst b cidr image L) (htidy : L.Tidy) :
    ∃ t, L.find inst.containerName = some t ∧ Fits host m inst b cidr image t := by
  obtain ⟨t, ht, hname, hfits⟩ := h
  exact ⟨t, htidy.find_of_name ht hname, hfits⟩

end Ready

/-! ## What tasks establish -/

section Yields

variable {α : Type} {P : Ledger → Prop} {t : CtlTask α} {σ : Ledger.Scope}

theorem yields_plain (ht : t.run.Calls Plain) : Ledger.machine.Yields P t fun _ => P :=
  .of_calls (Ledger.stable P)
    (fun _ _ _ _ _ hplain hs hstep => Ledger.step_plain hplain hstep ▸ hs) ht

/-- What only depends on what a task leaves alone still holds afterwards. -/
theorem yields_framed (ht : ∀ L₀ : Ledger, L₀.Tidy → Framed σ L₀ t)
    (hP : ∀ L L', P L → Ledger.Frame σ L L' → P L') :
    Ledger.machine.Yields (fun L => L.Tidy ∧ P L) t fun _ L => L.Tidy ∧ P L := by
  rintro L a L' ⟨htidy, hL⟩ hr
  have hframe := (ht L htidy L _ L' (.refl htidy) hr).1
  exact ⟨hframe.tidy, hP L L' hL hframe⟩

end Yields

end Control

end Pgpod
