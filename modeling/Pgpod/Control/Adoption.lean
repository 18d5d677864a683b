import Pgpod.Control.ContainerSpec

/-!
# When an adopted container is the one the manifest describes

`apply` adopts an existing container when `refuseIfDiverged` finds nothing to
refuse.  The comparison reads the instance spec back from the container's
environment and compares image IDs; the container itself is built from more of
the manifest than that.  This file derives exactly which manifests it cannot
tell apart.
-/

namespace Pgpod

namespace Control

/-! ## Inversion of the two builders -/

theorem instanceSpec_eq_ok {host : Host} {m : ClusterManifest} {inst : InstanceId}
    {ctx : ApplyContext} {s : InstanceSpec} :
    instanceSpec host m inst ctx = .ok s ↔
      s = buildInstanceSpec m inst ctx ∧ s.validate host.crates = .ok () := by
  simp only [instanceSpec]
  split
  · next hv =>
    constructor
    · rintro ⟨⟩
      exact ⟨rfl, hv⟩
    · rintro ⟨rfl, -⟩
      rfl
  · next e hv =>
    constructor
    · rintro ⟨⟩
    · rintro ⟨rfl, hok⟩
      cases hv.symm.trans hok

/-- The mounts that depend on the backup section. -/
def backupMounts (host : Host) (m : ClusterManifest) (s : InstanceSpec) : List Mount :=
  (if s.backup.isEnabled || s.recovery.isSome then
    [.bindReadOnly host.pgbackrestBundle Container.PGBACKREST_BUNDLE] else []) ++
  (archiveVolume m).toList.map fun v => .volume v Container.ARCHIVE_MOUNT false

/-- Every secret the container mounts, and where. -/
def secretMounts (m : ClusterManifest) (secrets : SecretNames) : List (String × String) :=
  roleMounts m secrets ++ credentialMounts 0 m.spec.backup.destinations

/-- The container of a validated spec. -/
def assemble (host : Host) (m : ClusterManifest) (inst : InstanceId) (ctx : ApplyContext)
    (hostPort : UInt16) (s : InstanceSpec) : ContainerSpec where
  name := some inst.containerName
  image := m.spec.imageName
  entrypoint := [Container.AGENT_BIN, "instance", "run"]
  env := [(SPEC_ENV, host.crates.instanceSpecToJson s)]
  mounts := [.tmpfs "/tmp", .tmpfs SECRETS_DIR,
    .volume inst.volumeName Container.VOLUME_MOUNT false,
    .bindReadOnly ctx.agent Container.AGENT_BIN] ++ backupMounts host m s
  labels := Names.instanceLabels inst
  user := some (toString m.spec.postgresUid.toNat ++ ":" ++ toString m.spec.postgresGid.toNat)
  networks := [inst.cluster.networkName]
  portPublishes := [.loopback hostPort 5432]
  secrets := (secretMounts m ctx.secrets).map (secretMount m.spec.postgresUid m.spec.postgresGid)
  capDrop := ["ALL"]
  noNewPrivileges := true
  readOnlyFs := true
  hostname := some inst.containerName

theorem foldl_addSecret (f : String × String → SecretMount) (mounts : List (String × String))
    (c : ContainerSpec) :
    mounts.foldl (fun c nt => c.addSecret (f nt)) c =
      { c with secrets := c.secrets ++ mounts.map f } := by
  induction mounts generalizing c with
  | nil => simp
  | cons nt rest ih =>
    rw [List.foldl_cons, ih]
    simp [ContainerSpec.addSecret]

/-- The bundle is needed exactly by a cluster that archives or is being restored. -/
def NeedsBundle (s : InstanceSpec) : Prop := (s.backup.isEnabled || s.recovery.isSome) = true

instance (s : InstanceSpec) : Decidable (NeedsBundle s) :=
  inferInstanceAs (Decidable (_ = true))

theorem addBackupMounts_eq_ok {host : Host} {m : ClusterManifest} {s : InstanceSpec}
    {c c' : ContainerSpec} :
    addBackupMounts host m s c = .ok c' ↔
      (NeedsBundle s → host.bundleInstalled = true) ∧
        c' = { c with mounts := c.mounts ++ backupMounts host m s } := by
  unfold addBackupMounts pgbackrestBundle backupMounts NeedsBundle
  by_cases hneeds : (s.backup.isEnabled || s.recovery.isSome) = true
  · by_cases hinst : host.bundleInstalled = true
    · cases archiveVolume m <;>
        simp only [hneeds, hinst, if_true, bind, Except.bind, pure, Except.pure,
          ContainerSpec.addMount, Except.ok.injEq, Option.toList, List.map, List.append_assoc,
          List.append_nil, forall_const, true_and] <;>
        exact eq_comm
    · simp [hneeds, hinst, bind, Except.bind]
  · cases archiveVolume m <;>
      simp only [hneeds, bind, Except.bind, pure, Except.pure, ContainerSpec.addMount,
        Except.ok.injEq, Option.toList, List.map, Bool.false_eq_true, if_false, List.nil_append,
        List.append_nil, false_imp_iff, true_and] <;>
      exact eq_comm

/-- **Inversion of `containerSpec`**: it succeeds exactly when the spec validates and the
bundle is there if it is needed, and then the container is the assembled one. -/
theorem containerSpec_eq_ok {host : Host} {m : ClusterManifest} {inst : InstanceId}
    {ctx : ApplyContext} {hostPort : UInt16} {c : ContainerSpec} :
    containerSpec host m inst ctx hostPort = .ok c ↔
      ∃ s, instanceSpec host m inst ctx = .ok s ∧
        (NeedsBundle s → host.bundleInstalled = true) ∧
        c = assemble host m inst ctx hostPort s := by
  unfold containerSpec
  cases hs : instanceSpec host m inst ctx with
  | error e => simp [bind, Except.bind]
  | ok s =>
    have hvalid := (instanceSpec_eq_ok.mp hs).2
    have henv : s.toEnvValue host.crates = .ok (host.crates.instanceSpecToJson s) := by
      simp [InstanceSpec.toEnvValue, hvalid, bind, Except.bind, pure, Except.pure]
    simp only [henv, bind, Except.bind, Except.mapError, pure, Except.pure, foldl_addSecret]
    constructor
    · intro h
      split at h
      · cases h
      · next c' hadd =>
        obtain ⟨hinst, hc'⟩ := addBackupMounts_eq_ok.mp hadd
        refine ⟨s, rfl, hinst, ?_⟩
        rw [← Except.ok.inj h, hc']
        rfl
    · rintro ⟨s', hs', hinst, rfl⟩
      cases hs'
      rw [addBackupMounts_eq_ok.mpr ⟨hinst, rfl⟩]
      rfl

theorem containerSpec_name {host : Host} {m : ClusterManifest} {inst : InstanceId}
    {ctx : ApplyContext} {port : UInt16} {spec : ContainerSpec}
    (h : containerSpec host m inst ctx port = .ok spec) : spec.name = some inst.containerName := by
  obtain ⟨s, -, -, rfl⟩ := containerSpec_eq_ok.mp h
  rfl

theorem containerSpec_image {host : Host} {m : ClusterManifest} {inst : InstanceId}
    {ctx : ApplyContext} {port : UInt16} {spec : ContainerSpec}
    (h : containerSpec host m inst ctx port = .ok spec) : spec.image = m.spec.imageName := by
  obtain ⟨s, -, -, rfl⟩ := containerSpec_eq_ok.mp h
  rfl

/-! ## What the comparison sees -/

/-- **Inversion of `refuseIfDiverged`** on a container that carries a readable spec. -/
theorem refuseIfDiverged_eq_ok {host : Host} {m : ClusterManifest} {inst : InstanceId}
    {ctx : ApplyContext} {probe : ContainerProbe} {raw : String} {running : InstanceSpec}
    (hraw : probe.envVar SPEC_ENV = some raw)
    (hjson : host.crates.instanceSpecFromJson raw = .ok running) :
    refuseIfDiverged host m inst ctx probe = .ok () ↔
      instanceSpec host m inst ctx = .ok running ∧ imageChange m ctx probe = none := by
  simp only [refuseIfDiverged, hraw, hjson, bind, Except.bind, Except.mapError]
  cases hs : instanceSpec host m inst ctx with
  | error e => simp
  | ok desired =>
    cases hchange : imageChange m ctx probe with
    | some change => simp
    | none =>
      by_cases heq : running = desired
      · simp [heq]
      · simp [heq, Ne.symm heq]

theorem imageChange_eq_none {m : ClusterManifest} {ctx : ApplyContext} {probe : ContainerProbe} :
    imageChange m ctx probe = none ↔
      ∀ desired running, ctx.desiredImageId = some desired → probe.imageId = some running →
        desired = running := by
  unfold imageChange
  cases hd : ctx.desiredImageId with
  | none => simp
  | some desired =>
    cases hr : probe.imageId with
    | none => simp
    | some running => by_cases h : desired = running <;> simp [h]

/-! ## What the comparison does not see -/

theorem credentialMounts_index {index : Nat} {dests : List Destination} {nt : String × String}
    (h : nt ∈ credentialMounts index dests) :
    ∃ i, index ≤ i ∧ nt.2 = Destination.credentialsPath i := by
  induction dests generalizing index with
  | nil => simp [credentialMounts] at h
  | cons d rest ih =>
    unfold credentialMounts at h
    have hrest : nt ∈ credentialMounts (index + 1) rest →
        ∃ i, index ≤ i ∧ nt.2 = Destination.credentialsPath i := by
      intro hmem
      obtain ⟨i, hi, hpath⟩ := ih hmem
      exact ⟨i, by omega, hpath⟩
    cases hc : d.credentials with
    | none => exact hrest (by simpa [hc] using h)
    | some secret =>
      rcases List.mem_cons.mp (by simpa [hc] using h) with rfl | hmem
      · exact ⟨index, Nat.le_refl _, rfl⟩
      · exact hrest hmem

theorem credentialsPath_inj {i j : Nat}
    (h : Destination.credentialsPath i = Destination.credentialsPath j) : i = j := by
  unfold Destination.credentialsPath at h
  have htail : (toString i).toList = (toString j).toList := by
    simpa [String.toList_append] using congrArg String.toList h
  exact Text.toString_inj (String.toList_injective htail)

/-- Equal credential mounts come from equal credentials, destination by destination. -/
theorem credentials_of_mounts {index : Nat} {ds es : List Destination}
    (hlen : ds.length = es.length)
    (h : credentialMounts index ds = credentialMounts index es) :
    ds.map Destination.credentials = es.map Destination.credentials := by
  induction ds generalizing es index with
  | nil => cases es with
    | nil => rfl
    | cons e es => cases hlen
  | cons d ds ih => cases es with
    | nil => cases hlen
    | cons e es =>
      have hlen' : ds.length = es.length := by simpa using hlen
      -- a mount at this index cannot come from a later destination
      have hlater : ∀ {ds' : List Destination} {secret : String} {rest},
          credentialMounts (index + 1) ds' ≠
            (secret, Destination.credentialsPath index) :: rest := by
        intro ds' secret rest heq
        obtain ⟨i, hi, hpath⟩ := credentialMounts_index
          (heq ▸ List.mem_cons_self : (secret, Destination.credentialsPath index) ∈ _)
        have := credentialsPath_inj hpath
        omega
      unfold credentialMounts at h
      cases hd : d.credentials with
      | none => cases he : e.credentials with
        | none =>
          simp only [hd, he] at h
          simp [hd, he, ih hlen' h]
        | some t =>
          simp only [hd, he] at h
          exact absurd h hlater
      | some s => cases he : e.credentials with
        | none =>
          simp only [hd, he] at h
          exact absurd h.symm hlater
        | some t =>
          simp only [hd, he, List.cons.injEq, Prod.mk.injEq] at h
          simp [hd, he, h.1.1, ih hlen' h.2]

theorem credentialMounts_congr {index : Nat} {ds es : List Destination}
    (h : ds.map Destination.credentials = es.map Destination.credentials) :
    credentialMounts index ds = credentialMounts index es := by
  induction ds generalizing es index with
  | nil => cases es with
    | nil => rfl
    | cons e es => cases h
  | cons d ds ih => cases es with
    | nil => cases h
    | cons e es =>
      simp only [List.map_cons, List.cons.injEq] at h
      unfold credentialMounts
      rw [h.1, ih h.2]

theorem appOwner_not_credential (i : Nat) :
    Container.SECRET_APP_OWNER ≠ Destination.credentialsPath i := by
  intro h
  have hchars := congrArg (fun s : String => s.toList.drop 19) h
  have htail : (Destination.credentialsPath i).toList.drop 19 =
      "store-".toList ++ (toString i).toList := by
    unfold Destination.credentialsPath
    rw [String.toList_append]
    rfl
  rw [htail] at hchars
  simp [Container.SECRET_APP_OWNER] at hchars

/-- The secrets that two manifests mount are the same exactly when both or neither ask for
an application database and the destinations name the same credentials. -/
theorem secretMounts_eq_iff {m₁ m₂ : ClusterManifest} (secrets : SecretNames)
    (hlen : m₁.spec.backup.destinations.length = m₂.spec.backup.destinations.length) :
    secretMounts m₁ secrets = secretMounts m₂ secrets ↔
      m₁.spec.bootstrap.initdb.database.isSome = m₂.spec.bootstrap.initdb.database.isSome ∧
        m₁.spec.backup.destinations.map Destination.credentials =
          m₂.spec.backup.destinations.map Destination.credentials := by
  have hnot : ∀ (ds es : List Destination),
      (secrets.appOwner, Container.SECRET_APP_OWNER) :: credentialMounts 0 ds ≠
        credentialMounts 0 es := by
    intro ds es heq
    obtain ⟨i, -, hpath⟩ := credentialMounts_index
      (heq ▸ List.mem_cons_self : (secrets.appOwner, Container.SECRET_APP_OWNER) ∈ _)
    exact appOwner_not_credential i hpath
  unfold secretMounts roleMounts
  constructor
  · intro h
    cases h₁ : m₁.spec.bootstrap.initdb.database.isSome <;>
      cases h₂ : m₂.spec.bootstrap.initdb.database.isSome <;>
      simp only [h₁, h₂, List.cons_append, List.nil_append, if_true, List.cons.injEq,
        true_and, Bool.false_eq_true, if_false] at h
    · exact ⟨rfl, credentials_of_mounts hlen h⟩
    · exact absurd h.symm (hnot _ _)
    · exact absurd h (hnot _ _)
    · exact ⟨rfl, credentials_of_mounts hlen h⟩
  · rintro ⟨hdb, hcreds⟩
    rw [hdb, credentialMounts_congr hcreds]

/-! ## Adoption -/

/-- What one host and one operation fix for every manifest: how PGDATA is populated, the
network, the agent and what image names resolve to. -/
structure ApplySetting where
  bootstrapOf : ClusterManifest → Bootstrap
  networkCidr : Option String
  secrets : SecretNames
  agent : String
  recreate : Bool
  imageId : String → Option String

namespace ApplySetting

def context (S : ApplySetting) (m : ClusterManifest) : ApplyContext where
  bootstrap := S.bootstrapOf m
  networkCidr := S.networkCidr
  secrets := S.secrets
  agent := S.agent
  recreate := S.recreate
  desiredImageId := S.imageId m.spec.imageName

end ApplySetting

/-- Two containers agree up to the image's name, images being compared by ID. -/
def SameUpToImage (S : ApplySetting) (c₁ c₂ : ContainerSpec) : Prop :=
  { c₁ with image := "" } = { c₂ with image := "" } ∧ S.imageId c₁.image = S.imageId c₂.image

/-- What of a manifest the agent's spec carries. -/
def carried (S : ApplySetting) (m : ClusterManifest) :
    Bootstrap × List (String × String) × List String × BackupSpec :=
  (S.bootstrapOf m, m.parameters, m.spec.postgresql.sharedPreloadLibraries, sanitizedBackup m)

/-- The comparison has something to see: a field of the agent's spec, or two known image
IDs, differ. -/
def Distinguishable (S : ApplySetting) (m₁ m₂ : ClusterManifest) : Prop :=
  carried S m₁ ≠ carried S m₂ ∨
    ∃ a b, S.imageId m₁.spec.imageName = some a ∧ S.imageId m₂.spec.imageName = some b ∧ a ≠ b

/-- The fields of the manifest that shape the container and are not in the agent's spec. -/
def AgreeOutsideSpec (S : ApplySetting) (m₁ m₂ : ClusterManifest) : Prop :=
  m₁.spec.postgresUid = m₂.spec.postgresUid ∧ m₁.spec.postgresGid = m₂.spec.postgresGid ∧
  m₁.spec.bootstrap.initdb.database.isSome = m₂.spec.bootstrap.initdb.database.isSome ∧
  m₁.spec.backup.destinations.map Destination.credentials =
    m₂.spec.backup.destinations.map Destination.credentials ∧
  S.imageId m₁.spec.imageName = S.imageId m₂.spec.imageName

theorem buildInstanceSpec_eq_iff {S : ApplySetting} {inst : InstanceId}
    {m₁ m₂ : ClusterManifest} :
    buildInstanceSpec m₁ inst (S.context m₁) = buildInstanceSpec m₂ inst (S.context m₂) ↔
      carried S m₁ = carried S m₂ := by
  simp only [buildInstanceSpec, ApplySetting.context, carried, InstanceSpec.mk.injEq,
    Prod.mk.injEq, true_and]
  constructor
  · rintro ⟨hboot, hparams, hlibs, -, hbackup⟩
    exact ⟨hboot, hparams, hlibs, hbackup⟩
  · rintro ⟨hboot, hparams, hlibs, hbackup⟩
    exact ⟨hboot, hparams, hlibs, by rw [hbackup], hbackup⟩

/-- On equal specs, the containers agree up to the image exactly when the manifests agree
outside the spec. -/
theorem assemble_same_iff (host : Host) {S : ApplySetting} (inst : InstanceId) (port : UInt16)
    {m₁ m₂ : ClusterManifest} (s : InstanceSpec) (hcarried : carried S m₁ = carried S m₂) :
    SameUpToImage S (assemble host m₁ inst (S.context m₁) port s)
        (assemble host m₂ inst (S.context m₂) port s) ↔
      AgreeOutsideSpec S m₁ m₂ := by
  have hbackup : sanitizedBackup m₁ = sanitizedBackup m₂ := congrArg (·.2.2.2) hcarried
  have hlen : m₁.spec.backup.destinations.length = m₂.spec.backup.destinations.length := by
    have h := congrArg (fun b : BackupSpec => b.destinations.length) hbackup
    simpa [sanitizedBackup] using h
  have hvolume : archiveVolume m₁ = archiveVolume m₂ := by
    have h : (sanitizedBackup m₁).volume = (sanitizedBackup m₂).volume := by rw [hbackup]
    exact h
  unfold AgreeOutsideSpec
  constructor
  · rintro ⟨hcontainer, himage⟩
    have hsecrets := congrArg ContainerSpec.secrets hcontainer
    simp only [assemble, ApplySetting.context] at hsecrets
    -- the superuser's mount is always first and carries the uid and the gid
    have hhead := congrArg List.head? hsecrets
    simp only [secretMounts, roleMounts, List.cons_append, List.map_cons, List.head?_cons,
      secretMount, Option.some.injEq, SecretMount.mk.injEq, true_and] at hhead
    obtain ⟨huid, hgid⟩ := hhead
    rw [huid, hgid] at hsecrets
    have hinj : Function.Injective (secretMount m₂.spec.postgresUid m₂.spec.postgresGid) := by
      intro a b hab
      simp only [secretMount, SecretMount.mk.injEq] at hab
      exact Prod.ext hab.1 hab.2.1
    have hmounts := (secretMounts_eq_iff S.secrets hlen).mp (List.map_injective_iff.mpr hinj hsecrets)
    exact ⟨huid, hgid, hmounts.1, hmounts.2, himage⟩
  · rintro ⟨huid, hgid, hdb, hcreds, himage⟩
    have hmounts := (secretMounts_eq_iff S.secrets hlen).mpr ⟨hdb, hcreds⟩
    refine ⟨?_, himage⟩
    simp only [assemble, ApplySetting.context, backupMounts, hvolume, huid, hgid, hmounts]

section Adopted

variable {host : Host} {S : ApplySetting} {inst : InstanceId} {port : UInt16}
  {m₁ m₂ : ClusterManifest} {c₁ : ContainerSpec} {probe : ContainerProbe}
  (hcreate : containerSpec host m₁ inst (S.context m₁) port = .ok c₁)
  (henv : probe.env = c₁.envLines) (himage : probe.imageId = S.imageId c₁.image)
  (hjson : ∀ s, instanceSpec host m₁ inst (S.context m₁) = .ok s →
    host.crates.instanceSpecFromJson (host.crates.instanceSpecToJson s) = .ok s)

include hcreate henv himage hjson

/-- The comparison passes exactly when the manifests are indistinguishable to it. -/
theorem refuse_passes_iff :
    refuseIfDiverged host m₂ inst (S.context m₂) probe = .ok () ↔ ¬ Distinguishable S m₁ m₂ := by
  obtain ⟨s, hs, -, rfl⟩ := containerSpec_eq_ok.mp hcreate
  have hraw : probe.envVar SPEC_ENV = some (host.crates.instanceSpecToJson s) :=
    ContainerProbe.envVar_of_env henv
  obtain ⟨hbuild, hvalid⟩ := instanceSpec_eq_ok.mp hs
  rw [refuseIfDiverged_eq_ok hraw (hjson s hs), instanceSpec_eq_ok, imageChange_eq_none]
  have himage' : probe.imageId = S.imageId m₁.spec.imageName := himage
  have hspec : s = buildInstanceSpec m₂ inst (S.context m₂) ↔ carried S m₁ = carried S m₂ := by
    rw [hbuild]
    exact buildInstanceSpec_eq_iff
  unfold Distinguishable
  rw [hspec, himage']
  constructor
  · rintro ⟨⟨hcarried, -⟩, hids⟩ (hne | ⟨a, b, ha, hb, hne⟩)
    · exact hne hcarried
    · exact hne (hids b a hb ha).symm
  · intro h
    refine ⟨⟨not_not.mp fun hne => h (.inl hne), hvalid⟩, fun b a hb ha => ?_⟩
    exact not_not.mp fun hne => h (.inr ⟨a, b, ha, hb, Ne.symm hne⟩)

/-- **Adoption, exactly**: a container made from `m₁` that `apply` adopts for `m₂` is the one
`m₂` describes, up to the image's name, if and only if the comparison can tell the two apart
or they agree on the user, the group, the credentials, the presence of an application database
and the image ID. -/
theorem adopted_container_agrees_iff :
    (refuseIfDiverged host m₂ inst (S.context m₂) probe = .ok () →
        ∃ c₂, containerSpec host m₂ inst (S.context m₂) port = .ok c₂ ∧ SameUpToImage S c₁ c₂) ↔
      Distinguishable S m₁ m₂ ∨ AgreeOutsideSpec S m₁ m₂ := by
  rw [refuse_passes_iff hcreate henv himage hjson]
  by_cases hdist : Distinguishable S m₁ m₂
  · simp [hdist]
  obtain ⟨s, hs, hbundle, rfl⟩ := containerSpec_eq_ok.mp hcreate
  obtain ⟨hbuild, hvalid⟩ := instanceSpec_eq_ok.mp hs
  have hcarried : carried S m₁ = carried S m₂ := not_not.mp fun hne => hdist (.inl hne)
  have hs₂ : instanceSpec host m₂ inst (S.context m₂) = .ok s :=
    instanceSpec_eq_ok.mpr ⟨hbuild.trans (buildInstanceSpec_eq_iff.mpr hcarried), hvalid⟩
  have hc₂ : containerSpec host m₂ inst (S.context m₂) port =
      .ok (assemble host m₂ inst (S.context m₂) port s) :=
    containerSpec_eq_ok.mpr ⟨s, hs₂, hbundle, rfl⟩
  rw [or_iff_right hdist, ← assemble_same_iff host inst port s hcarried]
  constructor
  · intro h
    obtain ⟨c₂, hok, hsame⟩ := h hdist
    rw [hc₂] at hok
    exact Except.ok.inj hok ▸ hsame
  · exact fun hsame _ => ⟨_, hc₂, hsame⟩

end Adopted

/-! ## An edited user that `apply` reports as converged -/

/-- The minimal manifest, with the user its image runs as. -/
def minimalManifest (uid : UInt32) : ClusterManifest where
  apiVersion := "pgpod/v1"
  kind := "Cluster"
  metadata := ⟨"mydb"⟩
  spec :=
    { imageName := "docker.io/library/postgres:18", postgresUid := uid, postgresGid := uid }

def mydb : ClusterId := ⟨"mydb", mydb_valid⟩

/-- The spec both manifests send to the agent, and its JSON. -/
def minimalSpec : InstanceSpec where
  inst := mydb.inst 1
  port := 5432
  bootstrap := .initdb {}
  parameters := []
  sharedPreloadLibraries := []
  networkCidr := some "10.89.0.0/24"
  archiveCommand := none
  backup := {}

def minimalSpecJson : String :=
  "\x7b\"instance\":\x7b\"cluster\":\"mydb\",\"ordinal\":1\x7d,\"port\":5432," ++
  "\"bootstrap\":\x7b\"mode\":\"initdb\",\"database\":null,\"owner\":null," ++
  "\"encoding\":\"UTF8\",\"locale\":\"C\",\"options\":[]\x7d,\"parameters\":[]," ++
  "\"shared_preload_libraries\":[],\"network_cidr\":\"10.89.0.0/24\"," ++
  "\"archive_command\":null,\"backup\":\x7b\"destinations\":[]," ++
  "\"retentionMode\":\"report\"\x7d\x7d"

def minimalHost : Host where
  crates :=
    { isRfc3339 := fun _ => false
      instanceSpecToJson := fun s => if s = minimalSpec then minimalSpecJson else ""
      instanceSpecFromJson := fun raw =>
        if raw = minimalSpecJson then .ok minimalSpec else .error "expected value" }
  agentBinary := "/home/pg/.local/share/pgpod/bin/pgpod-agent-x86_64"
  pgbackrestBundle := "/home/pg/.local/share/pgpod/pgbackrest-x86_64"
  bundleInstalled := false

def minimalSetting : ApplySetting where
  bootstrapOf m := .initdb m.spec.bootstrap.initdb
  networkCidr := some "10.89.0.0/24"
  secrets := .forCluster mydb
  agent := minimalHost.agentBinary
  recreate := false
  imageId _ := some "sha256:5a1e"

def minimalContainer (uid : UInt32) : ContainerSpec :=
  assemble minimalHost (minimalManifest uid) (mydb.inst 1)
    (minimalSetting.context (minimalManifest uid)) 40001 minimalSpec

def minimalProbe : ContainerProbe where
  id := "c0ffee"
  name := some "pgpod-mydb-1"
  running := true
  status := some "running"
  exitCode := none
  env := (minimalContainer 999).envLines
  imageId := some "sha256:5a1e"
  imageName := some "docker.io/library/postgres:18"

theorem minimal_instanceSpec (uid : UInt32) :
    instanceSpec minimalHost (minimalManifest uid) (mydb.inst 1)
      (minimalSetting.context (minimalManifest uid)) = .ok minimalSpec := rfl

theorem minimalSpec_json :
    minimalHost.crates.instanceSpecFromJson (minimalHost.crates.instanceSpecToJson minimalSpec) =
      .ok minimalSpec := by
  simp [minimalHost]

theorem minimal_roundTrip (uid : UInt32) (s : InstanceSpec)
    (hs : instanceSpec minimalHost (minimalManifest uid) (mydb.inst 1)
      (minimalSetting.context (minimalManifest uid)) = .ok s) :
    minimalHost.crates.instanceSpecFromJson (minimalHost.crates.instanceSpecToJson s) = .ok s := by
  rw [minimal_instanceSpec] at hs
  cases hs
  exact minimalSpec_json

theorem minimal_not_distinguishable {m m' : ClusterManifest}
    (hcarried : carried minimalSetting m = carried minimalSetting m') :
    ¬ Distinguishable minimalSetting m m' := by
  rintro (hne | ⟨a, b, ha, hb, hne⟩)
  · exact hne hcarried
  · exact hne (Option.some.inj (ha.symm.trans hb))

theorem minimal_containerSpec (uid : UInt32) :
    containerSpec minimalHost (minimalManifest uid) (mydb.inst 1)
      (minimalSetting.context (minimalManifest uid)) 40001 = .ok (minimalContainer uid) :=
  containerSpec_eq_ok.mpr ⟨minimalSpec, minimal_instanceSpec uid, by decide, rfl⟩

/-- **A changed user is adopted**: the container of a manifest with `postgresUid: 999` passes
the comparison for the same manifest with `postgresUid: 26`, whose container is another one. -/
theorem changed_user_is_adopted :
    (minimalManifest 999).validate = .ok () ∧ (minimalManifest 26).validate = .ok () ∧
    containerSpec minimalHost (minimalManifest 999) (mydb.inst 1)
      (minimalSetting.context (minimalManifest 999)) 40001 = .ok (minimalContainer 999) ∧
    minimalProbe.env = (minimalContainer 999).envLines ∧
    refuseIfDiverged minimalHost (minimalManifest 26) (mydb.inst 1)
      (minimalSetting.context (minimalManifest 26)) minimalProbe = .ok () ∧
    ¬ ∃ c₂, containerSpec minimalHost (minimalManifest 26) (mydb.inst 1)
        (minimalSetting.context (minimalManifest 26)) 40001 = .ok c₂ ∧
      SameUpToImage minimalSetting (minimalContainer 999) c₂ := by
  refine ⟨rfl, rfl, minimal_containerSpec 999, rfl, ?_, ?_⟩
  · exact (refuse_passes_iff (minimal_containerSpec 999) rfl rfl (minimal_roundTrip 999)).mpr
      (minimal_not_distinguishable rfl)
  rintro ⟨c₂, hok, hsame, -⟩
  rw [minimal_containerSpec 26] at hok
  cases hok
  have huser := congrArg ContainerSpec.user hsame
  exact absurd huser (by decide)

/-- The minimal manifest, with its image under another name. -/
def renamedManifest : ClusterManifest :=
  { minimalManifest 999 with
    spec := { (minimalManifest 999).spec with imageName := "localhost/postgres:18" } }

/-- Where the other name is of the same image, the container adopted is the one described. -/
theorem adopted_container_agrees_iff_renamed :
    (minimalManifest 999).spec.imageName ≠ renamedManifest.spec.imageName ∧
    refuseIfDiverged minimalHost renamedManifest (mydb.inst 1)
      (minimalSetting.context renamedManifest) minimalProbe = .ok () ∧
    ∃ c₂, containerSpec minimalHost renamedManifest (mydb.inst 1)
        (minimalSetting.context renamedManifest) 40001 = .ok c₂ ∧
      SameUpToImage minimalSetting (minimalContainer 999) c₂ := by
  have hpasses : refuseIfDiverged minimalHost renamedManifest (mydb.inst 1)
      (minimalSetting.context renamedManifest) minimalProbe = .ok () :=
    (refuse_passes_iff (minimal_containerSpec 999) rfl rfl (minimal_roundTrip 999)).mpr
      (minimal_not_distinguishable rfl)
  refine ⟨by decide, hpasses, ?_⟩
  exact (adopted_container_agrees_iff (minimal_containerSpec 999) rfl rfl
    (minimal_roundTrip 999)).mpr (.inr ⟨rfl, rfl, rfl, rfl, rfl⟩) hpasses

end Control

end Pgpod
