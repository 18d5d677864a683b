import Pgpod.Control.Kept
import Pgpod.Control.Makes

/-!
# The image a restored cluster runs

A backup belongs to one major version.  What `restore` compares it with is the
newest entry of the stanza, what it starts is the image of the manifest or the
one it was given.
-/

namespace Pgpod

open Effect

/-- The major version of the PostgreSQL in an image on this host. -/
def World.major (w : World) (image : String) : Option String :=
  (w.images image).bind fun i => majorLabel i.pg.configVersion

namespace Control

/-- The container is an instance's, which is told what to run; a job that looks into a volume or
a repository is not. -/
def IsInstance (c : ContainerSpec) : Prop := SPEC_ENV ∈ c.env.map Prod.fst

instance (c : ContainerSpec) : Decidable (IsInstance c) := inferInstanceAs (Decidable (_ ∈ _))

theorem pgbackrestContainerSpec_not_instance {host : Host} {m : ClusterManifest}
    {cluster : ClusterId} {name : String} {args : List String} {row : InstanceRecord}
    {spec : ContainerSpec} (h : pgbackrestContainerSpec host m cluster name args row = .ok spec) :
    ¬ IsInstance spec := by
  have hsecrets : ∀ (mounts : List (String × String)) (c : ContainerSpec), (mounts.foldl
      (fun c nt => c.addSecret (secretMount m.spec.postgresUid m.spec.postgresGid nt)) c).env = c.env := by
    intro mounts
    induction mounts with
    | nil => exact fun _ => rfl
    | cons nt rest ih => exact fun c => ih _
  unfold pgbackrestContainerSpec at h
  simp only [except_bind_eq_ok] at h
  obtain ⟨bundle, -, h⟩ := h
  rw [← Except.ok.inj h]
  have henv : ∀ c : ContainerSpec, c.env = [] → ¬ IsInstance
      (((credentialSecrets m c).addLabel (Names.LABEL_CLUSTER, cluster.name)).addLabel
        ("pgpod.job", "pgbackrest")) := by
    intro c hc hinst
    have hnone : (credentialSecrets m c).env = [] := (hsecrets _ c).trans hc
    simp [IsInstance, ContainerSpec.addLabel, hnone] at hinst
  apply henv
  cases m.spec.backup.volume <;> rfl

section Restore

variable {A : Agent.Code} {H : RestoreHost} {source target : ClusterId} {atTime : Option DateTime}
  {image : Option String} {wait : Duration}

/-- The containers a restore makes once it has begun are of the restored cluster's image. -/
theorem restoreFrom_makes (m : ClusterManifest) (info : StanzaInfo) :
    (restoreFrom H source target atTime image wait m info).run.Calls
      (Makes fun spec => spec.image = restoredImage m image) := by
  unfold restoreFrom
  cases info.backupForTarget H.clock atTime with
  | none => exact Task.calls_throw _
  | some chosen =>
    refine Task.calls_bind (Task.calls_ofExcept _) fun _ => ?_
    refine Task.calls_bind ?_ fun report => Task.calls_pure _
    exact applyWithBootstrap_makes (P := fun spec => spec.image = restoredImage m image)
      (m := restoredManifest m target image) (fun _ _ _ _ h => containerSpec_image h)
      (fun _ _ _ _ => rfl) _ _

theorem checkVersion_eq_ok {info : StanzaInfo} {chosen : Backup}
    (h : checkVersion source target none info chosen = .ok ()) {backupV currentV : String}
    (hbackup : info.versionOf chosen = some backupV) (hcurrent : info.currentVersion = some currentV) :
    backupV = currentV := by
  by_contra hne
  simp [checkVersion, hbackup, hcurrent, hne] at h

/-- A restore that gets to a container has chosen a backup, and the backup passed the check. -/
theorem restoreFrom_checked {m : ClusterManifest} {info : StanzaInfo} {v t : World} {β : Type}
    {op : CtlOp β} {next : β → Prog CtlOp (Except Error RestoreReport)}
    (h : (hostMachine A).Reach (restoreFrom H source target atTime image wait m info).run v
      (.call op next) t) :
    ∃ chosen, info.backupForTarget H.clock atTime = some chosen ∧
      checkVersion source target image info chosen = .ok () := by
  unfold restoreFrom at h
  cases hchosen : info.backupForTarget H.clock atTime with
  | none =>
    rw [hchosen] at h
    cases h.of_ret.1
  | some chosen =>
    rw [hchosen] at h
    refine ⟨chosen, rfl, ?_⟩
    cases hcheck : checkVersion source target image info chosen with
    | ok u => rfl
    | error e =>
      simp only [hcheck] at h
      cases h.of_ret.1

theorem requireCluster_yields (cluster : ClusterId) (w : World) :
    (hostMachine A).Yields (World.Kept w) (requireCluster cluster) fun record _ =>
      w.registry.cluster cluster.name = some record := by
  have hread : (hostMachine A).Yields (World.Kept w) (registry (.cluster cluster)) fun a u =>
      a = w.registry.cluster cluster.name ∧ w.Kept u :=
    yields_ask (by trivial) fun _ _ _ => cluster_answer
  refine .bind hread fun a => .fact fun ha => ?_
  cases a with
  | none => exact .throw
  | some record => exact .pure (.const _) fun _ _ => ha.symm

/-- Before the repository has answered, a restore makes no instance. -/
theorem restore_reaches_from {w t : World} {spec : ContainerSpec}
    {next : Except Error String → Prog CtlOp (Except Error RestoreReport)}
    (h : (hostMachine A).Reach (restore H source target atTime image wait).run w
      (.call (.podman (.createContainer spec)) next) t) (hinst : IsInstance spec) :
    ∃ record info v, w.registry.cluster source.name = some record ∧
      (hostMachine A).Reach (restore H source target atTime image wait).run w
        (restoreFrom H source target atTime image wait record.manifest info).run v ∧
      (hostMachine A).Reach (restoreFrom H source target atTime image wait record.manifest info).run v
        (.call (.podman (.createContainer spec)) next) t := by
  have hmakes : ∀ {α : Type} {p : CtlTask α} {u v : World}
      {rest : Except Error String → Prog CtlOp (Except Error α)},
      p.run.Calls (Makes fun c => ¬ IsInstance c) →
      ¬ (hostMachine A).Reach p.run u (.call (.podman (.createContainer spec)) rest) v :=
    fun hp hreach => (hreach.calls hp).1 hinst
  unfold restore at h ⊢
  split at h
  · exact absurd h (hmakes (Task.calls_throw _))
  next hne =>
  rw [if_neg hne]
  rcases h.task_bind_call with ⟨_, hreach⟩ | ⟨found, v₁, hfound, h⟩
  · exact absurd hreach (hmakes (Task.calls_ask trivial))
  cases found with
  | some record => exact absurd h (hmakes (Task.calls_throw _))
  | none =>
    rcases h.task_bind_call with ⟨_, hreach⟩ | ⟨record, v₂, hrecord, h⟩
    · exact absurd hreach (hmakes (makes_of_plain (requireCluster_plain _)))
    by_cases henabled : (!record.manifest.spec.backup.isEnabled) = true
    · rw [if_pos henabled] at h
      exact absurd h (hmakes (Task.calls_throw _))
    rw [if_neg henabled] at h
    rcases h.task_bind_call with ⟨_, hreach⟩ | ⟨answer, v₃, hinfo, h⟩
    · exact absurd hreach
        (hmakes (stanzaInfo_makes fun _ _ _ _ _ => pgbackrestContainerSpec_not_instance))
    cases answer with
    | none => exact absurd h (hmakes (Task.calls_throw _))
    | some info =>
      have hkept : w.Kept v₁ :=
        yields_calm w (Task.calls_ask (by trivial)) w none v₁ (.refl w) hfound
      refine ⟨record, info, v₃, requireCluster_yields source w v₁ record v₂ hkept hrecord, ?_, h⟩
      refine (hfound.bind).trans ?_
      refine (hrecord.bind).trans ?_
      simp only [Prog.ret_bind, Task.andThen_ok, if_neg henabled]
      exact hinfo.bind

/-- The manifest, the repository's answer and the backup that an instance of the restored cluster
comes from: the image is the one asked for, or that of the manifest; and then the backup's version
is that of the newest entry of the stanza, where both are recorded. -/
theorem restored_image_version {w t : World} {spec : ContainerSpec}
    {next : Except Error String → Prog CtlOp (Except Error RestoreReport)}
    (h : (hostMachine A).Reach (restore H source target atTime image wait).run w
      (.call (.podman (.createContainer spec)) next) t) (hinst : IsInstance spec) :
    ∃ record info v chosen, w.registry.cluster source.name = some record ∧
      (hostMachine A).Reach (restore H source target atTime image wait).run w
        (restoreFrom H source target atTime image wait record.manifest info).run v ∧
      info.backupForTarget H.clock atTime = some chosen ∧
      (∀ given, image = some given → spec.image = Text.trim given) ∧
      (image = none → spec.image = record.manifest.spec.imageName ∧
        ∀ backupV currentV, info.versionOf chosen = some backupV →
          info.currentVersion = some currentV → backupV = currentV ∧
            (t.major record.manifest.spec.imageName = majorLabel currentV →
              t.major spec.image = majorLabel backupV)) := by
  obtain ⟨record, info, v, hrecord, hfrom, hcall⟩ := restore_reaches_from h hinst
  obtain ⟨chosen, hchosen, hcheck⟩ := restoreFrom_checked hcall
  have himage : spec.image = restoredImage record.manifest image :=
    (hcall.calls (restoreFrom_makes _ _)).1
  refine ⟨record, info, v, chosen, hrecord, hfrom, hchosen, ?_, ?_⟩
  · rintro given rfl
    exact himage
  · rintro rfl
    refine ⟨himage, fun backupV currentV hbackup hcurrent => ?_⟩
    have heq := checkVersion_eq_ok hcheck hbackup hcurrent
    refine ⟨heq, fun hmajor => ?_⟩
    rw [himage, heq]
    exact hmajor

end Restore

namespace RestoreSample

def manifest : ClusterManifest :=
  { minimalManifest 999 with
    spec := { (minimalManifest 999).spec with
      backup := { destinations := [{ url := "s3://wal/mydb" }] } } }

def mydb2 : ClusterId := ⟨"mydb2", by decide⟩

/-- Taken before the upgrade to 18. -/
def older : Backup := ⟨"20260101-000000F", 1767225600, 1⟩

def newer : Backup := ⟨"20260201-000000F", 1769904000, 2⟩

/-- The repository, still with this one backup. -/
def info (b : Backup) : StanzaInfo where
  name := "mydb"
  backup := [b]
  db := [(1, "17"), (2, "18")]

def host (b : Backup) : RestoreHost where
  crates := { minimalHost.crates with isRfc3339 := fun _ => true }
  agentBinary := minimalHost.agentBinary
  pgbackrestBundle := minimalHost.pgbackrestBundle
  bundleInstalled := true
  upgradeSpecToJson _ := .ok ""
  parseInfo _ := .ok [info b]
  rfc3339 _ := ""
  displayUtc _ := ""
  clock _ := StanzaInfo.epoch

def world : World where
  registry :=
    { clusters := [⟨"mydb", manifest, 2, "running"⟩]
      instances := [instanceRecordOf (mydb.inst 1) "pgpod-mydb-1" 40001 (some "c0ffee") .running] }
  images name :=
    if name = "docker.io/library/postgres:18" then some ⟨"sha256:5a1e", Agent.Sample.image18⟩ else none
  secrets name := if Text.startsWith name "pgpod-mydb-" then some "s3cr3t" else none

/-- Every call succeeds, and the repository's job ends. -/
def script : List (CtlChoice ⊕ Drift) :=
  List.replicate 7 (.inl {}) ++ [.inr (.die "id-0" 0), .inl {}, .inl { text := "[]" }] ++
    List.replicate 24 (.inl {})

/-- An instance is handed an image of version 18. -/
def hands18 : ∀ ⦃β : Type⦄, CtlOp β → World → Bool
  | _, .podman (.createContainer spec), w => IsInstance spec && w.major spec.image = some "18"
  | _, _, _ => false

def agentCode : Agent.Code := Agent.Sample.code {}

theorem exists_spec {p : CtlTask RestoreReport}
    (h : Executable.standsAt hands18 ((hostExec agentCode).follow script p.run world) = true) :
    ∃ spec next t, (hostMachine agentCode).Reach p.run world
        (.call (.podman (.createContainer spec)) next) t ∧
      IsInstance spec ∧ t.major spec.image = some "18" := by
  obtain ⟨β, op, next, t, hreach, htest⟩ := (hostExec agentCode).follow_call hands18 script p.run world h
  cases op with
  | registry op => exact absurd htest (by simp [hands18])
  | host op => exact absurd htest (by simp [hands18])
  | podman op =>
    cases op with
    | createContainer spec =>
      simp only [hands18, Bool.and_eq_true, decide_eq_true_eq] at htest
      exact ⟨spec, next, t, hreach, htest⟩
    | _ => exact absurd htest (by simp [hands18])

/-- Of the older backup, onto the image the source runs since its upgrade. -/
def restoring : CtlTask RestoreReport :=
  restore (host older) mydb mydb2 none (some "docker.io/library/postgres:18") ⟨0⟩

/-- **An image that was asked for is not checked**: the backup is of version 17, and the restored
instance is made from the image of version 18. -/
theorem restored_onto_another_major :
    (∃ v, (hostMachine agentCode).Reach restoring.run world
      (restoreFrom (host older) mydb mydb2 none (some "docker.io/library/postgres:18") ⟨0⟩ manifest
        (info older)).run v) ∧
    (info older).backupForTarget (host older).clock none = some older ∧ (info older).versionOf older = some "17" ∧
    ∃ spec next t, (hostMachine agentCode).Reach restoring.run world
        (.call (.podman (.createContainer spec)) next) t ∧
      IsInstance spec ∧ t.major spec.image = some "18" := by
  refine ⟨⟨_, (hostExec agentCode).follow_reach (script.take 11) restoring.run world⟩,
    by decide +kernel, by decide +kernel, ?_⟩
  exact exists_spec (by decide +kernel)

/-- Of the newer backup, onto the image of the manifest. -/
def restoringNewest : CtlTask RestoreReport := restore (host newer) mydb mydb2 none none ⟨0⟩

theorem restored_image_version_newest : ∃ spec next t,
    (hostMachine agentCode).Reach restoringNewest.run world
      (.call (.podman (.createContainer spec)) next) t ∧
    spec.image = "docker.io/library/postgres:18" := by
  obtain ⟨spec, next, t, hreach, hinst, -⟩ :=
    exists_spec (p := restoringNewest) (by decide +kernel)
  obtain ⟨record, info, v, chosen, hrecord, -, -, -, himage⟩ := restored_image_version hreach hinst
  refine ⟨spec, next, t, hreach, ?_⟩
  have hstored : world.registry.cluster mydb.name = some ⟨"mydb", manifest, 2, "running"⟩ := by rfl
  obtain rfl := Option.some.inj (hrecord.symm.trans hstored)
  exact (himage rfl).1

end RestoreSample

end Control

end Pgpod
