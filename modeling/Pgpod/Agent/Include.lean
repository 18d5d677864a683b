import Pgpod.Agent.Bootstrap
import Pgpod.Agent.Swap

/-!
# The include line after an upgrade

`initdb` writes a fresh `postgresql.conf`, so an upgraded cluster needs its
`conf.d` and the line that includes it.  The swap of `upgrade run` ends with
both; the completion of an interrupted swap is one rename and a report, so what
it reports is configured only if the cluster beside PGDATA already was.
-/

namespace Pgpod

open Effect

namespace Agent

def CONF_D : String := "conf.d"

/-- The managed settings take effect: the include line, and the directory it names. -/
def Configured (t : Tree) : Prop := HasInclude t ∧ CONF_D ∈ t.subdirs

def ConfiguredAt (d : Dir) (v : Volume) : Prop := ∃ t, v d = some t ∧ Configured t

theorem ConfiguredAt.of_eq {d d' : Dir} {v v' : Volume} (h : v' d' = v d)
    (hv : ConfiguredAt d v) : ConfiguredAt d' v' := by
  obtain ⟨t, ht, hconf⟩ := hv
  exact ⟨t, h.trans ht, hconf⟩

/-- The run leaves the upgraded cluster at PGDATA if it succeeds: it was not asked for a check
alone, or it finds no PGDATA and finishes the swap of an earlier run. -/
def Attempt.Swaps (A : Code) (a : Attempt) (v : Volume) : Prop :=
  ∃ spec, A.upgradeSpec (a.env UPGRADE_SPEC_ENV) = .ok spec ∧
    (v .pgdata = none ∨ spec.check = false)

namespace Upgrade

/-- Runs of which only the end is asked. -/
abbrev Ends {α : Type} (I : AgentState → Prop) (p : Prog AgentOp α)
    (J : α → AgentState → Prop) : Prop :=
  agentMachine.Triple (fun _ _ _ => True) I p J

theorem ends_anyhow {α : Type} (p : Prog AgentOp α) :
    Ends (fun _ => True) p fun _ _ => True :=
  fun _ _ => .of_reach (fun _ _ _ _ => trivial) fun _ _ _ => trivial

/-! ## The end of the ordinary swap -/

theorem createSubdir_step {dir : Dir} {rel : String} {s t : AgentState}
    (h : agentMachine.step (AgentOp.createSubdir dir rel) s (.ok ()) t) :
    ∃ tr, t.volume dir = some tr ∧ rel ∈ tr.subdirs := by
  obtain ⟨c, hc⟩ := h
  have hc' : (AgentOp.createSubdir dir rel).exec c s = (.ok (), t) := hc
  simp only [AgentOp.exec] at hc'
  split at hc'
  · exact absurd (congrArg Prod.fst hc') (by simp)
  · obtain rfl := congrArg Prod.snd hc'
    exact ⟨_, AgentState.setTree_self _ _ _, by simp⟩

theorem removeDirAll_step {d d' : Dir} {s t : AgentState} {r : Except String Unit}
    (hout : d.within d' = false) (h : agentMachine.step (AgentOp.removeDirAll d) s r t) :
    t.volume d' = s.volume d' := by
  obtain ⟨c, hc⟩ := h
  have hc' : (AgentOp.removeDirAll d).exec c s = (r, t) := hc
  simp only [AgentOp.exec] at hc'
  split at hc'
  · obtain rfl := congrArg Prod.snd hc'
    have hne : d' ≠ d := by
      rintro rfl
      simp [Dir.within] at hout
    exact AgentState.setTree_ne s _ hne
  · obtain rfl := congrArg Prod.snd hc'
    simp [hout]

theorem report_keeps (spec : UpgradeSpec) (oldDataDir : String) (seconds : Nat)
    {P : Volume → Prop} :
    Ends (fun s => P s.volume) (report spec oldDataDir seconds).run fun _ s => P s.volume := by
  have hstep : ∀ (s : AgentState) (r : Unit) (t : AgentState) (rep : Report), P s.volume →
      agentMachine.step (AgentOp.print rep) s r t → P t.volume := by
    rintro s r t rep hs ⟨c, hc⟩
    obtain rfl := congrArg Prod.snd hc
    exact hs
  exact .call (stable _) (fun _ _ => trivial) (fun s r t hs hop => hstep s r t _ hs hop)
    fun _ => .ret (stable _) fun _ hs => hs

theorem finish_configures (spec : UpgradeSpec) (oldDir : Dir) (seconds : Nat) :
    Ends (fun _ => True) (finish spec oldDir seconds).run
      fun r s => r = .ok () → ConfiguredAt .pgdata s.volume := by
  have hsubdir : Ends (fun _ => True) (context "failed to create /pgdata/pgdata/conf.d"
      (Task.ask (.createSubdir .pgdata "conf.d"))).run
      fun r s => r = .ok () → ∃ tr, s.volume .pgdata = some tr ∧ CONF_D ∈ tr.subdirs := by
    refine triple_ask (fun _ _ => trivial) ?_ fun _ _ _ _ => by simp
    rintro s r t - hstep rfl
    exact createSubdir_step hstep
  refine Machine.Triple.task_bind hsubdir (fun _ => ?_) (fun _ => stable _) fun _ _ _ => by simp
  have happend : Ends (fun s => ∃ tr, s.volume .pgdata = some tr ∧ CONF_D ∈ tr.subdirs)
      (appendIncludeDir .pgdata).run fun r s => r = .ok () → ConfiguredAt .pgdata s.volume := by
    rintro s ⟨tr, htr, hmem⟩
    refine (appendIncludeDir_writes tr (fun _ => trivial) (fun _ _ => trivial) s htr).weaken ?_
    intro r t hwrites hok
    obtain ⟨t', ht', hinclude, hsubdirs, -⟩ := hwrites hok
    exact ⟨t', ht', hinclude, hsubdirs ▸ hmem⟩
  refine Machine.Triple.task_bind (happend.strengthen fun s hs => hs rfl) (fun _ => ?_)
    (fun _ => stable _) fun _ _ _ => by simp
  have hscratch : Ends (fun s => ConfiguredAt .pgdata s.volume)
      (.perform (AgentOp.removeDirAll .upgrade)) fun _ s => ConfiguredAt .pgdata s.volume :=
    .perform (stable _) (fun _ => stable _) (fun _ _ => trivial)
      fun s r t hs hstep => hs.of_eq (removeDirAll_step (by decide) hstep)
  refine .strengthen ?_ fun s hs => hs rfl
  refine Machine.Triple.attempt_bind hscratch fun _ => ?_
  exact (report_keeps spec _ _).weaken fun _ _ hs _ => hs

theorem upgradeInPlace_configures {spec : UpgradeSpec} (hcheck : spec.check = false) :
    Ends (fun _ => True) (upgradeInPlace spec).run
      fun r s => r = .ok () → ConfiguredAt .pgdata s.volume := by
  have hafter : ∀ {α : Type} {t : AgentTask α} {f : α → AgentTask Unit},
      (∀ a, Ends (fun _ => True) (f a).run
        fun r s => r = .ok () → ConfiguredAt .pgdata s.volume) →
      Ends (fun _ => True) (t >>= f).run fun r s => r = .ok () → ConfiguredAt .pgdata s.volume :=
    fun hf => Machine.Triple.task_bind (ends_anyhow _) hf (fun _ => stable _) fun _ _ _ => by simp
  refine hafter fun control => hafter fun seconds => ?_
  rw [hcheck]
  exact hafter fun now => hafter fun _ => finish_configures spec _ seconds

/-! ## The completion of an interrupted swap -/

/-- The cluster beside PGDATA is reported as it stands. -/
theorem completeSwap_moves (spec : UpgradeSpec) (v : Volume) :
    Ends (fun s => s.volume = v) (completeSwap spec).run
      fun r s => r = .ok () → s.volume .pgdata = v .pgdataNew := by
  have hmove : Ends (fun s => s.volume = v) (context "failed to complete the interrupted swap"
      (Task.ask (.rename .pgdataNew .pgdata))).run
      fun r s => r = .ok () → s.volume .pgdata = v .pgdataNew := by
    refine triple_ask (fun _ _ => trivial) ?_ fun _ _ _ _ => by simp
    rintro s r t rfl hstep rfl
    obtain ⟨e, he, -⟩ | ⟨tr, htr, -, rfl⟩ := rename_step hstep
    · cases he
    · exact (AgentState.setTree_self _ _ _).trans htr.symm
  refine Machine.Triple.task_bind hmove (fun _ => ?_) (fun _ => stable _) fun _ _ _ => by simp
  exact ((report_keeps spec "" 0 (P := fun w => w .pgdata = v .pgdataNew)).strengthen
    fun s hs => hs rfl).weaken fun _ _ hs _ => hs

/-- Without PGDATA there is nothing to upgrade in place. -/
theorem upgradeInPlace_fails (spec : UpgradeSpec) :
    Ends (fun s => s.volume .pgdata = none) (upgradeInPlace spec).run fun r _ => r ≠ .ok () := by
  have hread : Ends (fun s => s.volume .pgdata = none) (readPgVersion .pgdata).run
      fun r _ => ∀ version, r ≠ .ok version := by
    have hfile : Ends (fun s => s.volume .pgdata = none)
        (context ("failed to read " ++ (Dir.pgdata.path ++ "/" ++ Tree.PG_VERSION) ++
          " — is this a data directory?") (Task.ask (.readFile .pgdata Tree.PG_VERSION))).run
        fun r _ => ∀ lines, r ≠ .ok lines := by
      refine triple_ask (fun _ _ => trivial) ?_ fun _ _ _ _ => by simp
      rintro s r t hnone hstep lines rfl
      obtain ⟨-, tr, htr, -⟩ := readFile_step hstep
      rw [hnone] at htr
      cases htr
    refine Machine.Triple.task_bind hfile (fun raw => ?_) (fun _ => stable _) fun _ _ _ => by simp
    exact fun s hs => absurd rfl (hs raw)
  have hpreflight : Ends (fun s => s.volume .pgdata = none) (preflight spec).run
      fun r _ => ∀ control, r ≠ .ok control := by
    refine Machine.Triple.task_bind hread (fun version => ?_) (fun _ => stable _)
      fun _ _ _ => by simp
    exact fun s hs => absurd rfl (hs version)
  refine Machine.Triple.task_bind hpreflight (fun control => ?_) (fun _ => stable _)
    fun _ _ _ => by simp
  exact fun s hs => absurd rfl (hs control)

/-! ## `upgrade run` -/

theorem dirExists_answers {d : Dir} (v : Volume) :
    Ends (fun s => s.volume = v) (Task.perform (.dirExists d) : AgentTask Bool).run
      fun r s => s.volume = v ∧ r = .ok (v d).isSome := by
  have hstep : ∀ (s : AgentState) (b : Bool) (t : AgentState), s.volume = v →
      agentMachine.step (AgentOp.dirExists d) s b t → t.volume = v ∧ b = (v d).isSome := by
    rintro s b t rfl hstep
    obtain ⟨rfl, rfl⟩ := dirExists_step hstep
    exact ⟨rfl, rfl⟩
  exact .call (stable _) (fun _ _ => trivial) hstep
    fun b => .ret (stable _) fun s hs => ⟨hs.1, by rw [hs.2]⟩

theorem isCluster_answers (d : Dir) (v : Volume) :
    Ends (fun s => s.volume = v) (isCluster d).run fun _ s => s.volume = v := by
  have hfile : ∀ rel, Ends (fun s => s.volume = v)
      (Task.perform (.isFile d rel) : AgentTask Bool).run fun _ s => s.volume = v := by
    intro rel
    have hstep : ∀ (s : AgentState) (b : Bool) (t : AgentState), s.volume = v →
        agentMachine.step (AgentOp.isFile d rel) s b t → t.volume = v := by
      intro s b t hs hstep
      obtain ⟨-, rfl⟩ := isFile_step hstep
      exact hs
    exact .call (stable _) (fun _ _ => trivial) hstep fun _ => .ret (stable _) fun _ hs => hs
  refine Machine.Triple.task_bind (hfile _) (fun _ => ?_) (fun _ => stable _) fun _ _ hs => hs
  refine Machine.Triple.task_bind (hfile _) (fun _ => ?_) (fun _ => stable _) fun _ _ hs => hs
  exact .ret (stable _) fun _ hs => hs

/-- What a successful run that swaps leaves at PGDATA depends on where it started. -/
theorem run_configures (decode : Option String → Except SpecError UpgradeSpec) {spec : UpgradeSpec}
    {env : String → Option String} (hspec : decode (env UPGRADE_SPEC_ENV) = .ok spec) (v : Volume)
    (hswaps : v .pgdata = none ∨ spec.check = false) :
    Ends (fun s => s.env = env ∧ s.volume = v) (run decode).run fun r s => r = .ok () →
      ((v .pgdata).isSome → ConfiguredAt .pgdata s.volume) ∧
        (v .pgdata = none → s.volume .pgdata = v .pgdataNew) := by
  refine Machine.Triple.task_bind (readEnv_answers UPGRADE_SPEC_ENV fun _ => trivial)
    (fun raw => ?_) (fun _ => stable _) fun _ _ _ => by simp
  refine Machine.Triple.task_bind (J := fun r s => r = .ok spec ∧ s.volume = v) ?_
    (fun spec' => ?_) (fun _ => stable _) fun _ _ _ => by simp
  · rintro s ⟨hraw, hv⟩
    rw [Except.ok.inj hraw, hspec]
    exact Machine.Triple.ret (stable _) (fun t ht => ⟨rfl, ht⟩) s hv
  rintro s ⟨hsame, hv⟩
  obtain rfl := Except.ok.inj hsame
  refine Machine.Triple.task_bind (dirExists_answers v) (fun present => ?_) (fun _ => stable _)
    (fun _ _ _ => by simp) s hv
  rintro s ⟨hv, hpresent⟩
  rw [Except.ok.inj hpresent]
  cases hpgdata : v .pgdata with
  | some tr =>
    have hcheck : spec'.check = false := hswaps.resolve_left (by simp [hpgdata])
    exact (upgradeInPlace_configures hcheck s trivial).weaken
      fun r t hend hok => ⟨fun _ => hend hok, by simp⟩
  | none =>
    refine Machine.Triple.task_bind (isCluster_answers .pgdataNew v) (fun upgraded => ?_)
      (fun _ => stable _) (fun _ _ _ => by simp) s hv
    cases upgraded with
    | true => exact (completeSwap_moves spec' v).weaken fun r t hend hok => ⟨by simp, fun _ => hend hok⟩
    | false =>
      rintro s rfl
      exact (upgradeInPlace_fails spec' s hpgdata).weaken fun r t hend hok => absurd hok hend

end Upgrade

/-- **What an upgrade reports is configured exactly when PGDATA was there**, or the cluster found
beside it was configured already: wherever the runs before it stopped. -/
theorem upgraded_pgdata_configured (A : Code) (a : Attempt) (hjob : a.job = .upgradeRun)
    (v : Volume) (hswaps : a.Swaps A v) (code : Int) (s : AgentState)
    (hends : (campaign A).Stands a v (.ret (.ok code)) s) :
    ConfiguredAt .pgdata s.volume ↔ (v .pgdata).isSome ∨ ConfiguredAt .pgdataNew v := by
  obtain ⟨spec, hspec, hswaps⟩ := hswaps
  have hreach : agentMachine.Reach (main A .upgradeRun).run (a.enter v) (.ret (.ok code)) s := by
    rw [← hjob]
    exact hends
  obtain ⟨⟨⟩, w, hrun, hret⟩ | ⟨e, he, -⟩ := hreach.task_bind_inv
  · obtain ⟨hpresent, hmissing⟩ :=
      (Upgrade.run_configures A.upgradeSpec hspec v hswaps (a.enter v) ⟨rfl, rfl⟩).at_ret hrun rfl
    have hsame : s = w := (Machine.Stable.drifts (stable fun t => t = w) hret.of_ret.2 rfl)
    rw [hsame]
    cases hpgdata : v .pgdata with
    | some tr => simpa [hpgdata] using hpresent (by simp [hpgdata])
    | none =>
      have hmoved := hmissing hpgdata
      simp only [Option.isSome_none, Bool.false_eq_true, false_or]
      exact ⟨fun h => h.of_eq hmoved.symm, fun h => h.of_eq hmoved⟩
  · cases he

namespace Sample

/-- **A swap that was interrupted is completed and reported without its configuration**: killed
between its renames, `upgrade run` is started again and succeeds. -/
theorem interrupted_swap_completed_unconfigured :
    (campaign (code {})).History (fun _ _ _ _ => True) volume17 betweenRenames ∧
    (attempt .upgradeRun image18).Swaps (code {}) betweenRenames ∧
    ∃ s, (campaign (code {})).Stands (attempt .upgradeRun image18) betweenRenames
      (.ret (.ok 0)) s ∧ s.reports.length = 1 ∧ ¬ ConfiguredAt .pgdata s.volume := by
  refine ⟨.attempt .refl (agentExec.follow_reach upToSecondRename _ _) trivial,
    ⟨upgradeSpec, rfl, .inr rfl⟩, (agentExec.follow (List.replicate 6 (.inl {}))
      ((campaign (code {})).program (attempt .upgradeRun image18))
      ((attempt .upgradeRun image18).enter betweenRenames)).2, ?_, by decide +kernel, ?_⟩
  · exact agentExec.follow_reach (List.replicate 6 (.inl {})) _ _
  · have hsubdirs : (completed .pgdata).map Tree.subdirs = some [] := by decide +kernel
    rintro ⟨t, ht, -, hmem⟩
    have hcompleted : completed .pgdata = some t := ht
    rw [hcompleted, Option.map_some, Option.some.injEq] at hsubdirs
    rw [hsubdirs] at hmem
    cases hmem

/-- `upgrade run` to its end. -/
def toTheEnd : List (AgentChoice ⊕ Empty) := upToSecondRename ++ List.replicate 6 (.inl {})

/-- An upgrade that nothing interrupts leaves the configuration in place. -/
theorem upgraded_pgdata_configured_at_once :
    ∃ s, (campaign (code {})).Stands (attempt .upgradeRun image18) volume17 (.ret (.ok 0)) s ∧
      ConfiguredAt .pgdata s.volume := by
  have hends : (campaign (code {})).Stands (attempt .upgradeRun image18) volume17 (.ret (.ok 0))
      (agentExec.follow toTheEnd ((campaign (code {})).program (attempt .upgradeRun image18))
        ((attempt .upgradeRun image18).enter volume17)).2 :=
    agentExec.follow_reach toTheEnd _ _
  exact ⟨_, hends, (upgraded_pgdata_configured (code {}) (attempt .upgradeRun image18) rfl volume17
    ⟨upgradeSpec, rfl, .inr rfl⟩ 0 _ hends).mpr (.inl rfl)⟩

end Sample

end Agent

end Pgpod
