import Pgpod.Agent.Upgrade

/-!
# What most of the agent's work leaves alone

Almost every operation of the agent is `Quiet`: it keeps the version file, the
control file, `postgresql.conf` and the database of every data directory that
exists.  The programs built from quiet operations only are listed here once, so
that an argument about a data directory looks at `initdb`, the restore, the
statements, `pg_upgrade` and the renames, and at nothing else.
-/

namespace Pgpod

open Effect

namespace Dir

/-- The directories that can hold a cluster. -/
def isData : Dir → Bool
  | pgdata | pgdataNew | pgdataOld _ => true
  | _ => false

end Dir

namespace Tree

/-- The files that decide what a data directory is. -/
def vital : List String := [PG_VERSION, PG_CONTROL, POSTGRESQL_CONF]

/-- Two data directories with the same vital files and the same database. -/
structure SameCore (t t' : Tree) : Prop where
  files : ∀ rel ∈ vital, t'.files rel = t.files rel
  db : t'.db = t.db

namespace SameCore

theorem refl (t : Tree) : SameCore t t := ⟨fun _ _ => rfl, rfl⟩

theorem trans {t u v : Tree} (h : SameCore t u) (h' : SameCore u v) : SameCore t v :=
  ⟨fun rel hrel => (h'.files rel hrel).trans (h.files rel hrel), h'.db.trans h.db⟩

theorem writeFile {t : Tree} {rel : String} {lines : Option (List String)} (h : rel ∉ vital) :
    SameCore t (t.writeFile rel lines) :=
  ⟨fun _ hr => Tree.writeFile_files_ne t lines (ne_of_mem_of_not_mem hr h), rfl⟩

theorem isInitialised {t t' : Tree} (h : SameCore t t') :
    t'.isInitialised = t.isInitialised := by
  simp only [Tree.isInitialised, h.files PG_VERSION (by simp [vital])]

theorem isCluster {t t' : Tree} (h : SameCore t t') : t'.isCluster = t.isCluster := by
  simp only [Tree.isCluster, h.files PG_VERSION (by simp [vital]),
    h.files PG_CONTROL (by simp [vital])]

end SameCore

end Tree

/-- A directory that is there stays with its core, and one that comes into being is empty. -/
def Tree.Grows : Option Tree → Option Tree → Prop
  | some t, some t' => Tree.SameCore t t'
  | some _, none => False
  | none, some t' => Tree.SameCore Tree.empty t'
  | none, none => True

namespace Tree.Grows

theorem refl (o : Option Tree) : Tree.Grows o o := by
  cases o with
  | none => trivial
  | some t => exact Tree.SameCore.refl t

end Tree.Grows

/-- No data directory of `s` has lost its core in `t`, and none has gained one. -/
def Frame (s t : AgentState) : Prop :=
  ∀ d, d.isData = true → Tree.Grows (s.volume d) (t.volume d)

namespace Frame

theorem of_volume {s t : AgentState} (h : t.volume = s.volume) : Frame s t :=
  fun d _ => by rw [h]; exact .refl _

/-- A data directory is still there, with its core. -/
theorem kept {s t : AgentState} (h : Frame s t) {d : Dir} (hd : d.isData = true) {tr : Tree}
    (htr : s.volume d = some tr) : ∃ tr', t.volume d = some tr' ∧ Tree.SameCore tr tr' := by
  have hgrows := h d hd
  rw [htr] at hgrows
  cases ht : t.volume d with
  | none => rw [ht] at hgrows; exact hgrows.elim
  | some tr' => rw [ht] at hgrows; exact ⟨tr', rfl, hgrows⟩

theorem setTree {s : AgentState} {d : Dir} {new : Option Tree}
    (h : d.isData = true → Tree.Grows (s.volume d) new) : Frame s (s.setTree d new) := by
  intro d' hd'
  by_cases heq : d' = d
  · subst heq
    rw [AgentState.setTree_self]
    exact h hd'
  · rw [AgentState.setTree_ne s _ heq]
    exact .refl _

theorem onTree {s : AgentState} {d : Dir} {f : Tree → Tree}
    (h : d.isData = true → ∀ tr, Tree.SameCore tr (f tr)) : Frame s (AgentOp.onTree s d f) := by
  refine setTree fun hd => ?_
  cases s.volume d with
  | none => trivial
  | some tr => exact h hd tr

end Frame

namespace AgentOp

/-- The operation moves no data directory, runs nothing that rewrites one, writes none of its
vital files, and does not start the server for good. -/
def Quiet : ∀ ⦃β : Type⦄, AgentOp β → Prop
  | _, .writeFile d rel _ | _, .appendFile d rel _ | _, .removeFile d rel =>
    d.isData = true → rel ∉ Tree.vital
  | _, .renameFile d src dst => d.isData = true → src ∉ Tree.vital ∧ dst ∉ Tree.vital
  | _, .removeDirAll d => ∀ d', d'.isData = true → d.within d' = false
  | _, .rename .. | _, .initdb .. | _, .pgUpgrade .. | _, .psql .. | _, .pgbackrestRestore ..
  | _, .spawnPostgres => False
  | _, _ => True

theorem exec_quiet {β : Type} {op : AgentOp β} (h : op.Quiet) (c : AgentChoice)
    (s : AgentState) : Frame s (op.exec c s).2 := by
  have hkeep : ∀ {d : Dir} {rel : String} {f : Tree → Option (List String)},
      (d.isData = true → rel ∉ Tree.vital) →
      Frame s (onTree s d fun t => t.writeFile rel (f t)) :=
    fun hrel => .onTree fun hd _ => .writeFile (hrel hd)
  cases op with
  | createDirAll d =>
    simp only [exec]
    split
    · exact .of_volume rfl
    · refine .setTree fun _ => ?_
      cases s.volume d with
      | none => exact Tree.SameCore.refl _
      | some tr => exact Tree.SameCore.refl _
  | createSubdir d rel =>
    simp only [exec]
    split
    · exact .of_volume rfl
    · refine .setTree fun _ => ?_
      cases s.volume d with
      | none => exact ⟨fun _ _ => rfl, rfl⟩
      | some tr => exact ⟨fun _ _ => rfl, rfl⟩
  | writeFile d rel lines =>
    simp only [exec]
    split
    · split
      · exact hkeep h
      · exact .of_volume rfl
    · exact hkeep h
  | appendFile d rel lines =>
    simp only [exec]
    split
    · exact hkeep h
    · exact hkeep h
  | renameFile d src dst =>
    simp only [exec]
    split
    · exact .of_volume rfl
    · exact .onTree fun hd _ =>
        (Tree.SameCore.writeFile (h hd).2).trans (.writeFile (h hd).1)
  | removeFile d rel =>
    simp only [exec]
    split
    · exact .of_volume rfl
    · exact hkeep h
  | removeDirAll d =>
    simp only [exec]
    split
    · refine .setTree fun hd => absurd (h d hd) ?_
      simp [Dir.within]
    · intro d' hd'
      simp only [h d' hd']
      exact .refl _
  | rename | initdb | pgUpgrade | psql | pgbackrestRestore | spawnPostgres => exact h.elim
  | pgConfig =>
    simp only [exec]
    split
    · exact .of_volume rfl
    · split <;> exact .of_volume rfl
  | pgCtlStart =>
    simp only [exec]
    split
    · exact .of_volume rfl
    · split <;> exact .of_volume rfl
  | pgCtlStop =>
    simp only [exec]
    split
    · exact .of_volume rfl
    · refine .of_volume ?_
      split <;> rfl
  | readEnv | readMount | dirExists | isFile | readFile | readDir | setPermissions
  | copyInstallation | stagedPgCtlVersion | stagedControlData | stanzaCreate | supervise | stamp
  | elapsed | print => exact .of_volume rfl

theorem quiet_step {β : Type} {op : AgentOp β} (h : op.Quiet) {s t : AgentState} {b : β}
    (hstep : agentMachine.step op s b t) : Frame s t := by
  obtain ⟨c, hc⟩ := hstep
  have hframe := exec_quiet h c s
  rw [show t = (op.exec c s).2 from (congrArg Prod.snd hc).symm]
  exact hframe

/-- Quiet, and no data directory comes into being. -/
def Still : ∀ ⦃β : Type⦄, AgentOp β → Prop
  | _, .createDirAll d | _, .createSubdir d _ => d.isData = false
  | _, op => op.Quiet

theorem Still.quiet {β : Type} {op : AgentOp β} (h : op.Still) : op.Quiet := by
  cases op <;> first | exact h | trivial

theorem onTree_none {s : AgentState} {d d' : Dir} {f : Tree → Tree}
    (h : s.volume d' = none) : (onTree s d f).volume d' = none := by
  by_cases heq : d' = d
  · subst heq
    simp [onTree, h]
  · simpa [onTree, AgentState.setTree_ne s _ heq] using h

theorem exec_still {β : Type} {op : AgentOp β} (h : op.Still) (c : AgentChoice)
    (s : AgentState) {d : Dir} (hd : d.isData = true) (hnone : s.volume d = none) :
    (op.exec c s).2.volume d = none := by
  have hset : ∀ {d' : Dir} (t : Option Tree), d'.isData = false →
      (s.setTree d' t).volume d = none := by
    intro d' t hd'
    rw [AgentState.setTree_ne s t (by rintro rfl; simp [hd] at hd')]
    exact hnone
  cases op with
  | createDirAll d' =>
    simp only [exec]
    split
    · exact hnone
    · exact hset _ h
  | createSubdir d' rel =>
    simp only [exec]
    split
    · exact hnone
    · exact hset _ h
  | writeFile d' rel lines =>
    simp only [exec]
    split
    · split
      · exact onTree_none hnone
      · exact hnone
    · exact onTree_none hnone
  | appendFile d' rel lines =>
    simp only [exec]
    split <;> exact onTree_none hnone
  | renameFile d' src dst =>
    simp only [exec]
    split
    · exact hnone
    · exact onTree_none hnone
  | removeFile d' rel =>
    simp only [exec]
    split
    · exact hnone
    · exact onTree_none hnone
  | removeDirAll d' =>
    simp only [exec]
    split
    · refine hset _ ?_
      by_contra hdata
      have := h d' (by simpa using hdata)
      simp [Dir.within] at this
    · simp [h d hd, hnone]
  | rename | initdb | pgUpgrade | psql | pgbackrestRestore | spawnPostgres => exact h.elim
  | pgConfig =>
    simp only [exec]
    split
    · exact hnone
    · split <;> exact hnone
  | pgCtlStart =>
    simp only [exec]
    split
    · exact hnone
    · split <;> exact hnone
  | pgCtlStop =>
    simp only [exec]
    split
    · exact hnone
    · split <;> exact hnone
  | readEnv | readMount | dirExists | isFile | readFile | readDir | setPermissions
  | copyInstallation | stagedPgCtlVersion | stagedControlData | stanzaCreate | supervise | stamp
  | elapsed | print => exact hnone

theorem still_step {β : Type} {op : AgentOp β} (h : op.Still) {s t : AgentState} {b : β}
    (hstep : agentMachine.step op s b t) {d : Dir} (hd : d.isData = true)
    (hnone : s.volume d = none) : t.volume d = none := by
  obtain ⟨c, hc⟩ := hstep
  rw [show t = (op.exec c s).2 from (congrArg Prod.snd hc).symm]
  exact exec_still h c s hd hnone

end AgentOp

/-! ## Quiet programs -/

namespace Agent

/-- A program of quiet operations only. -/
abbrev IsQuiet {α : Type} (t : AgentTask α) : Prop := t.run.Calls AgentOp.Quiet

/-- A program of still operations only. -/
abbrev IsStill {α : Type} (t : AgentTask α) : Prop := t.run.Calls AgentOp.Still

theorem IsStill.isQuiet {α : Type} {t : AgentTask α} (h : IsStill t) : IsQuiet t :=
  Prog.Calls.mono (fun _ _ => AgentOp.Still.quiet) h

section

variable {P : ∀ ⦃β : Type⦄, AgentOp β → Prop}

theorem context_calls {α : Type} {what : String} {t : AgentTask α} (h : t.run.Calls P) :
    (context what t).run.Calls P := Task.calls_mapError h

theorem bail_calls {α : Type} {why : String} : (bail why : AgentTask α).run.Calls P := trivial

end

theorem readOptional_quiet (path : String) : IsQuiet (readOptional path) := by
  refine Task.calls_bind (context_calls (Task.calls_ask trivial)) fun r => ?_
  cases r with
  | none => exact Task.calls_pure _
  | some raw =>
    simp only
    split
    · exact bail_calls
    · exact Task.calls_pure _

theorem readRequired_quiet (path : String) : IsQuiet (readRequired path) := by
  refine Task.calls_bind (readOptional_quiet path) fun r => ?_
  cases r with
  | none => exact bail_calls
  | some value => exact Task.calls_pure _

theorem fromMounts_quiet : IsQuiet fromMounts :=
  Task.calls_bind (readRequired_quiet _) fun _ =>
  Task.calls_bind (readRequired_quiet _) fun _ =>
  Task.calls_bind (readRequired_quiet _) fun _ =>
  Task.calls_bind (readOptional_quiet _) fun _ => Task.calls_pure _

theorem ensureDirs_quiet (dirs : List Dir) : IsQuiet (ensureDirs dirs) := by
  induction dirs with
  | nil => exact Task.calls_pure _
  | cons dir rest ih =>
    exact Task.calls_bind (context_calls (Task.calls_ask trivial)) fun _ =>
      Task.calls_bind (context_calls (Task.calls_ask trivial)) fun _ => ih

theorem ensureLayout_quiet : IsQuiet ensureLayout := ensureDirs_quiet _

theorem writePwfile_quiet (password : String) : IsQuiet (writePwfile password) :=
  Task.calls_bind (context_calls (Task.calls_ask (by simp [AgentOp.Quiet, Dir.isData]))) fun _ =>
  context_calls (Task.calls_ask (by simp [AgentOp.Quiet, Dir.isData]))

theorem writeAtomically_quiet {dir : Dir} {tmp rel : String} (lines : List String)
    (htmp : dir.isData = true → tmp ∉ Tree.vital) (hrel : dir.isData = true → rel ∉ Tree.vital) :
    IsQuiet (writeAtomically dir tmp rel lines) :=
  Task.calls_bind (context_calls (Task.calls_ask htmp)) fun _ =>
  Task.calls_bind (context_calls (Task.calls_ask trivial)) fun _ =>
  context_calls (Task.calls_ask fun hd => ⟨htmp hd, hrel hd⟩)

theorem readStoreCredentials_quiet (index : Nat) : IsQuiet (readStoreCredentials index) := by
  refine Task.calls_bind (context_calls (Task.calls_ask trivial)) fun r => ?_
  cases r with
  | none => exact Task.calls_pure _
  | some contents => exact Task.calls_ofExcept _

theorem readAllCredentials_quiet (index : Nat) (dests : List Destination) :
    IsQuiet (readAllCredentials index dests) := by
  induction dests generalizing index with
  | nil => exact Task.calls_pure _
  | cons _ rest ih =>
    exact Task.calls_bind (readStoreCredentials_quiet index) fun _ =>
      Task.calls_bind (ih (index + 1)) fun _ => Task.calls_pure _

theorem recoveryFinished_quiet : IsQuiet recoveryFinished :=
  Task.calls_bind (Task.calls_perform trivial) fun _ => Task.calls_pure _

theorem pendingRecovery_quiet (spec : InstanceSpec) : IsQuiet (pendingRecovery spec) := by
  unfold pendingRecovery
  cases spec.recovery with
  | none => exact Task.calls_pure _
  | some r => exact Task.calls_bind recoveryFinished_quiet fun _ => Task.calls_pure _

theorem writePgbackrestConf_quiet (R : Renderer) (spec : InstanceSpec) :
    IsQuiet (writePgbackrestConf R spec) := by
  refine Task.calls_bind (pendingRecovery_quiet spec) fun recovery => ?_
  simp only
  split
  · exact Task.calls_pure _
  · exact Task.calls_bind (readAllCredentials_quiet 0 _) fun _ =>
      Task.calls_bind (context_calls (Task.calls_ofExcept _)) fun _ =>
      writeAtomically_quiet _ (by simp [Dir.isData]) (by simp [Dir.isData])

theorem renderConfig_quiet (R : Renderer) (spec : InstanceSpec) :
    IsQuiet (renderConfig R spec) := by
  refine Task.calls_bind (context_calls (Task.calls_ask trivial)) fun _ => ?_
  refine Task.calls_bind (pendingRecovery_quiet spec) fun recovery => ?_
  refine Task.calls_bind (writePgbackrestConf_quiet R spec) fun _ => ?_
  refine Task.calls_bind (writeAtomically_quiet _ (fun _ => by decide) fun _ => by decide)
    fun _ => ?_
  refine Task.calls_bind (context_calls (Task.calls_ofExcept _)) fun _ => ?_
  refine Task.calls_bind (writeAtomically_quiet _ (fun _ => by decide) fun _ => by decide)
    fun _ => ?_
  exact writeAtomically_quiet _ (fun _ => by decide) fun _ => by decide

theorem ensureStanza_quiet (stanza : String) (port : UInt16) :
    IsQuiet (ensureStanza stanza port) :=
  Task.calls_bind (Task.calls_attempt (Task.calls_ask trivial)) fun _ => Task.calls_pure _

/-! ### Programs of statements -/

/-- The operation sends a statement to a local postmaster. -/
def IsPsql : ∀ ⦃β : Type⦄, AgentOp β → Prop
  | _, .psql .. => True
  | _, _ => False

theorem executeOn_psql (port : UInt16) (stmt : Statement) (what : String) :
    (executeOn port stmt what).run.Calls IsPsql := by
  refine Task.calls_bind (context_calls (Task.calls_ask trivial)) fun out => ?_
  split
  · exact Task.calls_pure _
  · exact bail_calls

theorem queryOn_psql (port : UInt16) (stmt : Statement) :
    (queryOn port stmt).run.Calls IsPsql := by
  refine Task.calls_bind (context_calls (Task.calls_ask trivial)) fun out => ?_
  split
  · exact Task.calls_pure _
  · exact bail_calls

theorem executeAll_psql (port : UInt16) (stmts : List Statement) :
    (executeAll port stmts).run.Calls IsPsql := by
  induction stmts with
  | nil => exact Task.calls_pure _
  | cons stmt rest ih => exact Task.calls_bind (executeOn_psql port stmt _) fun _ => ih

theorem createAppDatabase_psql (sql : Option (Statement × Statement)) :
    (createAppDatabase sql).run.Calls IsPsql := by
  cases sql with
  | none => exact Task.calls_pure _
  | some sql =>
    refine Task.calls_bind (queryOn_psql _ _) fun found => ?_
    split
    · exact executeOn_psql _ _ _
    · exact Task.calls_pure _

theorem createRoles_psql (spec : InstanceSpec) (secrets : InstanceSecrets) :
    (createRoles spec secrets).run.Calls IsPsql := by
  unfold createRoles
  cases spec.bootstrap with
  | recovery r => exact bail_calls
  | initdb init =>
    exact Task.calls_bind (Task.calls_ofExcept _) fun _ =>
      Task.calls_bind (context_calls (Task.calls_ofExcept _)) fun _ =>
      Task.calls_bind (executeAll_psql _ _) fun _ =>
      Task.calls_bind (Task.calls_ofExcept _) fun _ => createAppDatabase_psql _

theorem withLocalPostgres_calls {P : ∀ ⦃β : Type⦄, AgentOp β → Prop} {f : AgentTask Unit}
    (hf : f.run.Calls P) (hstart : P (.pgCtlStart Container.BOOTSTRAP_PORT)) (hstop : P .pgCtlStop) :
    (withLocalPostgres f).run.Calls P := by
  refine Task.calls_bind (context_calls (Task.calls_ask hstart)) fun start => ?_
  split
  · exact Task.calls_bind (Task.calls_attempt hf) fun _ =>
      Task.calls_bind (context_calls (Task.calls_ask hstop)) fun _ => Task.calls_ofExcept _
  · exact bail_calls

namespace Upgrade

theorem pgConfig_still (flag : String) : IsStill (pgConfig flag) := by
  refine Task.calls_bind (context_calls (Task.calls_ask trivial)) fun out => ?_
  split
  · exact Task.calls_pure _
  · exact bail_calls

theorem readPgVersion_still (dir : Dir) : IsStill (readPgVersion dir) := by
  refine Task.calls_bind (context_calls (Task.calls_ask trivial)) fun raw => ?_
  split
  · exact Task.calls_pure _
  · exact bail_calls

theorem imageVersion_still : IsStill imageVersion := by
  refine Task.calls_bind (pgConfig_still _) fun raw => ?_
  split
  · exact Task.calls_pure _
  · exact bail_calls

theorem removeScratch_still {d : Dir} (h : d = .upgrade ∨ d = .upgradeStage ∨ d = .upgradeWrapper) :
    (AgentOp.removeDirAll d).Still := by
  intro d' hd'
  rcases h with rfl | rfl | rfl <;> cases d' <;> simp_all [Dir.within, Dir.isData]

theorem report_still (spec : UpgradeSpec) (oldDataDir : String) (seconds : Nat) :
    IsStill (report spec oldDataDir seconds) := Task.calls_perform trivial

theorem stage_still : IsStill stage := by
  refine Task.calls_bind (pgConfig_still _) fun _ => Task.calls_bind (pgConfig_still _) fun _ =>
    Task.calls_bind (pgConfig_still _) fun _ => Task.calls_bind imageVersion_still fun _ =>
    Task.calls_bind (readPgVersion_still _) fun _ => ?_
  split
  · exact bail_calls
  have hclear : (AgentOp.removeDirAll .upgradeStage).Still :=
    removeScratch_still (.inr (.inl rfl))
  exact Task.calls_bind (Task.calls_perform trivial) fun _ =>
    Task.calls_bind (Task.calls_when (context_calls (Task.calls_ask hclear))) fun _ =>
    Task.calls_bind (context_calls (Task.calls_ask rfl)) fun _ =>
    Task.calls_bind (Task.calls_ask trivial) fun _ => Task.calls_perform trivial

theorem probe_still : IsStill probe :=
  Task.calls_bind imageVersion_still fun _ =>
  Task.calls_bind (Task.calls_attempt (readPgVersion_still _)) fun _ =>
  Task.calls_bind (pgConfig_still _) fun _ => Task.calls_perform trivial

theorem writeEachWrapper_still (spec : UpgradeSpec) (names : List String) :
    IsStill (writeEachWrapper spec names) := by
  induction names with
  | nil => exact Task.calls_pure _
  | cons name rest ih =>
    exact Task.calls_bind (context_calls (Task.calls_ask (by simp [AgentOp.Still, AgentOp.Quiet, Dir.isData])))
      fun _ => Task.calls_bind (Task.calls_ask trivial) fun _ => ih

theorem writeWrappers_still (spec : UpgradeSpec) : IsStill (writeWrappers spec) := by
  have hclear : (AgentOp.removeDirAll .upgradeWrapper).Still :=
    removeScratch_still (.inr (.inr rfl))
  refine Task.calls_bind (Task.calls_perform trivial) fun _ =>
    Task.calls_bind (Task.calls_when (context_calls (Task.calls_ask hclear))) fun _ =>
    Task.calls_bind (context_calls (Task.calls_ask rfl)) fun _ =>
    Task.calls_bind (context_calls (Task.calls_ask trivial)) fun names =>
    Task.calls_bind (writeEachWrapper_still spec names) fun _ => ?_
  split
  · exact bail_calls
  · exact Task.calls_pure _

theorem verifyStagedBinaries_still (expected : String) :
    IsStill (verifyStagedBinaries expected) := by
  refine Task.calls_bind (context_calls (Task.calls_ask trivial)) fun out => ?_
  split
  · exact bail_calls
  · split
    · split
      · exact Task.calls_pure _
      · exact bail_calls
    · exact bail_calls

theorem readControlData_still (dir : Dir) : IsStill (readControlData dir) := by
  refine Task.calls_bind (context_calls (Task.calls_ask trivial)) fun out => ?_
  split
  · exact bail_calls
  · exact Task.calls_pure _

theorem preflight_still (spec : UpgradeSpec) : IsStill (preflight spec) := by
  refine Task.calls_bind (readPgVersion_still _) fun _ => ?_
  split
  · exact bail_calls
  refine Task.calls_bind (pgConfig_still _) fun _ => ?_
  split
  · exact bail_calls
  refine Task.calls_bind (context_calls (Task.calls_ask rfl)) fun _ =>
    Task.calls_bind (writeWrappers_still spec) fun _ =>
    Task.calls_bind (verifyStagedBinaries_still _) fun _ =>
    Task.calls_bind (readControlData_still _) fun _ => ?_
  split
  · exact bail_calls
  · exact Task.calls_pure _

end Upgrade

end Agent

end Pgpod
