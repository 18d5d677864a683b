import Pgpod.Agent.Main

/-!
# The swap of an upgrade, interrupted anywhere

Between the two renames of `upgrade run` there is no PGDATA and the upgraded
cluster stands beside it.  A later `upgrade run` finishes the swap; a start of
the instance does not look beside PGDATA and creates an empty one.  As long as
no start falls into that window, PGDATA is never initialised again and what is
served is the old data or the upgraded data.
-/

namespace Pgpod

open Effect

namespace Agent

/-! ## The states of a volume that holds a cluster -/

/-- The tree is a cluster with the contents `d`. -/
def Holds (d : Contents) (t : Tree) : Prop :=
  t.isInitialised = true ∧ ∃ D, t.db = some D ∧ D.contents = d

/-- PGDATA holds the contents `d`. -/
def Serves (d : Contents) (v : Volume) : Prop := ∃ t, v .pgdata = some t ∧ Holds d t

/-- The upgraded cluster beside PGDATA is complete and holds the contents `d`. -/
def Upgraded (d : Contents) (v : Volume) : Prop :=
  ∃ t, v .pgdataNew = some t ∧ t.isCluster = true ∧ ∃ D, t.db = some D ∧ D.contents = d

/-- The swap stopped between its renames. -/
def SwapPending (d : Contents) (v : Volume) : Prop := v .pgdata = none ∧ Upgraded d v

/-- A cluster stands beside PGDATA: an upgraded one, or an old one moved aside. -/
def ClusterBeside (v : Volume) : Prop :=
  (∃ t, v .pgdataNew = some t ∧ t.isCluster = true) ∨
    ∃ suffix t, v (.pgdataOld suffix) = some t ∧ t.isInitialised = true

/-- The volume holds `d`, in place or in an interrupted swap. -/
def Kept (d : Contents) (v : Volume) : Prop := Serves d v ∨ SwapPending d v

theorem SwapPending.clusterBeside {d : Contents} {v : Volume} (h : SwapPending d v) :
    ClusterBeside v := by
  obtain ⟨-, t, ht, hcluster, -⟩ := h
  exact .inl ⟨t, ht, hcluster⟩

theorem Tree.SameCore.holds {d : Contents} {t t' : Tree} (h : Tree.SameCore t t')
    (hd : Holds d t) : Holds d t' := by
  obtain ⟨hinit, D, hD, hc⟩ := hd
  exact ⟨by rw [h.isInitialised, hinit], D, by rw [h.db, hD], hc⟩

theorem Serves.frame {d : Contents} {s t : AgentState} (hs : Serves d s.volume)
    (h : Frame s t) : Serves d t.volume := by
  obtain ⟨tr, htr, hd⟩ := hs
  obtain ⟨tr', htr', hcore⟩ := h.kept rfl htr
  exact ⟨tr', htr', Tree.SameCore.holds hcore hd⟩

theorem Upgraded.frame {d : Contents} {s t : AgentState} (hs : Upgraded d s.volume)
    (h : Frame s t) : Upgraded d t.volume := by
  obtain ⟨tr, htr, hcluster, D, hD, hc⟩ := hs
  obtain ⟨tr', htr', hcore⟩ := h.kept rfl htr
  exact ⟨tr', htr', by rw [hcore.isCluster, hcluster], D, by rw [hcore.db, hD], hc⟩

/-! ## Operations that leave PGDATA's contents in place -/

/-- Quiet operations, and those others that do not move, remove or re-create PGDATA. -/
def Tame : ∀ ⦃β : Type⦄, AgentOp β → Prop
  | _, .initdb call => call.target ≠ .pgdata
  | _, .rename src dst => src ≠ .pgdata ∧ dst ≠ .pgdata
  | _, .removeDirAll d => d.within .pgdata = false
  | _, .appendFile d rel _ => d = .pgdata → rel ≠ Tree.PG_VERSION
  | _, .pgUpgrade .. | _, .psql .. | _, .spawnPostgres => True
  | _, op => op.Quiet

theorem quiet_tame : ∀ ⦃β : Type⦄ (op : AgentOp β), op.Quiet → Tame op := by
  intro β op h
  cases op with
  | removeDirAll d => exact h .pgdata rfl
  | appendFile d rel lines =>
    rintro rfl heq
    exact h rfl (by simp [heq, Tree.vital])
  | _ => first | exact h | exact h.elim

theorem Serves.of_pgdata {d : Contents} {v v' : Volume} (hs : Serves d v)
    (h : v' .pgdata = v .pgdata) : Serves d v' := by
  obtain ⟨t, ht, hd⟩ := hs
  exact ⟨t, h.trans ht, hd⟩

theorem Holds.retired {d : Contents} {t : Tree} (method : UpgradeMethod) (h : Holds d t) :
    Holds d (AgentOp.retiredCluster method t) := by
  cases method with
  | copy => exact h
  | link =>
    obtain ⟨hinit, hdb⟩ := h
    refine ⟨?_, hdb⟩
    simpa [AgentOp.retiredCluster, Tree.isInitialised,
      Tree.writeFile_files_ne t none (by decide : Tree.PG_VERSION ≠ Tree.PG_CONTROL)] using hinit

theorem Serves.mapDatabase {d : Contents} {s : AgentState} (stmt : Statement)
    (hs : Serves d s.volume) : Serves d (s.mapDatabase fun D => stmt.apply D).volume := by
  obtain ⟨t, ht, hinit, D, hD, hc⟩ := hs
  refine ⟨{ t with db := some (stmt.apply D) }, ?_, hinit, stmt.apply D, rfl, ?_⟩
  · simp [AgentState.mapDatabase, ht, hD]
  · rw [Statement.apply_contents, hc]

theorem Serves.pgUpgrade {d : Contents} {s : AgentState} (plan : PgUpgradePlan) (c : AgentChoice)
    (hs : Serves d s.volume) : Serves d ((AgentOp.pgUpgrade plan).exec c s).2.volume := by
  have hs' := hs
  obtain ⟨t, ht, hd⟩ := hs
  have hset : ∀ (old : Tree) (new : Option Tree), Holds d old →
      Serves d ((s.setTree .pgdata (some old)).setTree .pgdataNew new).volume := by
    intro old new hold
    refine ⟨old, ?_, hold⟩
    rw [AgentState.setTree_ne _ _ (by decide), AgentState.setTree_self]
  simp only [AgentOp.exec, ht]
  cases s.volume .pgdataNew with
  | none => split <;> exact hs'
  | some new =>
    simp only
    split
    · exact hs'
    · split
      · split
        · exact hs'
        · exact hset _ _ (hd.retired _)
      · split
        · exact hset _ _ (hd.retired _)
        · exact hset _ _ hd

theorem Serves.step {d : Contents} {β : Type} {op : AgentOp β} (htame : Tame op)
    {s t : AgentState} {b : β} (hstep : agentMachine.step op s b t) (hs : Serves d s.volume) :
    Serves d t.volume := by
  obtain ⟨c, hc⟩ := hstep
  obtain rfl : t = (op.exec c s).2 := (congrArg Prod.snd hc).symm
  cases op with
  | pgUpgrade plan => exact hs.pgUpgrade plan c
  | initdb call =>
    have hne : Dir.pgdata ≠ call.target := fun h => htame h.symm
    simp only [AgentOp.exec]
    split
    · exact hs
    · split <;> exact hs.of_pgdata (AgentState.setTree_ne s _ hne)
  | rename src dst =>
    simp only [AgentOp.exec]
    split
    · exact hs
    · split
      · exact hs
      · refine hs.of_pgdata ?_
        rw [AgentState.setTree_ne _ _ (Ne.symm htame.2), AgentState.setTree_ne _ _ (Ne.symm htame.1)]
  | removeDirAll dir =>
    have hwithin : dir.within .pgdata = false := htame
    have hne : Dir.pgdata ≠ dir := by
      rintro rfl
      simp [Dir.within] at hwithin
    simp only [AgentOp.exec]
    split
    · exact hs.of_pgdata (AgentState.setTree_ne s _ hne)
    · exact hs.of_pgdata (by simp [hwithin])
  | appendFile dir rel lines =>
    have hkeep : ∀ f : Tree → Option (List String),
        Serves d (AgentOp.onTree s dir fun t => t.writeFile rel (f t)).volume := by
      intro f
      by_cases hdir : dir = .pgdata
      · subst hdir
        obtain ⟨t, ht, hinit, hdb⟩ := hs
        refine ⟨t.writeFile rel (f t), by simp [AgentOp.onTree, ht], ?_, hdb⟩
        simpa [Tree.isInitialised, Tree.writeFile_files_ne t _ (Ne.symm (htame rfl))] using hinit
      · exact hs.of_pgdata (AgentState.setTree_ne s _ (Ne.symm hdir))
    simp only [AgentOp.exec]
    split <;> exact hkeep _
  | psql port stmt =>
    simp only [AgentOp.exec]
    split
    · exact hs
    · split
      · split
        · exact hs
        · split
          · exact hs.mapDatabase stmt
          · split
            · exact hs.mapDatabase stmt
            · exact hs
      · exact hs
  | spawnPostgres =>
    simp only [AgentOp.exec]
    split <;> exact hs
  | _ =>
    refine hs.frame (AgentOp.exec_quiet ?_ c s)
    exact htame

/-! ## What must hold at each operation -/

/-- `initdb` does not run into PGDATA beside a cluster, and what is served is `d`. -/
def KeepsData (d : Contents) : ∀ ⦃β : Type⦄, AgentOp β → AgentState → Prop
  | _, .initdb call, s => call.target = .pgdata → ¬ ClusterBeside s.volume
  | _, .spawnPostgres, s => Serves d s.volume
  | _, _, _ => True

def Guarded (d : Contents) ⦃β : Type⦄ (op : AgentOp β) (s : AgentState) : Prop :=
  KeepsData d op s ∧ Kept d s.volume

theorem guarded_of_tame {d : Contents} {β : Type} {op : AgentOp β} {s : AgentState}
    (htame : Tame op) (hs : Serves d s.volume) : Guarded d op s := by
  refine ⟨?_, .inl hs⟩
  cases op with
  | initdb call => exact fun h => absurd h htame
  | spawnPostgres => exact hs
  | _ => trivial

/-- A program of tame operations keeps PGDATA's contents. -/
theorem tame_keeps {d : Contents} {α : Type} {p : Prog AgentOp α} (hp : p.Calls Tame) :
    agentMachine.Keeps (Guarded d) (fun s => Serves d s.volume) p :=
  .of_calls (stable _) (fun _ _ _ htame hs => guarded_of_tame htame hs)
    (fun _ _ _ _ _ htame hs hstep => hs.step htame hstep) hp

/-- Quiet work also keeps whatever depends on the cores of the data directories only. -/
theorem quiet_keeps_with {d : Contents} {α : Type} {t : AgentTask α} {I : AgentState → Prop}
    (hI : ∀ s t, Frame s t → I s → I t) (ht : IsQuiet t) :
    agentMachine.Keeps (Guarded d) (fun s => Serves d s.volume ∧ I s) t.run := by
  refine .of_calls (stable _) (fun _ _ _ hquiet hs =>
    guarded_of_tame (quiet_tame _ hquiet) hs.1) ?_ ht
  intro _ op s b u hquiet hs hstep
  exact ⟨hs.1.step (quiet_tame _ hquiet) hstep, hI _ _ (AgentOp.quiet_step hquiet hstep) hs.2⟩

theorem quiet_keeps {d : Contents} {α : Type} {t : AgentTask α} (ht : IsQuiet t) :
    agentMachine.Keeps (Guarded d) (fun s => Serves d s.volume) t.run :=
  tame_keeps (Prog.Calls.mono quiet_tame ht)

/-! ## A start of the instance on a volume that serves -/

theorem psql_tame : ∀ ⦃β : Type⦄ (op : AgentOp β), IsPsql op → Tame op := by
  intro β op h
  cases op <;> trivial

theorem bootstrapRoles_tame (spec : InstanceSpec) (secrets : InstanceSecrets) :
    (withLocalPostgres do
      createRoles spec secrets
      Task.when spec.backup.isEnabled <|
        ensureStanza spec.inst.cluster.asStr Container.BOOTSTRAP_PORT).run.Calls Tame :=
  withLocalPostgres_calls
    (Task.calls_bind (Prog.Calls.mono psql_tame (createRoles_psql spec secrets)) fun _ =>
      Task.calls_when (Prog.Calls.mono quiet_tame (ensureStanza_quiet _ _)))
    trivial trivial

theorem isInitialised_serves (d : Contents) :
    agentMachine.Triple (Guarded d) (fun s => Serves d s.volume) (isInitialised .pgdata).run
      fun r s => Serves d s.volume ∧ r = .ok true := by
  have hstep : ∀ (s : AgentState) (b : Bool) (t : AgentState), Serves d s.volume →
      agentMachine.step (AgentOp.isFile .pgdata Tree.PG_VERSION) s b t →
      Serves d t.volume ∧ b = true := by
    intro s b t hs hstep
    obtain ⟨hb, rfl⟩ := isFile_step hstep
    refine ⟨hs, ?_⟩
    obtain ⟨tr, htr, hinit, -⟩ := hs
    simpa [hb, htr, Tree.isInitialised] using hinit
  refine Machine.Triple.call (stable _) (fun s hs => guarded_of_tame trivial hs) hstep fun b => ?_
  exact Machine.Triple.ret (stable _) fun s hs => ⟨hs.1, by rw [hs.2]⟩

/-- On an initialised PGDATA the bootstrap is one test that answers yes. -/
theorem bootstrapIfNeeded_keeps {d : Contents} (R : Renderer) (spec : InstanceSpec)
    (secrets : InstanceSecrets) :
    agentMachine.Keeps (Guarded d) (fun s => Serves d s.volume)
      (bootstrapIfNeeded R spec secrets).run := by
  refine Machine.Triple.task_bind (isInitialised_serves d) (fun b => ?_) (fun _ => stable _)
    fun _ _ h => h.1
  cases b with
  | false => exact fun s hs => absurd hs.2 (by simp)
  | true => exact Machine.Triple.ret (stable _) fun s hs => hs.1

theorem instanceRun_keeps {d : Contents} (crates : Crates) (R : Renderer) :
    agentMachine.Keeps (Guarded d) (fun s => Serves d s.volume) (run crates R).run := by
  refine .task_bind (stable _) (quiet_keeps (Task.calls_perform trivial)) fun env => ?_
  refine .task_bind (stable _) (quiet_keeps (context_calls (Task.calls_ofExcept _))) fun spec => ?_
  refine .task_bind (stable _) (quiet_keeps (context_calls fromMounts_quiet)) fun secrets => ?_
  refine .task_bind (stable _) (quiet_keeps ensureLayout_quiet) fun _ => ?_
  refine .task_bind (stable _) (bootstrapIfNeeded_keeps R spec secrets) fun bootstrapped => ?_
  refine .task_bind (stable _) (quiet_keeps (renderConfig_quiet R spec)) fun _ => ?_
  refine .task_bind (stable _) (tame_keeps (Task.calls_when (bootstrapRoles_tame spec secrets)))
    fun _ => ?_
  refine .task_bind (stable _) (tame_keeps (context_calls (Task.calls_ask trivial))) fun _ => ?_
  refine .task_bind (stable _) (quiet_keeps (Task.calls_when (ensureStanza_quiet _ _))) fun _ => ?_
  exact quiet_keeps (Task.calls_ask trivial)

/-! ## The upgrade -/

theorem SwapPending.step {d : Contents} {β : Type} {op : AgentOp β} (hstill : op.Still)
    {s t : AgentState} {b : β} (hstep : agentMachine.step op s b t)
    (hs : SwapPending d s.volume) : SwapPending d t.volume :=
  ⟨AgentOp.still_step hstill hstep rfl hs.1, hs.2.frame (AgentOp.quiet_step hstill.quiet hstep)⟩

theorem guarded_of_still {d : Contents} {β : Type} {op : AgentOp β} {s : AgentState}
    (hstill : op.Still) (hs : Kept d s.volume) : Guarded d op s := by
  refine ⟨?_, hs⟩
  cases op with
  | initdb | spawnPostgres => exact hstill.elim
  | _ => trivial

theorem still_keeps_pending {d : Contents} {α : Type} {t : AgentTask α} (ht : IsStill t) :
    agentMachine.Keeps (Guarded d) (fun s => SwapPending d s.volume) t.run :=
  .of_calls (stable _) (fun _ _ _ hstill hs => guarded_of_still hstill (.inr hs))
    (fun _ _ _ _ _ hstill hs hstep => hs.step hstill hstep) ht

theorem still_keeps {d : Contents} {α : Type} {t : AgentTask α} (ht : IsStill t) :
    agentMachine.Keeps (Guarded d) (fun s => Kept d s.volume) t.run := by
  intro s hs
  rcases hs with hs | hs
  · exact (quiet_keeps ht.isQuiet s hs).weaken fun _ _ h => .inl h
  · exact (still_keeps_pending ht s hs).weaken fun _ _ h => .inr h

theorem appendIncludeDir_tame (dir : Dir) : (appendIncludeDir dir).run.Calls Tame := by
  refine Task.calls_bind (context_calls (Task.calls_ask trivial)) fun existing => ?_
  split
  · exact Task.calls_pure _
  · exact context_calls (Task.calls_ask fun _ => by decide)

/-! ### What a rename does -/

theorem rename_step {src dst : Dir} {s t : AgentState} {r : Except String Unit}
    (h : agentMachine.step (AgentOp.rename src dst) s r t) :
    (∃ e, r = .error e ∧ t = s) ∨
      ∃ tr, s.volume src = some tr ∧ r = .ok () ∧
        t = (s.setTree src none).setTree dst (some tr) := by
  obtain ⟨c, hc⟩ := h
  have hc' : (AgentOp.rename src dst).exec c s = (r, t) := hc
  simp only [AgentOp.exec] at hc'
  split at hc'
  · obtain ⟨rfl, rfl⟩ := Prod.mk.inj hc'
    exact .inl ⟨_, rfl, rfl⟩
  · split at hc'
    · obtain ⟨rfl, rfl⟩ := Prod.mk.inj hc'
      exact .inl ⟨_, rfl, rfl⟩
    · rename_i tr htr
      obtain ⟨rfl, rfl⟩ := Prod.mk.inj hc'
      exact .inr ⟨tr, htr, rfl, rfl⟩

/-- The moved-aside cluster and the upgraded one, between the renames. -/
def BetweenRenames (d : Contents) (oldDir : Dir) (v : Volume) : Prop :=
  SwapPending d v ∧ ∃ t, v oldDir = some t ∧ Holds d t

theorem Upgraded.holds {d : Contents} {v : Volume} (h : Upgraded d v) :
    ∃ t, v .pgdataNew = some t ∧ Holds d t := by
  obtain ⟨t, ht, hcluster, hdb⟩ := h
  have hinit : t.isInitialised = true := by
    simp only [Tree.isCluster, Bool.and_eq_true] at hcluster
    exact hcluster.1
  exact ⟨t, ht, hinit, hdb⟩

/-- The first rename moves the old cluster aside, or fails and changes nothing. -/
theorem moveAside_step {d : Contents} {suffix : String} {s t : AgentState}
    {r : Except String Unit} (hs : Serves d s.volume) (hup : Upgraded d s.volume)
    (h : agentMachine.step (AgentOp.rename .pgdata (.pgdataOld suffix)) s r t) :
    (∃ e, r = .error e ∧ Serves d t.volume) ∨
      r = .ok () ∧ BetweenRenames d (.pgdataOld suffix) t.volume := by
  obtain ⟨e, rfl, rfl⟩ | ⟨tr, htr, rfl, rfl⟩ := rename_step h
  · exact .inl ⟨e, rfl, hs⟩
  · obtain ⟨tr', htr', hd⟩ := hs
    obtain rfl : tr = tr' := Option.some.inj (htr.symm.trans htr')
    obtain ⟨new, hnew, hrest⟩ := hup
    refine .inr ⟨rfl, ⟨?_, new, ?_, hrest⟩, tr, AgentState.setTree_self _ _ _, hd⟩
    · rw [AgentState.setTree_ne _ _ (by simp), AgentState.setTree_self]
    · rw [AgentState.setTree_ne _ _ (by simp), AgentState.setTree_ne _ _ (by simp)]
      exact hnew

/-- A cluster that holds `d` moved to PGDATA serves it; a failed move changes nothing. -/
theorem moveIn_step {d : Contents} {src : Dir} {s t : AgentState} {r : Except String Unit}
    (hs : ∃ tr, s.volume src = some tr ∧ Holds d tr)
    (h : agentMachine.step (AgentOp.rename src .pgdata) s r t) :
    (∃ e, r = .error e ∧ t = s) ∨ r = .ok () ∧ Serves d t.volume := by
  obtain ⟨e, rfl, rfl⟩ | ⟨tr, htr, rfl, rfl⟩ := rename_step h
  · exact .inl ⟨e, rfl, rfl⟩
  · obtain ⟨tr', htr', hd⟩ := hs
    obtain rfl : tr = tr' := Option.some.inj (htr.symm.trans htr')
    exact .inr ⟨rfl, tr, AgentState.setTree_self _ _ _, hd⟩

namespace Upgrade

/-- From an interrupted swap, one rename and a report. -/
theorem completeSwap_keeps {d : Contents} (spec : UpgradeSpec) :
    agentMachine.Triple (Guarded d) (fun s => SwapPending d s.volume) (completeSwap spec).run
      fun _ s => Kept d s.volume := by
  have hmove : agentMachine.Triple (Guarded d) (fun s => SwapPending d s.volume)
      (context "failed to complete the interrupted swap"
        (Task.ask (.rename .pgdataNew .pgdata))).run fun _ s => Kept d s.volume := by
    refine triple_ask (fun s hs => ⟨trivial, .inr hs⟩) ?_ fun _ _ _ h => h
    intro s r t hs hstep
    obtain ⟨e, -, rfl⟩ | ⟨-, hserves⟩ := moveIn_step hs.2.holds hstep
    · exact .inr hs
    · exact .inl hserves
  exact Machine.Triple.task_bind hmove (fun _ => still_keeps (report_still spec "" 0))
    (fun _ => stable _) fun _ _ h => h

/-- The two renames and the rename back. -/
theorem swap_keeps {d : Contents} (suffix : String) :
    agentMachine.Triple (Guarded d) (fun s => Serves d s.volume ∧ Upgraded d s.volume)
      (swap (.pgdataOld suffix)).run
      fun r s => Kept d s.volume ∧ (r = .ok () → Serves d s.volume) := by
  have haside : agentMachine.Triple (Guarded d)
      (fun s => Serves d s.volume ∧ Upgraded d s.volume)
      (context ("failed to move the old cluster aside to " ++ (Dir.pgdataOld suffix).path)
        (Task.ask (.rename .pgdata (.pgdataOld suffix)))).run
      fun r s => (r = .ok () → BetweenRenames d (.pgdataOld suffix) s.volume) ∧
        Kept d s.volume := by
    refine triple_ask (fun s hs => ⟨trivial, .inl hs.1⟩) ?_ fun _ _ _ h => ⟨by simp, h.2⟩
    intro s r t hs hstep
    obtain ⟨e, rfl, hserves⟩ | ⟨rfl, hbetween⟩ := moveAside_step hs.1 hs.2 hstep
    · exact ⟨by rintro ⟨⟩, .inl hserves⟩
    · exact ⟨fun _ => hbetween, .inr hbetween.1⟩
  have hin : agentMachine.Triple (Guarded d)
      (fun s => BetweenRenames d (.pgdataOld suffix) s.volume)
      (.perform (AgentOp.rename .pgdataNew .pgdata))
      fun r s => (r = .ok () → Serves d s.volume) ∧
        (r ≠ .ok () → BetweenRenames d (.pgdataOld suffix) s.volume) := by
    refine .perform (stable _) (fun _ => stable _) (fun s hs => ⟨trivial, .inr hs.1⟩) ?_
    intro s r t hs hstep
    obtain ⟨e, rfl, rfl⟩ | ⟨rfl, hserves⟩ := moveIn_step hs.1.2.holds hstep
    · exact ⟨by rintro ⟨⟩, fun _ => hs⟩
    · exact ⟨fun _ => hserves, fun h => absurd rfl h⟩
  have hback : agentMachine.Triple (Guarded d)
      (fun s => BetweenRenames d (.pgdataOld suffix) s.volume)
      (.perform (AgentOp.rename (.pgdataOld suffix) .pgdata)) fun _ s => Kept d s.volume := by
    refine .perform (stable _) (fun _ => stable _) (fun s hs => ⟨trivial, .inr hs.1⟩) ?_
    intro s r t hs hstep
    obtain ⟨e, rfl, rfl⟩ | ⟨-, hserves⟩ := moveIn_step hs.2 hstep
    · exact .inr hs.1
    · exact .inl hserves
  refine Machine.Triple.task_bind haside (fun _ => ?_) (fun _ => stable _)
    fun _ s h => ⟨h.2, by rintro ⟨⟩⟩
  refine .strengthen ?_ fun s h => h.1 rfl
  refine Machine.Triple.attempt_bind hin fun r => ?_
  cases r with
  | ok u => exact .ret (stable _) fun s h => ⟨.inl (h.1 rfl), fun _ => h.1 rfl⟩
  | error e =>
    refine .strengthen (Machine.Triple.attempt_bind hback fun _ => ?_) fun s h => h.2 (by simp)
    exact .ret (stable _) fun s h => ⟨h, by rintro ⟨⟩⟩

/-- What `initdb` leaves beside PGDATA. -/
def Prepared (s : AgentState) : Prop :=
  ∃ t, s.volume .pgdataNew = some t ∧ t.isInitialised = true

theorem Prepared.frame {s t : AgentState} (h : Frame s t) (hs : Prepared s) : Prepared t := by
  obtain ⟨tr, htr, hinit⟩ := hs
  obtain ⟨tr', htr', hcore⟩ := h.kept rfl htr
  exact ⟨tr', htr', by rw [hcore.isInitialised, hinit]⟩

theorem initdb_prepares {call : InitdbCall} (hnew : call.target = .pgdataNew) {s t : AgentState}
    {status : ExitStatus} (hok : status.success = true)
    (h : agentMachine.step (AgentOp.initdb call) s (.ok status) t) : Prepared t := by
  obtain ⟨c, hc⟩ := h
  have hc' : (AgentOp.initdb call).exec c s = (.ok status, t) := hc
  simp only [AgentOp.exec] at hc'
  split at hc'
  · exact absurd (congrArg Prod.fst hc') (by simp)
  · split at hc'
    · obtain ⟨-, rfl⟩ := Prod.mk.inj hc'
      rw [hnew]
      exact ⟨_, AgentState.setTree_self _ _ _, rfl⟩
    · obtain ⟨hstatus, -⟩ := Prod.mk.inj hc'
      rename_i hfail
      rw [← Except.ok.inj hstatus] at hok
      exact absurd hok hfail

theorem pgUpgrade_upgrades {d : Contents} {plan : PgUpgradePlan} (hcheck : plan.checkOnly = false)
    {s t : AgentState} {status : ExitStatus} (hok : status.success = true)
    (hs : Serves d s.volume) (hnew : Prepared s)
    (h : agentMachine.step (AgentOp.pgUpgrade plan) s (.ok status) t) :
    Upgraded d t.volume := by
  obtain ⟨c, hc⟩ := h
  have hc' : (AgentOp.pgUpgrade plan).exec c s = (.ok status, t) := hc
  obtain ⟨old, hold, -, D, hD, hdata⟩ := hs
  obtain ⟨new, hnew, hinit⟩ := hnew
  simp only [AgentOp.exec, hold, hnew, hcheck] at hc'
  split at hc'
  · exact absurd (congrArg Prod.fst hc') (by simp)
  · split at hc'
    · obtain ⟨-, rfl⟩ := Prod.mk.inj hc'
      refine ⟨_, AgentState.setTree_self _ _ _, ?_, D, hD, hdata⟩
      have hversion : (new.writeFile Tree.PG_CONTROL (some [])).files Tree.PG_VERSION =
          new.files Tree.PG_VERSION := Tree.writeFile_files_ne _ _ (by decide)
      simp only [Tree.isInitialised] at hinit
      simp [AgentOp.upgradedCluster, Tree.isCluster, hversion, hinit]
    · obtain ⟨hstatus, -⟩ := Prod.mk.inj hc'
      rename_i hfail
      rw [← Except.ok.inj hstatus] at hok
      exact absurd hok hfail

theorem finish_tame (spec : UpgradeSpec) (oldDir : Dir) (seconds : Nat) :
    (finish spec oldDir seconds).run.Calls Tame := by
  refine Task.calls_bind (context_calls (Task.calls_ask trivial)) fun _ => ?_
  refine Task.calls_bind (appendIncludeDir_tame .pgdata) fun _ => ?_
  refine Task.calls_bind (Task.calls_attempt (Task.calls_ask rfl)) fun _ => ?_
  exact Prog.Calls.mono quiet_tame (report_still spec _ seconds).isQuiet

/-- A build that reports success and was not a trial left the upgraded cluster. -/
theorem build_keeps {d : Contents} (spec : UpgradeSpec) (control : ControlData) :
    agentMachine.Triple (Guarded d) (fun s => Serves d s.volume) (build spec control).run
      fun r s => Serves d s.volume ∧
        (∀ n, r = .ok n → spec.check = false → Upgraded d s.volume) := by
  have hfail : ∀ (why : String), agentMachine.Triple (Guarded d) (fun s => Serves d s.volume)
      (bail why : AgentTask Nat).run fun r s => Serves d s.volume ∧
        (∀ n, r = .ok n → spec.check = false → Upgraded d s.volume) :=
    fun why => .ret (stable _) fun s hs => ⟨hs, by rintro n ⟨⟩⟩
  have hclear : Tame (AgentOp.removeDirAll .pgdataNew) := rfl
  refine Machine.Triple.task_bind (quiet_keeps (Task.calls_perform trivial)) (fun leftover => ?_)
    (fun _ => stable _) fun _ _ hs => ⟨hs, by rintro n ⟨⟩⟩
  refine Machine.Triple.task_bind (tame_keeps (Task.calls_when
    (context_calls (Task.calls_ask hclear)))) (fun _ => ?_) (fun _ => stable _)
    fun _ _ hs => ⟨hs, by rintro n ⟨⟩⟩
  split
  · exact hfail _
  rename_i targetMajor _
  let call : InitdbCall :=
    { target := .pgdataNew, options := spec.initdb, pwfile := false,
      checksums := control.checksums, targetMajor }
  have hinitdb : agentMachine.Triple (Guarded d) (fun s => Serves d s.volume)
      (context "failed to run initdb — is it on PATH in this image?" (Task.ask (.initdb call))).run
      fun r s => Serves d s.volume ∧
        (∀ status, r = .ok status → status.success = true → Prepared s) := by
    have htame : Tame (AgentOp.initdb call) := by simp [Tame, call]
    refine triple_ask (fun s hs => guarded_of_tame htame hs) ?_ fun _ _ _ h => ⟨h.1, by simp⟩
    intro s r t hs hstep
    exact ⟨hs.step htame hstep, by rintro status rfl hok; exact initdb_prepares rfl hok hstep⟩
  refine Machine.Triple.task_bind hinitdb (fun status => ?_)
    (fun _ => stable _) fun _ _ hs => ⟨hs.1, by rintro n ⟨⟩⟩
  split
  · exact (hfail _).strengthen fun s hs => hs.1
  rename_i hok
  have hprepared : ∀ s : AgentState, (Serves d s.volume ∧ ∀ status', Except.ok status =
      (Except.ok status' : Except String ExitStatus) → status'.success = true → Prepared s) →
      Serves d s.volume ∧ Prepared s :=
    fun s hs => ⟨hs.1, hs.2 status rfl (by simpa using hok)⟩
  refine Machine.Triple.task_bind (.strengthen (quiet_keeps_with (fun _ _ h => Prepared.frame h)
    (pgConfig_still _).isQuiet) hprepared) (fun newBindir => ?_) (fun _ => stable _)
    fun _ _ hs => ⟨hs.1, by rintro n ⟨⟩⟩
  let plan : PgUpgradePlan :=
    { method := spec.method, jobs := spec.jobs, newPreload := spec.preloadLibraries,
      newBindir, checkOnly := spec.check }
  have hupgrade : agentMachine.Triple (Guarded d) (fun s => Serves d s.volume ∧ Prepared s)
      (context "failed to run pg_upgrade" (Task.ask (.pgUpgrade plan))).run
      fun r s => Serves d s.volume ∧ (∀ status, r = .ok status → status.success = true →
        spec.check = false → Upgraded d s.volume) := by
    refine triple_ask (fun s hs => guarded_of_tame trivial hs.1) ?_ fun _ _ _ h => ⟨h.1, by simp⟩
    intro s r t hs hstep
    refine ⟨hs.1.step (by trivial) hstep, ?_⟩
    rintro status rfl hok hcheck
    exact pgUpgrade_upgrades hcheck hok hs.1 hs.2 hstep
  refine Machine.Triple.task_bind hupgrade (fun status => ?_)
    (fun _ => stable _) fun _ _ hs => ⟨hs.1, by rintro n ⟨⟩⟩
  refine Machine.Triple.task_bind (quiet_keeps_with ?_ (Task.calls_perform trivial))
    (fun seconds => ?_) (fun _ => stable _) fun _ _ hs => ⟨hs.1, by rintro n ⟨⟩⟩
  · exact fun s t hframe hs status' h hok hcheck => (hs status' h hok hcheck).frame hframe
  split
  · exact Machine.Triple.task_bind (.strengthen (tame_keeps (Task.calls_attempt
      (Task.calls_ask hclear))) fun _ hs => hs.1) (fun _ => hfail _) (fun _ => stable _)
      fun _ _ hs => ⟨hs, by rintro n ⟨⟩⟩
  · rename_i hok
    exact .ret (stable _) fun s hs => ⟨hs.1, fun n _ => hs.2 status rfl (by simpa using hok)⟩

theorem upgradeInPlace_keeps {d : Contents} (spec : UpgradeSpec) :
    agentMachine.Triple (Guarded d) (fun s => Serves d s.volume) (upgradeInPlace spec).run
      fun _ s => Kept d s.volume := by
  have hserves : ∀ {t : AgentTask Unit}, t.run.Calls Tame →
      agentMachine.Triple (Guarded d) (fun s => Serves d s.volume) t.run
        fun _ s => Kept d s.volume :=
    fun ht => (tame_keeps ht).weaken fun _ _ hs => .inl hs
  refine Machine.Triple.task_bind (quiet_keeps (preflight_still spec).isQuiet) (fun control => ?_)
    (fun _ => stable _) fun _ _ hs => .inl hs
  refine Machine.Triple.task_bind (build_keeps spec control) (fun seconds => ?_)
    (fun _ => stable _) fun _ _ hs => .inl hs.1
  split
  · have hclear : Tame (AgentOp.removeDirAll .pgdataNew) := rfl
    refine .strengthen (hserves ?_) fun _ hs => hs.1
    exact Task.calls_bind (context_calls (Task.calls_ask hclear)) fun _ =>
      Prog.Calls.mono quiet_tame (report_still spec _ _).isQuiet
  · rename_i hcheck
    have hbuilt : ∀ s : AgentState, (Serves d s.volume ∧ ∀ n, Except.ok seconds =
        (Except.ok n : Except String Nat) → spec.check = false → Upgraded d s.volume) →
        Serves d s.volume ∧ Upgraded d s.volume :=
      fun s hs => ⟨hs.1, hs.2 seconds rfl (by simpa using hcheck)⟩
    refine Machine.Triple.task_bind (.strengthen (quiet_keeps_with (fun _ _ h hs => hs.frame h)
      (Task.calls_perform trivial)) hbuilt) (fun now => ?_) (fun _ => stable _)
      fun _ _ hs => .inl hs.1
    refine Machine.Triple.task_bind (swap_keeps _) (fun _ => ?_) (fun _ => stable _)
      fun _ _ hs => hs.1
    exact .strengthen (hserves (finish_tame spec _ seconds)) fun _ hs => hs.2 rfl

theorem isCluster_pending (d : Contents) :
    agentMachine.Triple (Guarded d) (fun s => SwapPending d s.volume) (isCluster .pgdataNew).run
      fun r s => SwapPending d s.volume ∧ r = .ok true := by
  have htest : ∀ rel, (∀ s : AgentState, SwapPending d s.volume →
      ((s.volume .pgdataNew).bind fun tr => tr.files rel).isSome = true) →
      agentMachine.Triple (Guarded d) (fun s => SwapPending d s.volume)
        (Task.perform (.isFile .pgdataNew rel) : AgentTask Bool).run
        fun r s => SwapPending d s.volume ∧ r = .ok true := by
    intro rel hrel
    have hstep : ∀ (s : AgentState) (b : Bool) (t : AgentState), SwapPending d s.volume →
        agentMachine.step (AgentOp.isFile .pgdataNew rel) s b t →
        SwapPending d t.volume ∧ b = true := by
      intro s b t hs hstep
      obtain ⟨hb, rfl⟩ := isFile_step hstep
      exact ⟨hs, hb.trans (hrel _ hs)⟩
    refine Machine.Triple.call (stable _) (fun s hs => ⟨trivial, .inr hs⟩) hstep fun b => ?_
    exact .ret (stable _) fun s hs => ⟨hs.1, by rw [hs.2]⟩
  have hfiles : ∀ s : AgentState, SwapPending d s.volume → ∃ t, s.volume .pgdataNew = some t ∧
      (t.files Tree.PG_VERSION).isSome = true ∧ (t.files Tree.PG_CONTROL).isSome = true := by
    rintro s ⟨-, t, ht, hcluster, -⟩
    simp only [Tree.isCluster, Bool.and_eq_true] at hcluster
    exact ⟨t, ht, hcluster⟩
  refine Machine.Triple.task_bind (htest _ fun s hs => ?_) (fun version => ?_) (fun _ => stable _)
    fun _ _ hs => absurd hs.2 (by simp)
  · obtain ⟨t, ht, hversion, -⟩ := hfiles s hs
    simpa [ht] using hversion
  cases version with
  | false => exact fun s hs => absurd hs.2 (by simp)
  | true =>
    refine Machine.Triple.task_bind (.strengthen (htest _ fun s hs => ?_) fun _ hs => hs.1)
      (fun control => ?_) (fun _ => stable _) fun _ _ hs => absurd hs.2 (by simp)
    · obtain ⟨t, ht, -, hcontrol⟩ := hfiles s hs
      simpa [ht] using hcontrol
    exact .ret (stable _) fun s hs => ⟨hs.1, by simpa using hs.2⟩

/-- `upgrade run` keeps the data wherever it stops, and resumes an interrupted swap. -/
theorem run_keeps {d : Contents} (decode : Option String → Except SpecError UpgradeSpec) :
    agentMachine.Keeps (Guarded d) (fun s => Kept d s.volume) (run decode).run := by
  refine .task_bind (stable _) (still_keeps (Task.calls_perform trivial)) fun env => ?_
  refine .task_bind (stable _) (still_keeps (context_calls (Task.calls_ofExcept _))) fun spec => ?_
  have hexists : agentMachine.Triple (Guarded d) (fun s => Kept d s.volume)
      (Task.perform (.dirExists .pgdata) : AgentTask Bool).run
      fun r s => r = .ok true ∧ Serves d s.volume ∨ r = .ok false ∧ SwapPending d s.volume := by
    have hstep : ∀ (s : AgentState) (b : Bool) (t : AgentState), Kept d s.volume →
        agentMachine.step (AgentOp.dirExists .pgdata) s b t →
        b = true ∧ Serves d t.volume ∨ b = false ∧ SwapPending d t.volume := by
      intro s b t hs hstep
      obtain ⟨hb, rfl⟩ := dirExists_step hstep
      rcases hs with ⟨tr, htr, hd⟩ | hs
      · exact .inl ⟨by rw [hb, htr, Option.isSome_some], tr, htr, hd⟩
      · exact .inr ⟨by rw [hb, hs.1, Option.isSome_none], hs⟩
    refine Machine.Triple.call (stable _) (fun s hs => ⟨trivial, hs⟩) hstep fun b => ?_
    exact .ret (stable _) fun s hs => by simpa using hs
  refine Machine.Triple.task_bind hexists (fun present => ?_) (fun _ => stable _)
    fun _ _ hs => by simp at hs
  cases present with
  | true =>
    have hplace : agentMachine.Triple (Guarded d)
        (fun s => (Except.ok true : Except String Bool) = .ok true ∧ Serves d s.volume ∨
          (Except.ok true : Except String Bool) = .ok false ∧ SwapPending d s.volume)
        (upgradeInPlace spec).run fun _ s => Kept d s.volume :=
      .strengthen (upgradeInPlace_keeps spec) fun s hs => by simpa using hs
    exact hplace
  | false =>
    refine Machine.Triple.task_bind (.strengthen (isCluster_pending d) fun s hs => by simpa using hs)
      (fun upgraded => ?_) (fun _ => stable _) fun _ _ hs => .inr hs.1
    cases upgraded with
    | true => exact .strengthen (completeSwap_keeps spec) fun _ hs => hs.1
    | false => exact fun s hs => absurd hs.2 (by simp)

end Upgrade

/-! ## Containers one after another -/

/-- The start of an instance does not find PGDATA gone and a cluster beside it. -/
def StartsOnData (a : Attempt) (v : Volume) : Prop :=
  a.job = .instanceRun → ¬ (v .pgdata = none ∧ ClusterBeside v)

theorem main_keeps {d : Contents} (A : Code) (a : Attempt) {v : Volume} (hkept : Kept d v)
    (hstart : StartsOnData a v) :
    agentMachine.Safe (Guarded d) (fun _ s => Kept d s.volume) (main A a.job).run (a.enter v) := by
  have hstill : ∀ {t : AgentTask Int}, IsStill t →
      agentMachine.Safe (Guarded d) (fun _ s => Kept d s.volume) t.run (a.enter v) :=
    fun ht => still_keeps ht (a.enter v) hkept
  cases hjob : a.job with
  | instanceRun =>
    rcases hkept with hserves | hpending
    · exact (instanceRun_keeps A.crates A.renderer (a.enter v) hserves).weaken fun _ _ h => .inl h
    · exact absurd ⟨hpending.1, hpending.clusterBeside⟩ (hstart hjob)
  | upgradeStage => exact hstill (Task.calls_bind Upgrade.stage_still fun _ => Task.calls_pure _)
  | upgradeProbe => exact hstill (Task.calls_bind Upgrade.probe_still fun _ => Task.calls_pure _)
  | upgradeRun =>
    exact Machine.Keeps.task_bind (stable _) (Upgrade.run_keeps A.upgradeSpec)
      (fun _ => .ret (stable _) fun _ h => h) (a.enter v) hkept

/-- **The volume keeps its data.**  Whatever containers run on it one after another, each cut
anywhere, as long as no instance starts between the renames. -/
theorem history_kept {d : Contents} (A : Code) {v₀ v : Volume} (h₀ : Kept d v₀)
    (h : (campaign A).History (fun a v _ _ => StartsOnData a v) v₀ v) : Kept d v := by
  refine h.invariant h₀ fun a v q s hkept hstands hmeets => ?_
  have hsafe := (main_keeps A a hkept hmeets).reach hstands
  cases q with
  | ret r => exact hsafe _ .refl
  | call op next => exact (hsafe _ .refl).1.2

/-- **No start of the instance re-initialises PGDATA beside a cluster, and what is served is
the old data or the upgraded data**, in every history whose starts find data in place. -/
theorem agent_keeps_data (A : Code) (d : Contents) (v₀ v : Volume) (h₀ : Serves d v₀)
    (h : (campaign A).History (fun a v _ _ => StartsOnData a v) v₀ v) (a : Attempt)
    (hstart : StartsOnData a v) {β : Type} (op : AgentOp β)
    (next : β → Prog AgentOp (Except String Int)) (s : AgentState)
    (hs : (campaign A).Stands a v (.call op next) s) : KeepsData d op s :=
  ((main_keeps A a (history_kept A (.inl h₀) h) hstart).at_call hs).1

/-! ## A start between the renames -/

namespace Sample

/-- A cluster of PostgreSQL 17 with a user's data. -/
def cluster17 : Tree :=
  { AgentOp.freshCluster image17 (some "s3cr3t") [INCLUDE_DIR_LINE] with
    db := some { roles := fun _ => none, databases := fun _ => none, contents := .user 7 } }

def volume17 : Volume := fun d => if d = .pgdata then some cluster17 else none

def said (lines : List String) : AgentChoice ⊕ Empty := .inl { lines }

/-- `upgrade run` up to its second rename. -/
def upToSecondRename : List (AgentChoice ⊕ Empty) :=
  [.inl {}, .inl {}, .inl {}, .inl {}, .inl {}, .inl {}, .inl {}, said ["pg_ctl"], .inl {}, .inl {},
   said ["pg_ctl (PostgreSQL) 17.6"],
   said ["Database cluster state: shut down", "Data page checksum version: 1"],
   .inl {}, .inl {}, .inl {}, .inl {}, .inl {}, .inl { text := "1700000000" }, .inl {}]

/-- What the upgrade leaves when it is killed before its second rename. -/
def betweenRenames : Volume :=
  (campaign (code {})).leave (agentExec.follow upToSecondRename
    ((campaign (code {})).program (attempt .upgradeRun image18))
    ((attempt .upgradeRun image18).enter volume17)).2

/-- `initdb` is about to run into PGDATA, and an upgraded cluster is beside it. -/
def initdbBesideCluster ⦃β : Type⦄ (op : AgentOp β) (s : AgentState) : Bool :=
  match op with
  | .initdb call => call.target = .pgdata && (s.volume .pgdataNew).any Tree.isCluster
  | _ => false

theorem not_keepsData {d : Contents} {β : Type} {op : AgentOp β} {s : AgentState}
    (h : initdbBesideCluster op s = true) : ¬ KeepsData d op s := by
  cases op with
  | initdb call =>
    simp only [initdbBesideCluster, Bool.and_eq_true, decide_eq_true_eq, Option.any_eq_true] at h
    obtain ⟨htarget, t, ht, hcluster⟩ := h
    exact fun hkeeps => hkeeps htarget (.inl ⟨t, ht, hcluster⟩)
  | _ => exact absurd h (by simp [initdbBesideCluster])

/-- **A start between the renames runs `initdb` into PGDATA** while the upgraded cluster stands
beside it. -/
theorem start_between_renames_reinitialises :
    Serves (.user 7) volume17 ∧
    (campaign (code {})).History (fun _ _ _ _ => True) volume17 betweenRenames ∧
    ∃ (β : Type) (op : AgentOp β) (next : β → Prog AgentOp (Except String Int)) (s : AgentState),
      (campaign (code {})).Stands (attempt .instanceRun image17) betweenRenames (.call op next) s ∧
        ¬ KeepsData (.user 7) op s := by
  refine ⟨⟨cluster17, rfl, rfl, _, rfl, rfl⟩, ?_, ?_⟩
  · exact .attempt .refl (agentExec.follow_reach upToSecondRename _ _) trivial
  · obtain ⟨β, op, next, s, hreach, htest⟩ := agentExec.follow_call initdbBesideCluster
      (List.replicate 18 (.inl {})) ((campaign (code {})).program (attempt .instanceRun image17))
      ((attempt .instanceRun image17).enter betweenRenames) (by decide +kernel)
    exact ⟨β, op, next, s, hreach, not_keepsData htest⟩

/-- The volume once a second `upgrade run` has finished the swap. -/
def completed : Volume :=
  (campaign (code {})).leave (agentExec.follow (List.replicate 6 (.inl {}))
    ((campaign (code {})).program (attempt .upgradeRun image18))
    ((attempt .upgradeRun image18).enter betweenRenames)).2

/-- Finished by a second `upgrade run`, the swap is followed by a start that serves the data. -/
theorem agent_keeps_data_after_resume :
    ∃ (β : Type) (op : AgentOp β) (next : β → Prog AgentOp (Except String Int)) (s : AgentState),
      (campaign (code {})).Stands (attempt .instanceRun image18) completed (.call op next) s ∧
        startsServer op s = true ∧ KeepsData (.user 7) op s := by
  have hhistory : (campaign (code {})).History (fun a v _ _ => StartsOnData a v)
      volume17 completed := by
    refine .attempt (.attempt .refl (agentExec.follow_reach upToSecondRename _ _) ?_)
      (agentExec.follow_reach (List.replicate 6 (.inl {})) _ _) ?_ <;> exact nofun
  have hstart : StartsOnData (attempt .instanceRun image18) completed := by
    have hsome : (completed .pgdata).isSome = true := by decide +kernel
    intro _ hnone
    rw [hnone.1] at hsome
    exact absurd hsome (by decide)
  obtain ⟨β, op, next, s, hreach, htest⟩ := agentExec.follow_call startsServer
    (List.replicate 26 (.inl {})) ((campaign (code {})).program (attempt .instanceRun image18))
    ((attempt .instanceRun image18).enter completed) (by decide +kernel)
  exact ⟨β, op, next, s, hreach, htest, agent_keeps_data (code {}) (.user 7) volume17 completed
    ⟨cluster17, rfl, rfl, _, rfl, rfl⟩ hhistory _ hstart op next s hreach⟩

end Sample

end Agent

end Pgpod
