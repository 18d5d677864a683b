import Pgpod.Agent.Frame
import Pgpod.Effect.Attempts

/-!
# Containers of the agent, one after another on one volume

Every container pgpod puts on an instance volume runs one subcommand of the
agent.  The volume is all that survives it, so a history of containers is a
history of attempts whose persistent state is the volume.
-/

namespace Pgpod

open Effect

namespace Agent

/-- The subcommands that run as PID 1 of a container with the volume. -/
inductive Job
  | instanceRun
  | upgradeStage
  | upgradeProbe
  | upgradeRun
deriving DecidableEq, Repr

/-- What the agent binary brings: its crates, its renderers, and how it decodes the upgrade
spec from the environment. -/
structure Code where
  crates : Crates
  renderer : Renderer
  upgradeSpec : Option String → Except SpecError UpgradeSpec

/-- `main`: the exit code, or the error it exits non-zero with. -/
def main (A : Code) : Job → AgentTask Int
  | .instanceRun => run A.crates A.renderer
  | .upgradeStage => do
    Upgrade.stage
    pure 0
  | .upgradeProbe => do
    Upgrade.probe
    pure 0
  | .upgradeRun => do
    Upgrade.run A.upgradeSpec
    pure 0

/-- One container on the volume: what it runs, in which image, and what is mounted. -/
structure Attempt where
  job : Job
  image : PgImage
  env : String → Option String
  mounts : String → Option String
  repository : String → Option Tree

def Attempt.enter (a : Attempt) (v : Volume) : AgentState where
  image := a.image
  env := a.env
  mounts := a.mounts
  repository := a.repository
  volume := v
  postmaster := none
  reports := []

/-- Containers one after another, each from the volume the last one left. -/
def campaign (A : Code) : Campaign AgentOp AgentState Volume Attempt (Except String Int) where
  machine := agentMachine
  enter := Attempt.enter
  program a := (main A a.job).run
  leave := AgentState.volume

theorem stable (I : AgentState → Prop) : agentMachine.Stable I := fun _ _ ⟨d, _⟩ => d.elim

/-- One operation whose error is reworded: nothing is said about the words. -/
theorem triple_ask {β : Type} {guard : ∀ ⦃γ : Type⦄, AgentOp γ → AgentState → Prop}
    {what : String} {op : AgentOp (Except String β)} {I : AgentState → Prop}
    {J : Except String β → AgentState → Prop} (hguard : ∀ s, I s → guard op s)
    (hstep : ∀ s r t, I s → agentMachine.step op s r t → J r t)
    (hwords : ∀ e e' s, J (.error e) s → J (.error e') s) :
    agentMachine.Triple guard I (context what (Task.ask op)).run J := by
  have hop : agentMachine.Triple guard I (.perform op) J :=
    .perform (stable _) (fun _ => stable _) hguard hstep
  refine .mapError hop (fun _ => stable _) fun r s h => ?_
  cases r with
  | ok b => exact h
  | error e => exact hwords _ _ s h

theorem isFile_step {dir : Dir} {rel : String} {s t : AgentState} {b : Bool}
    (h : agentMachine.step (AgentOp.isFile dir rel) s b t) :
    b = ((s.volume dir).bind fun tr => tr.files rel).isSome ∧ t = s := by
  obtain ⟨c, hc⟩ := h
  have hc' : (AgentOp.isFile dir rel).exec c s = (b, t) := hc
  simp only [AgentOp.exec, Prod.mk.injEq] at hc'
  exact ⟨hc'.1.symm, hc'.2.symm⟩

theorem dirExists_step {dir : Dir} {s t : AgentState} {b : Bool}
    (h : agentMachine.step (AgentOp.dirExists dir) s b t) :
    b = (s.volume dir).isSome ∧ t = s := by
  obtain ⟨c, hc⟩ := h
  have hc' : (AgentOp.dirExists dir).exec c s = (b, t) := hc
  simp only [AgentOp.exec, Prod.mk.injEq] at hc'
  exact ⟨hc'.1.symm, hc'.2.symm⟩

/-! ## A small setting

One cluster `mydb` with an application database, PostgreSQL 17 and 18, and the
documents written as the JSON they start with. -/

namespace Sample

def inst : InstanceId := ⟨⟨"mydb", mydb_valid⟩, 1⟩

def spec (init : InitdbBootstrap) : InstanceSpec where
  inst := inst
  port := 5432
  bootstrap := .initdb init
  parameters := []
  sharedPreloadLibraries := []
  networkCidr := none
  archiveCommand := none
  backup := {}

def upgradeSpec : UpgradeSpec where
  fromVersion := "17"
  toVersion := "18"
  stagedBindir := "/pgdata/.upgrade/old/usr/lib/postgresql/17/bin"
  stagedLibDirs := ["/pgdata/.upgrade/old/usr/lib/postgresql/17/lib"]
  method := .copy
  jobs := 1
  preloadLibraries := []
  check := false
  initdb := {}

def code (init : InitdbBootstrap) : Code where
  crates :=
    { isRfc3339 := fun _ => false
      instanceSpecToJson := fun _ => "spec"
      instanceSpecFromJson := fun _ => .ok (spec init) }
  renderer :=
    { managedConf := fun _ _ => ["port = 5432"]
      userConf := fun _ => .ok []
      hba := fun _ => ["local all all trust"]
      pgbackrestConf := fun _ _ _ => .ok [] }
  upgradeSpec := fun _ => .ok upgradeSpec

def image17 : PgImage := ⟨"PostgreSQL 17.6", "17", by decide +kernel⟩

def image18 : PgImage := ⟨"PostgreSQL 18.1", "18", by decide +kernel⟩

def attempt (job : Job) (image : PgImage) : Attempt where
  job := job
  image := image
  env := fun _ => some "spec"
  mounts := fun _ => some "s3cr3t"
  repository := fun _ => none

/-- The server is about to be started. -/
def startsServer ⦃β : Type⦄ (op : AgentOp β) (_ : AgentState) : Bool :=
  match op with
  | .spawnPostgres => true
  | _ => false

end Sample

end Agent

end Pgpod
