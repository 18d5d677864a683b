import Mathlib.Data.List.Nodup
import Mathlib.Logic.Function.Basic
import Mathlib.Logic.Relation

/-!
# The agent as PID 1

`supervise` of the instance agent and of the pooler agent: the handlers, the select over
the signals that came, and `reap`, over the children that PID 1 of a container has.
Between any two steps children appear, die, or are collected by the task of the agent that
spawned them.  A signal is not queued: several children can end with one SIGCHLD, and one
that ends before the handler is there leaves none.
-/

namespace Pgpod

namespace Supervise

/-! ## Signals and wait statuses -/

inductive SignalKind
  | terminate
  | interrupt
  | hangup
  | child
deriving DecidableEq

/-- A signal that nix has a name for. -/
structure Signal where
  number : Nat
  named : 1 ≤ number ∧ number ≤ 31
deriving DecidableEq

namespace Signal

def SIGHUP : Signal := ⟨1, by decide⟩
def SIGINT : Signal := ⟨2, by decide⟩
def SIGTERM : Signal := ⟨15, by decide⟩

/-- `Signal::try_from`: the real-time signals have no name. -/
def tryFrom (number : Nat) : Option Signal :=
  if named : 1 ≤ number ∧ number ≤ 31 then some ⟨number, named⟩ else none

end Signal

abbrev Pid := Nat

/-- How a process ended, as the kernel reports it. -/
inductive Death
  | exit (code : Nat)
  | kill (signal : Nat)
deriving DecidableEq

inductive WaitStatus
  | exited (pid : Pid) (code : Nat)
  | signaled (pid : Pid) (sig : Signal)
  | stillAlive
  | other

inductive Errno
  | ECHILD
  | EINVAL

def Errno.text : Errno → String
  | ECHILD => "ECHILD: No child processes"
  | EINVAL => "EINVAL: Invalid argument"

/-- The status nix makes of a child that `waitpid` took: it refuses a signal it cannot name,
and the child is gone all the same. -/
def Death.status (pid : Pid) : Death → Except Errno WaitStatus
  | .exit code => .ok (.exited pid code)
  | .kill number =>
    match Signal.tryFrom number with
    | some sig => .ok (.signaled pid sig)
    | none => .error .EINVAL

/-- The code a container exits with for its main process: as a shell spells it. -/
def Death.exitCode : Death → Option Nat
  | .exit code => some code
  | .kill number => (Signal.tryFrom number).map fun sig => 128 + sig.number

/-! ## The code -/

/-- What an arm of the select does with its signal. -/
inductive Arm
  | kill (sig : Signal)
  | reap
deriving DecidableEq

/-- An agent over the process it spawned: the signals it installs handlers for, in order,
and what it does with each. -/
structure Agent where
  main : Pid
  name : String
  arms : List (SignalKind × Arm)
  reaps : ∀ a ∈ arms, a.2 = .reap ↔ a.1 = .child
  hears : (.child, .reap) ∈ arms
  distinct : (arms.map Prod.fst).Nodup

/-- `supervise` of the instance agent. -/
def postgres (pid : Pid) : Agent where
  main := pid
  name := "postgres"
  arms := [(.terminate, .kill .SIGINT), (.interrupt, .kill .SIGINT), (.child, .reap)]
  reaps := by decide
  hears := by decide
  distinct := by decide

/-- `supervise` of the pooler agent. -/
def pgDoorman (pid : Pid) : Agent where
  main := pid
  name := "pg_doorman"
  arms := [(.terminate, .kill .SIGTERM), (.interrupt, .kill .SIGTERM), (.hangup, .kill .SIGHUP),
    (.child, .reap)]
  reaps := by decide
  hears := by decide
  distinct := by decide

def SignalKind.name : SignalKind → String
  | terminate => "SIGTERM"
  | interrupt => "SIGINT"
  | hangup => "SIGHUP"
  | child => "SIGCHLD"

/-- Where the agent is: at the next handler, at the select, in the loop of `reap`, or gone. -/
inductive Point
  | install (rest : List (SignalKind × Arm))
  | select
  | reap
  | returned (result : Except String Nat)

namespace Agent

/-- `failed to install … handler`. -/
def refusal (k : SignalKind) : String := "failed to install " ++ k.name ++ " handler"

/-- The match of `reap`: back to the loop, back to the select, or out of `supervise`. -/
def afterWait (A : Agent) : Except Errno WaitStatus → Point
  | .ok (.exited pid code) => if pid = A.main then .returned (.ok code) else .reap
  | .ok (.signaled pid sig) => if pid = A.main then .returned (.ok (128 + sig.number)) else .reap
  | .ok .stillAlive => .select
  | .ok .other => .reap
  | .error .ECHILD =>
    .returned (.error (A.name ++ " disappeared without reporting an exit status"))
  | .error e => .returned (.error ("waitpid failed: " ++ e.text))

end Agent

theorem Agent.afterWait_ne_install (A : Agent) (r : Except Errno WaitStatus)
    (rest : List (SignalKind × Arm)) : A.afterWait r ≠ .install rest := by
  unfold Agent.afterWait
  split <;> (try split) <;> simp

/-! ## The children of PID 1 -/

/-- A child that ended stays until it is waited for; `heard` is whether the handler was there
to catch its SIGCHLD. -/
inductive Fate
  | running
  | ended (d : Death) (heard : Bool)
deriving DecidableEq

structure Process where
  pid : Pid
  fate : Fate
deriving DecidableEq

structure World where
  children : List Process
  caught : SignalKind → Bool
  pending : SignalKind → Bool
  /-- The deaths of children so far. -/
  deaths : List (Pid × Death)
  /-- The signals the agent sent, the last one first. -/
  sent : List (Pid × Signal)
  point : Point

namespace World

/-- A signal sets its flag where a handler is there for it; without one PID 1 is not told. -/
def deliver (s : World) (k : SignalKind) : World :=
  { s with pending := Function.update s.pending k (s.pending k || s.caught k) }

/-- The stream of a signal yields, and waits for the next one. -/
def clear (s : World) (k : SignalKind) : World :=
  { s with pending := Function.update s.pending k false }

def handle (s : World) (k : SignalKind) : World :=
  { s with caught := Function.update s.caught k true }

def pids (s : World) : List Pid := s.children.map Process.pid

/-- A child that has just ended. -/
def dead (s : World) (p : Pid) (d : Death) : Process := ⟨p, .ended d (s.caught .child)⟩

def Gone (s : World) : Prop := ∃ r, s.point = .returned r

theorem pending_clear {s : World} {k k' : SignalKind} :
    (s.clear k).pending k' = true ↔ k' ≠ k ∧ s.pending k' = true := by
  by_cases h : k' = k <;> simp [clear, h]

theorem pending_deliver {s : World} {k k' : SignalKind} :
    (s.deliver k).pending k' = true ↔
      s.pending k' = true ∨ k' = k ∧ s.caught k = true := by
  by_cases h : k' = k
  · subst h
    simp [deliver]
  · simp [deliver, h]

theorem caught_handle {s : World} {k k' : SignalKind} :
    (s.handle k).caught k' = true ↔ k' = k ∨ s.caught k' = true := by
  by_cases h : k' = k <;> simp [handle, h]

end World

/-- `waitpid` for any child, not waiting for one. -/
inductive Waits : List Process → Except Errno WaitStatus → List Process → Prop
  | took {pre post : List Process} {p : Pid} {d : Death} {heard : Bool} :
      Waits (pre ++ ⟨p, .ended d heard⟩ :: post) (d.status p) (pre ++ post)
  | stillAlive {cs : List Process} : cs ≠ [] → (∀ c ∈ cs, c.fate = .running) →
      Waits cs (.ok .stillAlive) cs
  | childless : Waits [] (.error .ECHILD) []

/-- One step of the agent's code. -/
inductive Act (A : Agent) : World → World → Prop
  | install {s : World} {k : SignalKind} {arm : Arm} {rest : List (SignalKind × Arm)} :
      s.point = .install ((k, arm) :: rest) →
      Act A s { s.handle k with point := .install rest }
  | refused {s : World} {k : SignalKind} {arm : Arm} {rest : List (SignalKind × Arm)} :
      s.point = .install ((k, arm) :: rest) →
      Act A s { s with point := .returned (.error (Agent.refusal k)) }
  | installed {s : World} : s.point = .install [] → Act A s { s with point := .select }
  | forward {s : World} {k : SignalKind} {sig : Signal} :
      s.point = .select → s.pending k = true → (k, .kill sig) ∈ A.arms →
      Act A s { s.clear k with sent := (A.main, sig) :: s.sent }
  | wake {s : World} {k : SignalKind} :
      s.point = .select → s.pending k = true → (k, .reap) ∈ A.arms →
      Act A s { s.clear k with point := .reap }
  | wait {s : World} {r : Except Errno WaitStatus} {cs : List Process} :
      s.point = .reap → Waits s.children r cs →
      Act A s { s with children := cs, point := A.afterWait r }

/-- What happens around the agent: a child is spawned or inherited, running or already dead; one
ends; a signal comes; or a task of the agent collects a child of its own, never the main one. -/
inductive Drift (A : Agent) : World → World → Prop
  | spawn {s : World} {p : Pid} : p ∉ s.pids →
      Drift A s { s with children := ⟨p, .running⟩ :: s.children }
  | inherit {s : World} {p : Pid} {d : Death} : p ∉ s.pids →
      Drift A s (World.deliver { s with
        children := s.dead p d :: s.children
        deaths := (p, d) :: s.deaths } .child)
  | exit {s : World} {pre post : List Process} {p : Pid} {d : Death} :
      s.children = pre ++ ⟨p, .running⟩ :: post →
      Drift A s (World.deliver { s with
        children := pre ++ s.dead p d :: post
        deaths := (p, d) :: s.deaths } .child)
  | signal {s : World} {k : SignalKind} : Drift A s (s.deliver k)
  | collect {s : World} {pre post : List Process} {c : Process} :
      s.children = pre ++ c :: post → c.pid ≠ A.main → c.fate ≠ .running →
      Drift A s { s with children := pre ++ post }

/-- The container is gone with the agent. -/
inductive Step (A : Agent) (s t : World) : Prop
  | act : Act A s t → Step A s t
  | drift : ¬ s.Gone → Drift A s t → Step A s t

/-- Right after the main process was spawned: it runs, and no handler is there yet. -/
structure Starts (A : Agent) (s : World) : Prop where
  point : s.point = .install A.arms
  caught : ∀ k, s.caught k = false
  pending : ∀ k, s.pending k = false
  sent : s.sent = []
  distinct : s.pids.Nodup
  main : ⟨A.main, .running⟩ ∈ s.children
  fresh : ∀ d, (A.main, d) ∉ s.deaths
  recorded : ∀ c ∈ s.children, ∀ d heard, c.fate = .ended d heard →
    (c.pid, d) ∈ s.deaths ∧ heard = false

theorem Act.stays {A : Agent} {s t : World} (h : Act A s t) : ¬ s.Gone := by
  rintro ⟨r, hr⟩
  cases h <;> simp_all

/-! ## The handlers -/

/-- The handlers still to install and those that are there make up the arms; only what has a
handler can be pending. -/
structure Handled (A : Agent) (s : World) : Prop where
  rest : ∀ rest, s.point = .install rest →
    rest ⊆ A.arms ∧ ∀ a ∈ A.arms, a ∈ rest ∨ s.caught a.1 = true
  caught : (∀ rest, s.point ≠ .install rest) → ¬ s.Gone → ∀ a ∈ A.arms, s.caught a.1 = true
  known : ∀ k, s.caught k = true → k ∈ A.arms.map Prod.fst
  pending : ∀ k, s.pending k = true → s.caught k = true

namespace Handled

variable {A : Agent} {s t : World}

theorem same (h : Handled A s) (hpoint : t.point = s.point) (hcaught : t.caught = s.caught)
    (hpending : t.pending = s.pending) : Handled A t := by
  refine ⟨?_, ?_, ?_, ?_⟩
  · rw [hpoint, hcaught]
    exact h.rest
  · rw [World.Gone, hpoint, hcaught]
    exact h.caught
  · rw [hcaught]
    exact h.known
  · rw [hcaught, hpending]
    exact h.pending

theorem deliver (h : Handled A s) (k : SignalKind) : Handled A (s.deliver k) := by
  refine ⟨h.rest, h.caught, h.known, fun k' hk' => ?_⟩
  rcases World.pending_deliver.1 hk' with hpending | ⟨rfl, hcaught⟩
  · exact h.pending _ hpending
  · exact hcaught

/-- A step that leaves the handlers alone, clears at most a flag, and is not at a handler. -/
theorem of_le (h : Handled A s) (hs : ¬ s.Gone) (hcaught : t.caught = s.caught)
    (hpending : ∀ k, t.pending k = true → s.pending k = true)
    (hnow : ∀ rest, s.point ≠ .install rest) (hthen : ∀ rest, t.point ≠ .install rest) :
    Handled A t := by
  refine ⟨fun rest hrest => absurd hrest (hthen rest), fun _ _ => ?_, ?_, ?_⟩
  · rw [hcaught]
    exact h.caught hnow hs
  · rw [hcaught]
    exact h.known
  · rw [hcaught]
    exact fun k hk => h.pending k (hpending k hk)

theorem install (h : Handled A s) {k : SignalKind} {arm : Arm} {rest : List (SignalKind × Arm)}
    (hpoint : s.point = .install ((k, arm) :: rest)) :
    Handled A { s.handle k with point := .install rest } := by
  obtain ⟨hsub, hleft⟩ := h.rest _ hpoint
  have hmem : (k, arm) ∈ A.arms := hsub (List.mem_cons_self ..)
  refine ⟨fun rest' hrest' => ?_, fun hno => absurd rfl (hno rest), fun k' hk' => ?_, ?_⟩
  · cases hrest'
    refine ⟨fun a ha => hsub (List.mem_cons_of_mem _ ha), fun a ha => ?_⟩
    rcases hleft a ha with hrest | hcaught
    · rcases List.mem_cons.1 hrest with rfl | hrest
      · exact .inr (World.caught_handle.2 (.inl rfl))
      · exact .inl hrest
    · exact .inr (World.caught_handle.2 (.inr hcaught))
  · rcases World.caught_handle.1 hk' with rfl | hcaught
    · exact List.mem_map_of_mem hmem
    · exact h.known k' hcaught
  · intro k' hk'
    exact World.caught_handle.2 (.inr (h.pending k' hk'))

theorem act (h : Handled A s) (hact : Act A s t) : Handled A t := by
  have hs := hact.stays
  cases hact with
  | install hpoint => exact h.install hpoint
  | refused hpoint =>
    exact ⟨by rintro rest ⟨⟩, fun _ hgone => absurd ⟨_, rfl⟩ hgone, h.known, h.pending⟩
  | installed hpoint =>
    obtain ⟨-, hleft⟩ := h.rest _ hpoint
    refine ⟨by rintro rest ⟨⟩, fun _ _ a ha => ?_, h.known, h.pending⟩
    exact (hleft a ha).resolve_left List.not_mem_nil
  | forward hpoint _ _ =>
    refine h.of_le hs rfl (fun k' hk' => ?_) (by simp [hpoint]) (by simp [World.clear, hpoint])
    exact (World.pending_clear.1 hk').2
  | wake hpoint _ _ =>
    refine h.of_le hs rfl (fun k' hk' => ?_) (by simp [hpoint]) (by simp)
    exact (World.pending_clear.1 hk').2
  | wait hpoint hwaits =>
    exact h.of_le hs rfl (fun k' hk' => hk') (by simp [hpoint]) (A.afterWait_ne_install _)

theorem drift (h : Handled A s) (hdrift : Drift A s t) : Handled A t := by
  cases hdrift with
  | spawn _ => exact h.same rfl rfl rfl
  | inherit _ => exact (h.deliver .child).same rfl rfl rfl
  | exit _ => exact (h.deliver .child).same rfl rfl rfl
  | signal => exact h.deliver _
  | collect _ _ _ => exact h.same rfl rfl rfl

end Handled

/-! ## What is known of the main process -/

/-- The message of a wait that nix could not read. -/
def unnamed : String := "waitpid failed: " ++ Errno.EINVAL.text

theorem afterWait_status (A : Agent) (p : Pid) (d : Death) :
    A.afterWait (d.status p) = d.exitCode.elim (.returned (.error unnamed)) fun code =>
      if p = A.main then .returned (.ok code) else .reap := by
  cases d with
  | exit code => rfl
  | kill number =>
    simp only [Death.status, Death.exitCode]
    cases Signal.tryFrom number with
    | none => rfl
    | some sig => rfl

/-- A child that was taken keeps `reap` going or ends `supervise`. -/
theorem afterWait_busy (A : Agent) (p : Pid) (d : Death) :
    A.afterWait (d.status p) = .reap ∨ ∃ r, A.afterWait (d.status p) = .returned r := by
  rw [afterWait_status]
  cases d.exitCode with
  | none => exact .inr ⟨_, rfl⟩
  | some code =>
    rw [Option.elim_some]
    split
    · exact .inr ⟨_, rfl⟩
    · exact .inl rfl

/-- The record agrees with the fate of the main process. -/
def Known (A : Agent) (deaths : List (Pid × Death)) : Fate → Prop
  | .running => ∀ d, (A.main, d) ∉ deaths
  | .ended d _ => ∀ d', (A.main, d') ∈ deaths ↔ d' = d

/-- Until the agent returns the main process is among the children, unreaped; what it returns is
how that process ended. -/
structure Accounted (A : Agent) (s : World) : Prop where
  distinct : s.pids.Nodup
  recorded : ∀ c ∈ s.children, ∀ d heard, c.fate = .ended d heard → (c.pid, d) ∈ s.deaths
  standing : ¬ s.Gone → ∃ f, ⟨A.main, f⟩ ∈ s.children ∧ Known A s.deaths f
  own : ∀ code, s.point = .returned (.ok code) →
    ∃ d, d.exitCode = some code ∧ ∀ d', (A.main, d') ∈ s.deaths ↔ d' = d
  blamed : ∀ e, s.point = .returned (.error e) →
    (∃ a ∈ A.arms, e = Agent.refusal a.1) ∨
      e = unnamed ∧ ∃ p d, (p, d) ∈ s.deaths ∧ d.exitCode = none

namespace Accounted

variable {A : Agent} {s t : World}

/-- A step of the code that waits for nobody and does not return. -/
theorem of_eq (h : Accounted A s) (hs : ¬ s.Gone) (hchildren : t.children = s.children)
    (hdeaths : t.deaths = s.deaths) (ht : ¬ t.Gone) : Accounted A t where
  distinct := by
    unfold World.pids
    rw [hchildren]
    exact h.distinct
  recorded := by
    rw [hchildren, hdeaths]
    exact h.recorded
  standing _ := by
    rw [hchildren, hdeaths]
    exact h.standing hs
  own code hcode := absurd ⟨_, hcode⟩ ht
  blamed e he := absurd ⟨_, he⟩ ht

/-- Two children of one pid are one child. -/
theorem unique (h : Accounted A s) {p : Pid} {f g : Fate} (hf : ⟨p, f⟩ ∈ s.children)
    (hg : ⟨p, g⟩ ∈ s.children) : f = g := by
  have heq := List.inj_on_of_nodup_map h.distinct hf hg rfl
  exact congrArg Process.fate heq

theorem mem_pids {p : Pid} {f : Fate} (hf : ⟨p, f⟩ ∈ s.children) : p ∈ s.pids :=
  List.mem_map_of_mem (f := Process.pid) hf

/-- A child that is taken off the table, or was never on it, is not the main process. -/
theorem standing_rest (h : Accounted A s) (hs : ¬ s.Gone) {pre post : List Process} {c : Process}
    (hchildren : s.children = pre ++ c :: post) (hc : c.pid ≠ A.main) :
    ∃ f, ⟨A.main, f⟩ ∈ pre ++ post ∧ Known A s.deaths f := by
  obtain ⟨f, hf, hknown⟩ := h.standing hs
  refine ⟨f, ?_, hknown⟩
  rw [hchildren] at hf
  rcases List.mem_append.1 hf with hpre | hpost
  · exact List.mem_append_left _ hpre
  · rcases List.mem_cons.1 hpost with rfl | hpost
    · exact absurd rfl hc
    · exact List.mem_append_right _ hpost

theorem sublist_rest {pre post : List Process} {c : Process}
    (hchildren : s.children = pre ++ c :: post) : (pre ++ post).Sublist s.children := by
  rw [hchildren]
  exact List.Sublist.append_left (List.sublist_cons_self c post) pre

/-- `reap` takes a child: the main process with its code, or another one. -/
theorem took (h : Accounted A s) (hpoint : s.point = .reap) {pre post : List Process} {p : Pid}
    {d : Death} {heard : Bool} (hchildren : s.children = pre ++ ⟨p, .ended d heard⟩ :: post) :
    Accounted A { s with children := pre ++ post, point := A.afterWait (d.status p) } := by
  have hs : ¬ s.Gone := by
    rintro ⟨r, hr⟩
    rw [hpoint] at hr
    cases hr
  have hmem : ⟨p, .ended d heard⟩ ∈ s.children := by simp [hchildren]
  have hdied := h.recorded _ hmem d heard rfl
  have hsub := sublist_rest hchildren
  refine ⟨h.distinct.sublist (hsub.map _), fun c hc => h.recorded c (hsub.subset hc), ?_, ?_, ?_⟩
  · intro hgone
    have hp : p ≠ A.main := by
      rintro rfl
      apply hgone
      rw [World.Gone, afterWait_status]
      cases d.exitCode <;> simp
    exact h.standing_rest hs hchildren hp
  · intro code hcode
    rw [afterWait_status] at hcode
    cases hd : d.exitCode with
    | none => simp [hd] at hcode
    | some own =>
      rw [hd, Option.elim_some] at hcode
      split at hcode
      · next hp =>
        subst hp
        obtain ⟨f, hf, hknown⟩ := h.standing hs
        obtain rfl := h.unique hmem hf
        cases hcode
        exact ⟨d, hd, hknown⟩
      · cases hcode
  · intro e he
    rw [afterWait_status] at he
    cases hd : d.exitCode with
    | none =>
      rw [hd, Option.elim_none] at he
      cases he
      exact .inr ⟨rfl, p, d, hdied, hd⟩
    | some own =>
      rw [hd, Option.elim_some] at he
      split at he <;> cases he

theorem act (h : Accounted A s) (hhandled : Handled A s) (hact : Act A s t) : Accounted A t := by
  have hs := hact.stays
  cases hact with
  | install hpoint => exact h.of_eq hs rfl rfl (by rintro ⟨r, ⟨⟩⟩)
  | @refused k arm rest hpoint =>
    refine ⟨h.distinct, h.recorded, fun hgone => absurd ⟨_, rfl⟩ hgone, ?_, ?_⟩
    · intro code hcode
      cases hcode
    · intro e he
      cases he
      exact .inl ⟨(k, arm), (hhandled.rest _ hpoint).1 (List.mem_cons_self ..), rfl⟩
  | installed hpoint => exact h.of_eq hs rfl rfl (by rintro ⟨r, ⟨⟩⟩)
  | forward hpoint _ _ => exact h.of_eq hs rfl rfl hs
  | wake hpoint _ _ => exact h.of_eq hs rfl rfl (by rintro ⟨r, ⟨⟩⟩)
  | wait hpoint hwaits =>
    generalize hchildren : s.children = cs at hwaits
    cases hwaits with
    | took => exact h.took hpoint hchildren
    | stillAlive hne hall => exact h.of_eq hs hchildren.symm rfl (by rintro ⟨r, ⟨⟩⟩)
    | childless =>
      obtain ⟨f, hf, -⟩ := h.standing hs
      rw [hchildren] at hf
      cases hf

/-- A new child has a pid of its own, so it is not the main process. -/
theorem cons (h : Accounted A s) (hs : ¬ s.Gone) {p : Pid} (hp : p ∉ s.pids) {f : Fate}
    {deaths : List (Pid × Death)} (hchildren : t.children = ⟨p, f⟩ :: s.children)
    (hdeaths : t.deaths = deaths ++ s.deaths) (hnew : ∀ x ∈ deaths, x.1 = p)
    (hf : ∀ d heard, f = .ended d heard → (p, d) ∈ deaths) (ht : ¬ t.Gone) : Accounted A t := by
  obtain ⟨g, hg, hknown⟩ := h.standing hs
  have hmain : A.main ≠ p := fun heq => hp (heq ▸ mem_pids hg)
  have hsame : ∀ d, (A.main, d) ∈ t.deaths ↔ (A.main, d) ∈ s.deaths := by
    intro d
    rw [hdeaths, List.mem_append]
    exact ⟨fun hd => hd.resolve_left fun hd => hmain (hnew _ hd), .inr⟩
  refine ⟨?_, ?_, fun _ => ⟨g, ?_, ?_⟩, fun code hcode => absurd ⟨_, hcode⟩ ht,
    fun e he => absurd ⟨_, he⟩ ht⟩
  · rw [World.pids, hchildren]
    exact List.nodup_cons.2 ⟨hp, h.distinct⟩
  · intro c hc d heard hd
    rw [hdeaths, List.mem_append]
    rw [hchildren] at hc
    rcases List.mem_cons.1 hc with rfl | hc
    · exact .inl (hf d heard hd)
    · exact .inr (h.recorded c hc d heard hd)
  · rw [hchildren]
    exact List.mem_cons_of_mem _ hg
  · cases g with
    | running => exact fun d hd => hknown d ((hsame d).1 hd)
    | ended d heard => exact fun d' => (hsame d').trans (hknown d')

/-- A child ends: the main process is then known to have ended so. -/
theorem exit (h : Accounted A s) (hs : ¬ s.Gone) {pre post : List Process} {p : Pid} {d : Death}
    {heard : Bool} (hwas : s.children = pre ++ ⟨p, .running⟩ :: post)
    (hchildren : t.children = pre ++ ⟨p, .ended d heard⟩ :: post)
    (hdeaths : t.deaths = (p, d) :: s.deaths) (ht : ¬ t.Gone) : Accounted A t := by
  have hmem : ⟨p, .running⟩ ∈ s.children := by simp [hwas]
  have hmem' : ⟨p, .ended d heard⟩ ∈ t.children := by simp [hchildren]
  have hothers : ∀ c ∈ t.children, c = ⟨p, .ended d heard⟩ ∨ c ∈ s.children := by
    intro c hc
    simp only [hchildren, hwas, List.mem_append, List.mem_cons] at hc ⊢
    tauto
  have hkept : ∀ c ∈ s.children, c = ⟨p, .running⟩ ∨ c ∈ t.children := by
    intro c hc
    simp only [hchildren, hwas, List.mem_append, List.mem_cons] at hc ⊢
    tauto
  obtain ⟨g, hg, hknown⟩ := h.standing hs
  refine ⟨?_, ?_, fun _ => ?_, fun code hcode => absurd ⟨_, hcode⟩ ht,
    fun e he => absurd ⟨_, he⟩ ht⟩
  · have hpids : t.pids = s.pids := by simp [World.pids, hwas, hchildren]
    rw [hpids]
    exact h.distinct
  · intro c hc d' heard' hd'
    rw [hdeaths]
    rcases hothers c hc with rfl | hc
    · cases hd'
      exact List.mem_cons_self ..
    · exact List.mem_cons_of_mem _ (h.recorded c hc d' heard' hd')
  · by_cases hp : p = A.main
    · subst hp
      obtain rfl := h.unique hg hmem
      refine ⟨.ended d heard, hmem', fun d' => ?_⟩
      rw [hdeaths, List.mem_cons]
      exact ⟨fun hd => hd.elim (fun heq => congrArg Prod.snd heq)
        fun hd => absurd hd (hknown d'), fun hd => .inl (hd ▸ rfl)⟩
    · have hsame : ∀ d', (A.main, d') ∈ t.deaths ↔ (A.main, d') ∈ s.deaths := by
        intro d'
        rw [hdeaths, List.mem_cons]
        exact ⟨fun hd => hd.resolve_left fun heq => hp (congrArg Prod.fst heq).symm, .inr⟩
      refine ⟨g, (hkept _ hg).resolve_left fun heq => hp (congrArg Process.pid heq).symm, ?_⟩
      cases g with
      | running => exact fun d' hd => hknown d' ((hsame d').1 hd)
      | ended d₀ heard₀ => exact fun d' => (hsame d').trans (hknown d')

theorem drift (h : Accounted A s) (hs : ¬ s.Gone) (hdrift : Drift A s t) : Accounted A t := by
  cases hdrift with
  | spawn hp =>
    exact h.cons hs hp rfl (List.nil_append _).symm (by simp) (by rintro d heard ⟨⟩) hs
  | @inherit p d hp =>
    refine @cons A s _ h hs p hp _ [(p, d)] rfl rfl (by simp) ?_ hs
    rintro d' heard ⟨⟩
    exact List.mem_cons_self ..
  | exit hchildren => exact h.exit hs hchildren rfl rfl hs
  | signal => exact h.of_eq hs rfl rfl hs
  | collect hchildren hmain _ =>
    have hsub := sublist_rest hchildren
    exact ⟨h.distinct.sublist (hsub.map _), fun c hc => h.recorded c (hsub.subset hc),
      fun _ => h.standing_rest hs hchildren hmain, h.own, h.blamed⟩

end Accounted

/-! ## No signal is lost -/

/-- At the select, a child whose SIGCHLD was caught has set the flag that leads to `reap`. -/
def Heard (s : World) : Prop :=
  ∀ c ∈ s.children, ∀ d, c.fate = .ended d true → ¬ s.Gone → s.point ≠ .reap →
    s.pending .child = true

namespace Heard

variable {A : Agent} {s t : World}

theorem of_subset (h : Heard s) (hs : ¬ s.Gone) (hpoint : s.point ≠ .reap)
    (hchildren : t.children ⊆ s.children)
    (hpending : s.pending .child = true → t.pending .child = true) : Heard t :=
  fun c hc d hd _ _ => hpending (h c (hchildren hc) d hd hs hpoint)

theorem heard_of_dead {p : Pid} {d d' : Death} (h : (s.dead p d).fate = .ended d' true) :
    s.caught .child = true := by
  unfold World.dead at h
  injection h

theorem act (h : Heard s) (hact : Act A s t) : Heard t := by
  have hs := hact.stays
  cases hact with
  | install hpoint => exact h.of_subset hs (by simp [hpoint]) (List.Subset.refl _) id
  | refused hpoint => exact h.of_subset hs (by simp [hpoint]) (List.Subset.refl _) id
  | installed hpoint => exact h.of_subset hs (by simp [hpoint]) (List.Subset.refl _) id
  | @forward k sig hpoint _ harm =>
    refine h.of_subset hs (by simp [hpoint]) (List.Subset.refl _) fun hpending => ?_
    refine World.pending_clear.2 ⟨?_, hpending⟩
    rintro rfl
    cases (A.reaps _ harm).2 rfl
  | wake hpoint _ _ => exact fun _ _ _ _ _ hno => absurd rfl hno
  | wait hpoint hwaits =>
    intro c hc d hd hgone hno
    generalize s.children = cs at hwaits
    cases hwaits with
    | took => exact (afterWait_busy A _ _).elim (absurd · hno) (absurd · hgone)
    | stillAlive _ hall =>
      rw [hall c hc] at hd
      cases hd
    | childless => cases hc

theorem drift (h : Heard s) (hdrift : Drift A s t) : Heard t := by
  cases hdrift with
  | spawn _ =>
    intro c hc d hd hgone hno
    rcases List.mem_cons.1 hc with rfl | hc
    · cases hd
    · exact h c hc d hd hgone hno
  | inherit _ =>
    intro c hc d hd hgone hno
    refine World.pending_deliver.2 ?_
    rcases List.mem_cons.1 hc with rfl | hc
    · exact .inr ⟨rfl, heard_of_dead hd⟩
    · exact .inl (h c hc d hd hgone hno)
  | @exit pre post p d' hchildren =>
    intro c hc d hd hgone hno
    refine World.pending_deliver.2 ?_
    rcases List.mem_append.1 hc with hpre | hrest
    · exact .inl (h c (by simp [hchildren, hpre]) d hd hgone hno)
    · rcases List.mem_cons.1 hrest with rfl | hpost
      · exact .inr ⟨rfl, heard_of_dead hd⟩
      · exact .inl (h c (by simp [hchildren, hpost]) d hd hgone hno)
  | signal =>
    exact fun c hc d hd hgone hno => World.pending_deliver.2 (.inl (h c hc d hd hgone hno))
  | collect hchildren _ _ =>
    exact fun c hc => h c ((Accounted.sublist_rest hchildren).subset hc)

end Heard

/-! ## Runs -/

/-- What holds of an agent from its start on. -/
structure Sound (A : Agent) (s : World) : Prop where
  handled : Handled A s
  accounted : Accounted A s
  heard : Heard s
  signals : ∀ x ∈ s.sent, x.1 = A.main ∧ ∃ k, (k, .kill x.2) ∈ A.arms

namespace Sound

variable {A : Agent} {s t : World}

theorem act (h : Sound A s) (hact : Act A s t) : Sound A t := by
  refine ⟨h.handled.act hact, h.accounted.act h.handled hact, h.heard.act hact, ?_⟩
  cases hact with
  | @forward k sig _ _ harm =>
    intro x hx
    rcases List.mem_cons.1 hx with rfl | hx
    · exact ⟨rfl, k, harm⟩
    · exact h.signals x hx
  | install _ => exact h.signals
  | refused _ => exact h.signals
  | installed _ => exact h.signals
  | wake _ _ _ => exact h.signals
  | wait _ _ => exact h.signals

theorem step (h : Sound A s) (hstep : Step A s t) : Sound A t := by
  cases hstep with
  | act hact => exact h.act hact
  | drift hs hdrift =>
    refine ⟨h.handled.drift hdrift, h.accounted.drift hs hdrift, h.heard.drift hdrift, ?_⟩
    cases hdrift <;> exact h.signals

theorem of_starts (h : Starts A s) : Sound A s where
  handled := by
    refine ⟨fun rest hrest => ?_, fun hno => absurd h.point (hno A.arms), ?_, ?_⟩
    · rw [h.point] at hrest
      cases hrest
      exact ⟨List.Subset.refl _, fun a ha => .inl ha⟩
    · intro k hk
      rw [h.caught k] at hk
      cases hk
    · intro k hk
      rw [h.pending k] at hk
      cases hk
  accounted := by
    refine ⟨h.distinct, fun c hc d heard hd => (h.recorded c hc d heard hd).1,
      fun _ => ⟨.running, h.main, h.fresh⟩, ?_, ?_⟩
    · intro code hcode
      rw [h.point] at hcode
      cases hcode
    · intro e he
      rw [h.point] at he
      cases he
  heard := by
    intro c hc d hd
    cases (h.recorded c hc d true hd).2
  signals := by
    intro x hx
    rw [h.sent] at hx
    cases hx

end Sound

/-- Any number of steps, of the agent and of what is around it. -/
def Run (A : Agent) : World → World → Prop := Relation.ReflTransGen (Step A)

theorem Run.sound {A : Agent} {s t : World} (hrun : Run A s t) (hstart : Starts A s) :
    Sound A t := by
  induction hrun with
  | refl => exact .of_starts hstart
  | tail _ hstep ih => exact ih.step hstep

/-- **`supervise` returns how its own process ended**, whatever other children die or are
collected meanwhile.  It never finds that process gone: the only failures are a handler that could
not be installed, and a child, any child, that a signal without a name killed.  While it runs the
process is unreaped, so no signal goes to another one under its pid, and each signal it sends
answers one that came. -/
theorem supervise_own_exit (A : Agent) {s t : World} (hstart : Starts A s) (hrun : Run A s t) :
    (∀ code, t.point = .returned (.ok code) →
      ∃ d, d.exitCode = some code ∧ ∀ d', (A.main, d') ∈ t.deaths ↔ d' = d) ∧
    (∀ e, t.point = .returned (.error e) →
      (∃ a ∈ A.arms, e = Agent.refusal a.1) ∨
        e = unnamed ∧ ∃ p d, (p, d) ∈ t.deaths ∧ d.exitCode = none) ∧
    ∀ u, Act A t u → (∃ f, ⟨A.main, f⟩ ∈ t.children) ∧
      (u.sent = t.sent ∨ ∃ k sig, t.pending k = true ∧ u.pending k = false ∧
        (k, .kill sig) ∈ A.arms ∧ u.sent = (A.main, sig) :: t.sent) := by
  have hsound := hrun.sound hstart
  refine ⟨hsound.accounted.own, hsound.accounted.blamed, fun u hact => ⟨?_, ?_⟩⟩
  · obtain ⟨f, hf, -⟩ := hsound.accounted.standing hact.stays
    exact ⟨f, hf⟩
  · cases hact with
    | @forward k sig hpoint hpending harm =>
      exact .inr ⟨k, sig, hpending, Function.update_self .., harm, rfl⟩
    | install _ => exact .inl rfl
    | refused _ => exact .inl rfl
    | installed _ => exact .inl rfl
    | wake _ _ _ => exact .inl rfl
    | wait _ _ => exact .inl rfl

/-- Steps of the code alone: nothing dies, appears or signals meanwhile. -/
def Alone (A : Agent) : World → World → Prop := Relation.ReflTransGen (Act A)

theorem Alone.run {A : Agent} {s t : World} (h : Alone A s t) : Run A s t :=
  Relation.ReflTransGen.mono (fun _ _ => Step.act) _ _ h

/-- The code alone gets to the select, unless a handler is refused. -/
theorem exists_listening (A : Agent) {rest : List (SignalKind × Arm)} :
    ∀ s : World, s.point = .install rest → ∃ t, Alone A s t ∧ t.point = .select ∧
      t.children = s.children ∧ t.pending = s.pending ∧ t.deaths = s.deaths ∧
      ∀ a, a ∈ rest ∨ s.caught a.1 = true → t.caught a.1 = true := by
  induction rest with
  | nil =>
    intro s hpoint
    exact ⟨_, .single (.installed hpoint), rfl, rfl, rfl, rfl, fun a ha =>
      ha.resolve_left List.not_mem_nil⟩
  | cons b rest ih =>
    intro s hpoint
    obtain ⟨t, halone, hselect, hchildren, hpending, hdeaths, hcaught⟩ :=
      ih { s.handle b.1 with point := .install rest } rfl
    refine ⟨t, .head (.install hpoint) halone, hselect, hchildren, hpending, hdeaths, ?_⟩
    intro a ha
    apply hcaught
    rcases ha with hmem | hthere
    · rcases List.mem_cons.1 hmem with rfl | hmem
      · exact .inr (World.caught_handle.2 (.inl rfl))
      · exact .inl hmem
    · exact .inr (World.caught_handle.2 (.inr hthere))

/-- PostgreSQL is asked for a fast shutdown, never for a smart one. -/
theorem postgres_sent {pid : Pid} {s t : World} (hstart : Starts (postgres pid) s)
    (hrun : Run (postgres pid) s t) : ∀ x ∈ t.sent, x = (pid, Signal.SIGINT) := by
  have harms : ∀ a ∈ (postgres pid).arms, ∀ sig, a.2 = .kill sig → sig = Signal.SIGINT := by
    simp [postgres]
  intro x hx
  obtain ⟨hpid, k, harm⟩ := (hrun.sound hstart).signals x hx
  exact Prod.ext hpid (harms _ harm _ rfl)

/-- A SIGINT would have pg_doorman replace itself, so none is sent. -/
theorem pgDoorman_sent {pid : Pid} {s t : World} (hstart : Starts (pgDoorman pid) s)
    (hrun : Run (pgDoorman pid) s t) : ∀ x ∈ t.sent, x.2 ≠ Signal.SIGINT := by
  have harms : ∀ a ∈ (pgDoorman pid).arms, a.2 ≠ .kill Signal.SIGINT := by
    simp [pgDoorman, Signal.SIGTERM, Signal.SIGHUP, Signal.SIGINT]
  intro x hx heq
  obtain ⟨-, k, harm⟩ := (hrun.sound hstart).signals x hx
  exact harms _ harm (congrArg Arm.kill heq)

namespace Sample

/-- PostgreSQL has just been spawned. -/
def spawned : World where
  children := [⟨7, .running⟩]
  caught := fun _ => false
  pending := fun _ => false
  deaths := []
  sent := []
  point := .install (postgres 7).arms

theorem starts : Starts (postgres 7) spawned where
  point := rfl
  caught _ := rfl
  pending _ := rfl
  sent := rfl
  distinct := List.nodup_singleton 7
  main := List.mem_singleton_self _
  fresh _ := List.not_mem_nil
  recorded := by
    intro c hc d heard hd
    cases List.mem_singleton.1 hc
    cases hd

/-- An inherited child exits, then PostgreSQL is killed: one SIGCHLD, and `reap` takes both. -/
theorem run_killed : ∃ t, Run (postgres 7) spawned t ∧ t.point = .returned (.ok 137) := by
  obtain ⟨⟨_, caught, _, _, _, _⟩, halone, rfl, rfl, rfl, rfl, hcaught⟩ :=
    exists_listening (postgres 7) spawned rfl
  have hheard : caught .child = true := hcaught _ (.inl (postgres 7).hears)
  have hstays : ∀ {s : World}, s.point = .select → ¬ s.Gone := by
    rintro s hs ⟨r, hr⟩
    cases hs.symm.trans hr
  have hinherit := halone.run.tail (.drift (hstays rfl) (.inherit (p := 9) (d := .exit 0)
    fun hmem => absurd (List.mem_singleton.1 hmem) (by decide)))
  have hkilled := hinherit.tail (.drift (hstays rfl) (@Drift.exit _ _ [_] _ _ (.kill 9) rfl))
  have hwoken := hkilled.tail (.act (.wake (k := .child) rfl
    (World.pending_deliver.2 (.inr ⟨rfl, hheard⟩)) (by decide)))
  have hother := hwoken.tail (.act (.wait rfl (@Waits.took [] _ _ _ _)))
  exact ⟨_, hother.tail (.act (.wait rfl (@Waits.took [] _ _ _ _))), rfl⟩

end Sample

theorem Sample.killed_own_exit : ∃ t, Run (postgres 7) spawned t ∧
    t.point = .returned (.ok 137) ∧
    ∃ d, d.exitCode = some 137 ∧ ∀ d', (7, d') ∈ t.deaths ↔ d' = d := by
  obtain ⟨t, hrun, ht⟩ := run_killed
  exact ⟨t, hrun, ht, (supervise_own_exit (postgres 7) starts hrun).1 137 ht⟩

/-! ## The agent left to itself -/

/-- The code has no step: it waits for a signal, or is gone. -/
def Settled (A : Agent) (s : World) : Prop := ∀ t, ¬ Act A s t

def Point.cost : Point → Nat
  | install rest => rest.length + 1
  | select => 0
  | reap => 1
  | returned _ => 0

namespace World

def zombies (s : World) : Nat := s.children.countP fun c => c.fate ≠ .running

def flags (s : World) : Nat :=
  (s.pending .terminate).toNat + (s.pending .interrupt).toNat + (s.pending .hangup).toNat +
    (s.pending .child).toNat

/-- What is left to do: each flag costs a turn of the select and one of `reap`. -/
def rank (s : World) : Nat := 2 * s.flags + s.zombies + s.point.cost

theorem flags_clear {s : World} {k : SignalKind} (h : s.pending k = true) :
    (s.clear k).flags + 1 = s.flags := by
  cases k <;> simp [flags, clear, h] <;> omega

end World

theorem zombies_took {pre post : List Process} {p : Pid} {d : Death} {heard : Bool} :
    (pre ++ ⟨p, .ended d heard⟩ :: post).countP (fun c => decide (c.fate ≠ .running)) =
      (pre ++ post).countP (fun c => decide (c.fate ≠ .running)) + 1 := by
  rw [List.countP_append, List.countP_cons_of_pos (by simp), List.countP_append]
  omega

theorem Act.rank_lt {A : Agent} {s t : World} (h : Act A s t) : t.rank < s.rank := by
  unfold World.rank
  cases h with
  | install hpoint =>
    simp [World.flags, World.zombies, World.handle, Point.cost, hpoint]
  | refused hpoint =>
    simp [World.flags, World.zombies, Point.cost, hpoint]
  | installed hpoint => simp [World.flags, World.zombies, Point.cost, hpoint]
  | @forward k sig hpoint hpending _ =>
    have hflags := World.flags_clear hpending
    have hzombies : (s.clear k).zombies = s.zombies := rfl
    have hcost : (s.clear k).point.cost = s.point.cost := rfl
    change 2 * (s.clear k).flags + (s.clear k).zombies + (s.clear k).point.cost < _
    omega
  | @wake k hpoint hpending _ =>
    have hflags := World.flags_clear hpending
    have hzombies : (s.clear k).zombies = s.zombies := rfl
    change 2 * (s.clear k).flags + (s.clear k).zombies + 1 < _
    omega
  | @wait r cs hpoint hwaits =>
    have hflags : World.flags { s with children := cs, point := A.afterWait r } = s.flags := rfl
    have hcost : s.point.cost = 1 := by rw [hpoint]; rfl
    rw [hflags, hcost]
    unfold World.zombies
    generalize s.children = cs' at hwaits ⊢
    cases hwaits with
    | @took pre post p d heard =>
      have hbusy : (A.afterWait (d.status p)).cost ≤ 1 := by
        rcases afterWait_busy A p d with h | ⟨r, h⟩
        · rw [h]
          exact Nat.le_refl 1
        · rw [h]
          exact Nat.zero_le 1
      have := @zombies_took pre post p d heard
      simp only at this ⊢
      omega
    | stillAlive _ _ => simp [Agent.afterWait, Point.cost]
    | childless => simp [Agent.afterWait, Point.cost]

theorem length_le_rank {A : Agent} {l : List World} :
    ∀ {s : World}, List.IsChain (Act A) (s :: l) → l.length ≤ s.rank := by
  induction l with
  | nil => exact fun _ => Nat.zero_le _
  | cons t l ih =>
    intro s h
    rw [List.isChain_cons_cons] at h
    have hlt := h.1.rank_lt
    have hle := ih h.2
    rw [List.length_cons]
    omega

theorem Sound.alone {A : Agent} {s t : World} (h : Sound A s) (halone : Alone A s t) :
    Sound A t := by
  induction halone with
  | refl => exact h
  | tail _ hact ih => exact ih.act hact

/-- `waitpid` always answers. -/
theorem Waits.exists_answer (cs : List Process) : ∃ r cs', Waits cs r cs' := by
  by_cases hall : ∀ c ∈ cs, c.fate = .running
  · cases cs with
    | nil => exact ⟨_, _, .childless⟩
    | cons c cs => exact ⟨_, _, .stillAlive (List.cons_ne_nil _ _) hall⟩
  · push Not at hall
    obtain ⟨⟨p, f⟩, hc, hf⟩ := hall
    obtain ⟨pre, post, rfl⟩ := List.append_of_mem hc
    cases f with
    | running => exact absurd rfl hf
    | ended d heard => exact ⟨_, _, .took⟩

/-- An agent that has settled is gone, or at the select with no flag set. -/
theorem Settled.idle {A : Agent} {s : World} (h : Settled A s) (hsound : Sound A s) :
    s.Gone ∨ s.point = .select ∧ ∀ k, s.pending k = false := by
  cases hpoint : s.point with
  | install rest =>
    cases rest with
    | nil => exact absurd (.installed hpoint) (h _)
    | cons a rest => exact absurd (.install hpoint) (h _)
  | select =>
    refine .inr ⟨rfl, fun k => ?_⟩
    by_contra hk
    have hpending : s.pending k = true := by simpa using hk
    have hmem := hsound.handled.known k (hsound.handled.pending k hpending)
    obtain ⟨⟨k', arm⟩, ha, rfl⟩ := List.mem_map.1 hmem
    cases arm with
    | kill sig => exact h _ (.forward hpoint hpending ha)
    | reap => exact h _ (.wake hpoint hpending ha)
  | reap =>
    obtain ⟨r, cs, hwaits⟩ := Waits.exists_answer s.children
    exact absurd (.wait hpoint hwaits) (h _)
  | returned r => exact .inl ⟨r, hpoint⟩

/-- The code alone settles. -/
theorem exists_settled (A : Agent) (s : World) : ∃ t, Alone A s t ∧ Settled A t := by
  induction hn : s.rank using Nat.strongRecOn generalizing s with
  | ind n ih =>
    by_cases hs : Settled A s
    · exact ⟨s, .refl, hs⟩
    · unfold Settled at hs
      push Not at hs
      obtain ⟨u, hu⟩ := hs
      obtain ⟨t, ht, hsettled⟩ := ih u.rank (hn ▸ hu.rank_lt) u rfl
      exact ⟨t, .head hu ht, hsettled⟩

/-- An arm is told by its signal. -/
theorem Agent.arm_unique (A : Agent) {k : SignalKind} {a b : Arm} (ha : (k, a) ∈ A.arms)
    (hb : (k, b) ∈ A.arms) : a = b := by
  have heq := List.inj_on_of_nodup_map A.distinct ha hb rfl
  exact congrArg Prod.snd heq

/-- A signal that is to be passed on stays pending until it is. -/
theorem Act.passes {A : Agent} {s t : World} (h : Act A s t) {k : SignalKind} {sig : Signal}
    (harm : (k, .kill sig) ∈ A.arms) :
    ∃ new, t.sent = new ++ s.sent ∧
      (s.pending k = true → t.pending k = true ∨ (A.main, sig) ∈ new) := by
  cases h with
  | @forward k' sig' _ _ harm' =>
    refine ⟨[(A.main, sig')], rfl, fun hpending => ?_⟩
    by_cases hk : k = k'
    · subst hk
      cases A.arm_unique harm harm'
      exact .inr (List.mem_singleton_self _)
    · exact .inl (World.pending_clear.2 ⟨hk, hpending⟩)
  | wake _ _ harm' =>
    refine ⟨[], rfl, fun hpending => .inl (World.pending_clear.2 ⟨?_, hpending⟩)⟩
    rintro rfl
    cases A.arm_unique harm harm'
  | install _ => exact ⟨[], rfl, .inl⟩
  | refused _ => exact ⟨[], rfl, .inl⟩
  | installed _ => exact ⟨[], rfl, .inl⟩
  | wait _ _ => exact ⟨[], rfl, .inl⟩

theorem Alone.passes {A : Agent} {s t : World} (h : Alone A s t) {k : SignalKind} {sig : Signal}
    (harm : (k, .kill sig) ∈ A.arms) (hpending : s.pending k = true) :
    ∃ new, t.sent = new ++ s.sent ∧ (t.pending k = true ∨ (A.main, sig) ∈ new) := by
  induction h with
  | refl => exact ⟨[], rfl, .inl hpending⟩
  | tail _ hact ih =>
    obtain ⟨new, hnew, hor⟩ := ih
    obtain ⟨new', hnew', hor'⟩ := hact.passes harm
    refine ⟨new' ++ new, by rw [hnew', hnew, List.append_assoc], ?_⟩
    rcases hor with hstill | hsent
    · exact (hor' hstill).imp_right (List.mem_append_left _)
    · exact .inr (List.mem_append_right _ hsent)

/-- The main process stays as it is until the agent is gone. -/
theorem Act.main {A : Agent} {s t : World} (h : Act A s t) {f : Fate}
    (hf : ⟨A.main, f⟩ ∈ s.children) : t.Gone ∨ ⟨A.main, f⟩ ∈ t.children := by
  cases h with
  | @wait r cs hpoint hwaits =>
    generalize s.children = cs' at hf hwaits
    cases hwaits with
    | @took pre post p d heard =>
      by_cases hp : p = A.main
      · refine .inl ?_
        rw [World.Gone, afterWait_status]
        cases d.exitCode with
        | none => exact ⟨_, rfl⟩
        | some code => exact ⟨.ok code, if_pos hp⟩
      · refine .inr ?_
        rcases List.mem_append.1 hf with hpre | hpost
        · exact List.mem_append_left _ hpre
        · rcases List.mem_cons.1 hpost with heq | hpost
          · exact absurd (congrArg Process.pid heq).symm hp
          · exact List.mem_append_right _ hpost
    | stillAlive _ _ => exact .inr hf
    | childless => cases hf
  | install _ => exact .inr hf
  | refused _ => exact .inr hf
  | installed _ => exact .inr hf
  | forward _ _ _ => exact .inr hf
  | wake _ _ _ => exact .inr hf

/-- Whether `reap` is on its way. -/
def Waking (s : World) : Prop := s.point = .reap ∨ s.pending .child = true

theorem Act.waking {A : Agent} {s t : World} (h : Act A s t) {d : Death} {heard : Bool}
    (hmain : ⟨A.main, .ended d heard⟩ ∈ s.children) (hwaking : Waking s) : t.Gone ∨ Waking t := by
  cases h with
  | @wait r cs hpoint hwaits =>
    generalize s.children = cs' at hmain hwaits
    cases hwaits with
    | took => exact (afterWait_busy A _ _).elim (fun h => .inr (.inl h)) .inl
    | stillAlive _ hall => cases hall _ hmain
    | childless => cases hmain
  | @forward k sig hpoint _ harm =>
    refine .inr (.inr (World.pending_clear.2 ⟨?_, ?_⟩))
    · rintro rfl
      cases (A.reaps _ harm).2 rfl
    · exact hwaking.resolve_left (by simp [hpoint])
  | wake _ _ _ => exact .inr (.inl rfl)
  | refused _ => exact .inl ⟨_, rfl⟩
  | install hpoint => exact .inr (.inr (hwaking.resolve_left (by simp [hpoint])))
  | installed hpoint => exact .inr (.inr (hwaking.resolve_left (by simp [hpoint])))

/-- Asleep at the select: what comes is passed on, and nothing is reaped. -/
theorem Act.asleep {A : Agent} {s t : World} (h : Act A s t) (hpoint : s.point = .select)
    (hquiet : s.pending .child = false) : t.point = .select ∧ t.pending .child = false := by
  cases h with
  | @forward k sig _ _ _ =>
    refine ⟨hpoint, ?_⟩
    have hclear : (s.clear k).pending .child ≠ true := by
      intro hpending
      have hwas := (World.pending_clear.1 hpending).2
      rw [hquiet] at hwas
      cases hwas
    exact Bool.eq_false_iff.2 hclear
  | @wake k _ hpending harm =>
    obtain rfl := (A.reaps _ harm).1 rfl
    rw [hquiet] at hpending
    cases hpending
  | install hpoint' => cases hpoint.symm.trans hpoint'
  | refused hpoint' => cases hpoint.symm.trans hpoint'
  | installed hpoint' => cases hpoint.symm.trans hpoint'
  | wait hpoint' _ => cases hpoint.symm.trans hpoint'

theorem Alone.waking {A : Agent} {s t : World} (h : Alone A s t) {d : Death} {heard : Bool}
    (hmain : ⟨A.main, .ended d heard⟩ ∈ s.children) (hwaking : Waking s) :
    t.Gone ∨ Waking t ∧ ⟨A.main, .ended d heard⟩ ∈ t.children := by
  induction h with
  | refl => exact .inr ⟨hwaking, hmain⟩
  | tail _ hact ih =>
    rcases ih with hgone | ⟨hwaking, hmain⟩
    · exact absurd hgone hact.stays
    · rcases hact.waking hmain hwaking with hgone | hwaking'
      · exact .inl hgone
      · exact (hact.main hmain).imp_right fun hmain' => ⟨hwaking', hmain'⟩

theorem Alone.asleep {A : Agent} {s t : World} (h : Alone A s t) (hpoint : s.point = .select)
    (hquiet : s.pending .child = false) : t.point = .select ∧ t.pending .child = false := by
  induction h with
  | refl => exact ⟨hpoint, hquiet⟩
  | tail _ hact ih => exact hact.asleep ih.1 ih.2

theorem Settled.gone_iff {A : Agent} {s t : World} (hsound : Sound A t) (halone : Alone A s t)
    (hsettled : Settled A t) {d : Death} {heard : Bool}
    (hmain : ⟨A.main, .ended d heard⟩ ∈ s.children) (hpoint : s.point = .select ∨ s.point = .reap) :
    t.Gone ↔ Waking s := by
  constructor
  · rintro ⟨r, hr⟩
    rcases hpoint with hselect | hreap
    · by_contra hno
      have hquiet : s.pending .child = false := by
        rw [← Bool.not_eq_true]
        exact fun hpending => hno (.inr hpending)
      have hstill := (halone.asleep hselect hquiet).1
      rw [hr] at hstill
      cases hstill
    · exact .inl hreap
  · intro hwaking
    rcases halone.waking hmain hwaking with hgone | ⟨hwaking', -⟩
    · exact hgone
    · rcases hsettled.idle hsound with hgone | ⟨hselect, hflags⟩
      · exact hgone
      · rcases hwaking' with hreap | hpending
        · cases hselect.symm.trans hreap
        · rw [hflags] at hpending
          cases hpending

/-- **No signal is lost once its handler is there.**  Left to itself the agent settles within its
rank: it is gone, or it waits with nothing pending over a process that runs, or that ended before
the handler for SIGCHLD was there; and what was to be passed on is.  Where that process has ended,
the agent ends with it exactly when it is in `reap` or the flag of SIGCHLD is set: otherwise it
waits for another child to end. -/
theorem supervise_settles (A : Agent) {s₀ s : World} (hstart : Starts A s₀) (hrun : Run A s₀ s) :
    (∀ l, List.IsChain (Act A) (s :: l) → l.length ≤ s.rank) ∧
    ∀ t, Alone A s t → Settled A t →
      (t.Gone ∨ t.point = .select ∧ (∀ k, t.pending k = false) ∧
        ∃ f, ⟨A.main, f⟩ ∈ t.children ∧ ∀ d, f ≠ .ended d true) ∧
      (∀ k sig, s.pending k = true → (k, .kill sig) ∈ A.arms →
        t.Gone ∨ ∃ new, t.sent = new ++ s.sent ∧ (A.main, sig) ∈ new) ∧
      ∀ d heard, ⟨A.main, .ended d heard⟩ ∈ s.children →
        s.point = .select ∨ s.point = .reap → (t.Gone ↔ Waking s) := by
  refine ⟨fun l hl => length_le_rank hl, fun t halone hsettled => ?_⟩
  have hsound : Sound A t := (hrun.sound hstart).alone halone
  refine ⟨?_, ?_, fun d heard hmain hpoint => hsettled.gone_iff hsound halone hmain hpoint⟩
  · rcases hsettled.idle hsound with hgone | ⟨hselect, hflags⟩
    · exact .inl hgone
    · have hstays : ¬ t.Gone := by
        rintro ⟨r, hr⟩
        cases hselect.symm.trans hr
      obtain ⟨f, hf, -⟩ := hsound.accounted.standing hstays
      refine .inr ⟨hselect, hflags, f, hf, ?_⟩
      rintro d rfl
      have hpending := hsound.heard _ hf d rfl hstays (by simp [hselect])
      rw [hflags] at hpending
      cases hpending
  · intro k sig hpending harm
    obtain ⟨new, hnew, hor⟩ := halone.passes harm hpending
    rcases hsettled.idle hsound with hgone | ⟨-, hflags⟩
    · exact .inl hgone
    · refine .inr ⟨new, hnew, hor.resolve_left ?_⟩
      rw [hflags]
      exact Bool.false_ne_true

namespace Sample

/-- PostgreSQL exits before the agent has a handler for SIGCHLD. -/
def deaf : World :=
  { spawned with
    children := [⟨7, .ended (.exit 1) false⟩]
    deaths := [(7, .exit 1)] }

theorem run_deaf : Run (postgres 7) spawned deaf := by
  have hstays : ¬ spawned.Gone := by
    rintro ⟨r, hr⟩
    cases hr
  have hdeaf : World.deliver { spawned with
      children := [spawned.dead 7 (.exit 1)]
      deaths := [(7, .exit 1)] } .child = deaf := by
    simp [World.deliver, World.dead, spawned, deaf]
  have hexit : Drift (postgres 7) spawned _ := @Drift.exit _ _ [] _ _ (.exit 1) rfl
  exact .single (.drift hstays (hdeaf ▸ hexit))

end Sample

theorem Sample.deaf_settles : ∃ s t, Run (postgres 7) spawned s ∧ s.point = .select ∧
    ⟨7, .ended (.exit 1) false⟩ ∈ s.children ∧ Alone (postgres 7) s t ∧
    Settled (postgres 7) t ∧ ¬ t.Gone := by
  obtain ⟨s, halone, hselect, hchildren, hpending, -⟩ := exists_listening (postgres 7) deaf rfl
  have hrun := run_deaf.trans halone.run
  have hmain : ⟨7, .ended (.exit 1) false⟩ ∈ s.children := by simp [hchildren, deaf]
  obtain ⟨t, halone', hsettled⟩ := exists_settled (postgres 7) s
  refine ⟨s, t, hrun, hselect, hmain, halone', hsettled, fun hgone => ?_⟩
  have hwaking := (((supervise_settles (postgres 7) starts hrun).2 t halone' hsettled).2.2
    (.exit 1) false hmain (.inl hselect)).1 hgone
  rcases hwaking with hreap | hwoken
  · cases hselect.symm.trans hreap
  · rw [hpending] at hwoken
    cases hwoken

end Supervise

end Pgpod
