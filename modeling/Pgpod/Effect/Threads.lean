import Pgpod.Effect.Machine

/-!
# Threads that interleave over one state

A thread is a program under a role.  A system says what an operation does when a
thread performs it, what changes on its own, and when a new thread comes up.  One
step of a configuration is one operation of one thread, so a run is an arbitrary
interleaving.
-/

namespace Effect

universe u

/-- A program that runs under a role until it has nothing left to do. -/
structure Thread (Op : Type → Type) (ρ : Type) where
  role : ρ
  prog : Prog Op Unit

/-- What threads do to the state they share. -/
structure System (Op : Type → Type) (S : Type u) (ρ : Type) where
  step : Thread Op ρ → ∀ ⦃β : Type⦄, Op β → S → β → S → Prop
  drift : S → S → Prop
  start : S → S → Thread Op ρ → Prop

/-- The shared state, and the threads in the order they came up. -/
structure Config (Op : Type → Type) (S : Type u) (ρ : Type) where
  state : S
  threads : List (Thread Op ρ)

namespace System

variable {Op : Type → Type} {S : Type u} {ρ : Type} (Y : System Op S ρ)

/-- One operation of one thread, a change of the state on its own, or a new thread. -/
inductive Step : Config Op S ρ → Config Op S ρ → Prop
  | act {pre post : List (Thread Op ρ)} {role : ρ} {β : Type} {op : Op β} {next : β → Prog Op Unit}
      {s t : S} {b : β} : Y.step ⟨role, .call op next⟩ op s b t →
      Step ⟨s, pre ++ ⟨role, .call op next⟩ :: post⟩ ⟨t, pre ++ ⟨role, next b⟩ :: post⟩
  | drift {ths : List (Thread Op ρ)} {s t : S} : Y.drift s t → Step ⟨s, ths⟩ ⟨t, ths⟩
  | start {ths : List (Thread Op ρ)} {s t : S} {th : Thread Op ρ} : Y.start s t th →
      Step ⟨s, ths⟩ ⟨t, ths ++ [th]⟩

/-- The step of a thread that runs alone. -/
theorem Step.alone {role : ρ} {β : Type} {op : Op β} {next : β → Prog Op Unit} {s t : S} {b : β}
    (h : Y.step ⟨role, .call op next⟩ op s b t) :
    Y.Step ⟨s, [⟨role, .call op next⟩]⟩ ⟨t, [⟨role, next b⟩]⟩ :=
  @Step.act Op S ρ Y [] [] role β op next s t b h

/-- Any number of steps. -/
def Steps : Config Op S ρ → Config Op S ρ → Prop := Relation.ReflTransGen Y.Step

/-- **Invariant of an interleaving**: what every step keeps, every run keeps. -/
theorem Steps.invariant {Y : System Op S ρ} {Inv : Config Op S ρ → Prop} {c d : Config Op S ρ}
    (h : Y.Steps c d) (hinit : Inv c) (hkeep : ∀ c d, Y.Step c d → Inv c → Inv d) : Inv d := by
  induction h with
  | refl => exact hinit
  | tail _ hstep ih => exact hkeep _ _ hstep ih

/-- The system whose threads only take the steps that meet a condition. -/
def restrict (meets : Thread Op ρ → ∀ ⦃β : Type⦄, Op β → S → β → S → Prop) : System Op S ρ where
  step th _ op s b t := Y.step th op s b t ∧ meets th op s b t
  drift := Y.drift
  start := Y.start

end System

end Effect
