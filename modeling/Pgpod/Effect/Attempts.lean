import Pgpod.Effect.Machine

/-!
# Histories of attempts

An attempt enters a machine from what the last one left behind, runs one
program, and is cut off at an arbitrary point or ends.  What survives a cut is
the persistent state `P`; everything else is made anew by `enter`.
-/

namespace Effect

universe u v

/-- A kind of attempt: how it starts from what persists, what it runs, and what it leaves. -/
structure Campaign (Op : Type → Type) (S : Type u) (P : Type v) (I α : Type) where
  machine : Machine Op S
  enter : I → P → S
  program : I → Prog Op α
  leave : S → P

namespace Campaign

variable {Op : Type → Type} {S : Type u} {P : Type v} {I α : Type} (C : Campaign Op S P I α)

/-- Attempt `i` on `p` can stand at `q` in the state `s`. -/
def Stands (i : I) (p : P) (q : Prog Op α) (s : S) : Prop :=
  C.machine.Reach (C.program i) (C.enter i p) q s

/-- Any number of attempts, each meeting `meets` and each cut anywhere. -/
inductive History (meets : I → P → Prog Op α → S → Prop) (p : P) : P → Prop
  | refl : History meets p p
  | attempt {p' : P} {i : I} {q : Prog Op α} {s : S} : History meets p p' →
      C.Stands i p' q s → meets i p' q s → History meets p (C.leave s)

variable {C}

/-- **Invariant of a history**: what every attempt that meets the condition keeps, from
wherever it is cut. -/
theorem History.invariant {meets : I → P → Prog Op α → S → Prop} {Inv : P → Prop} {p p' : P}
    (h : C.History meets p p') (hinit : Inv p)
    (hkeep : ∀ i p q s, Inv p → C.Stands i p q s → meets i p q s → Inv (C.leave s)) :
    Inv p' := by
  induction h with
  | refl => exact hinit
  | attempt _ hstands hmeets ih => exact hkeep _ _ _ _ ih hstands hmeets

end Campaign

end Effect
