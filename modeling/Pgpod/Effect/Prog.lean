import Mathlib.Init

/-!
# Programs over a signature of operations

A program either has finished with a value or performs one operation of the
signature `Op` and goes on with the answer.  An operation of type `Op β` is
answered by a `β`, so a fallible operation is one whose answer is an `Except`.
`Task` is the program that can end early with an error; its `bind` is the `?`
of the languages that spell early return that way.
-/

namespace Effect

/-- A program: a finished value, or one operation and what follows its answer. -/
inductive Prog (Op : Type → Type) (α : Type) : Type 1
  | ret (a : α) : Prog Op α
  | call {β : Type} (op : Op β) (next : β → Prog Op α) : Prog Op α

namespace Prog

variable {Op Op' : Type → Type} {α β γ : Type}

def bind : Prog Op α → (α → Prog Op β) → Prog Op β
  | ret a, f => f a
  | call op next, f => call op fun b => (next b).bind f

instance : Monad (Prog Op) where
  pure := ret
  bind := bind

@[simp] theorem pure_eq (a : α) : (pure a : Prog Op α) = ret a := rfl

@[simp] theorem ret_bind (a : α) (f : α → Prog Op β) : (ret a).bind f = f a := rfl

@[simp] theorem call_bind (op : Op γ) (next : γ → Prog Op α) (f : α → Prog Op β) :
    (call op next).bind f = call op fun b => (next b).bind f := rfl

@[simp] theorem bind_eq (p : Prog Op α) (f : α → Prog Op β) : p >>= f = p.bind f := rfl

@[simp] theorem bind_ret (p : Prog Op α) : p.bind ret = p := by
  induction p with
  | ret a => rfl
  | call op next ih => simp only [call_bind, ih]

theorem bind_assoc (p : Prog Op α) (f : α → Prog Op β) (g : β → Prog Op γ) :
    (p.bind f).bind g = p.bind fun a => (f a).bind g := by
  induction p with
  | ret a => rfl
  | call op next ih => simp only [call_bind, ih]

/-- One operation, answered. -/
def perform (op : Op α) : Prog Op α := call op ret

@[simp] theorem perform_bind (op : Op α) (f : α → Prog Op β) :
    (perform op).bind f = call op f := rfl

/-- The value of a program that has finished. -/
def value? : Prog Op α → Option α
  | ret a => some a
  | call _ _ => none

theorem eq_ret_of_value {p : Prog Op α} {a : α} (h : p.value? = some a) : p = ret a := by
  cases p with
  | ret b => rw [Option.some.inj h]
  | call op next => cases h

/-- `p` calls only operations that satisfy `P`, whatever they answer. -/
def Calls (P : ∀ ⦃β : Type⦄, Op β → Prop) : Prog Op α → Prop
  | ret _ => True
  | call op next => P op ∧ ∀ b, (next b).Calls P

theorem Calls.bind {P : ∀ ⦃β : Type⦄, Op β → Prop} {p : Prog Op α} {f : α → Prog Op β}
    (hp : p.Calls P) (hf : ∀ a, (f a).Calls P) : (p.bind f).Calls P := by
  induction p with
  | ret a => exact hf a
  | call op next ih => exact ⟨hp.1, fun b => ih b (hp.2 b)⟩

theorem Calls.mono {P Q : ∀ ⦃β : Type⦄, Op β → Prop} (hPQ : ∀ ⦃β⦄ (op : Op β), P op → Q op)
    {p : Prog Op α} (hp : p.Calls P) : p.Calls Q := by
  induction p with
  | ret a => trivial
  | call op next ih => exact ⟨hPQ op hp.1, fun b => ih b (hp.2 b)⟩

theorem Calls.of_forall {P : ∀ ⦃β : Type⦄, Op β → Prop} (hP : ∀ ⦃β⦄ (op : Op β), P op)
    (p : Prog Op α) : p.Calls P := by
  induction p with
  | ret a => trivial
  | call op next ih => exact ⟨hP op, ih⟩

/-- Every value `p` can return satisfies `P`, whatever the operations answer. -/
def Returns (P : α → Prop) : Prog Op α → Prop
  | ret a => P a
  | call _ next => ∀ b, (next b).Returns P

theorem Returns.bind {P : α → Prop} {Q : β → Prop} {p : Prog Op α} {f : α → Prog Op β}
    (hp : p.Returns P) (hf : ∀ a, P a → (f a).Returns Q) : (p.bind f).Returns Q := by
  induction p with
  | ret a => exact hf a hp
  | call op next ih => exact fun b => ih b (hp b)

theorem Returns.trivial (p : Prog Op α) : p.Returns fun _ => True := by
  induction p with
  | ret a => exact True.intro
  | call op next ih => exact ih

/-- Every value `p` can return satisfies `P` when every operation gives an answer it admits. -/
def Ends (A : ∀ ⦃β : Type⦄, Op β → β → Prop) (P : α → Prop) : Prog Op α → Prop
  | ret a => P a
  | call op next => ∀ b, A op b → (next b).Ends A P

theorem Ends.bind {A : ∀ ⦃β : Type⦄, Op β → β → Prop} {P : α → Prop} {Q : β → Prop}
    {p : Prog Op α} {f : α → Prog Op β} (hp : p.Ends A P) (hf : ∀ a, P a → (f a).Ends A Q) :
    (p.bind f).Ends A Q := by
  induction p with
  | ret a => exact hf a hp
  | call op next ih => exact fun b hb => ih b (hp b hb)

theorem Ends.trivial {A : ∀ ⦃β : Type⦄, Op β → β → Prop} (p : Prog Op α) :
    p.Ends A fun _ => True := by
  induction p with
  | ret a => exact True.intro
  | call op next ih => exact fun b _ => ih b

/-- Once an operation that satisfies `P` is called, only operations that satisfy `Q` follow. -/
def After (P Q : ∀ ⦃β : Type⦄, Op β → Prop) : Prog Op α → Prop
  | ret _ => True
  | call op next => (P op → ∀ b, (next b).Calls Q) ∧ ∀ b, (next b).After P Q

theorem After.bind {P Q : ∀ ⦃β : Type⦄, Op β → Prop} {p : Prog Op α} {f : α → Prog Op β}
    (hp : p.Calls fun _ op => ¬ P op) (hf : ∀ a, (f a).After P Q) : (p.bind f).After P Q := by
  induction p with
  | ret a => exact hf a
  | call op next ih => exact ⟨fun h => absurd h hp.1, fun b => ih b (hp.2 b)⟩

theorem Calls.after {P Q : ∀ ⦃β : Type⦄, Op β → Prop} {p : Prog Op α} (hp : p.Calls Q) :
    p.After P Q := by
  induction p with
  | ret a => trivial
  | call op next ih => exact ⟨fun _ => hp.2, fun b => ih b (hp.2 b)⟩

/-- Replace every operation by a program over a lower signature. -/
def interp (impl : ∀ ⦃β : Type⦄, Op β → Prog Op' β) : Prog Op α → Prog Op' α
  | ret a => ret a
  | call op next => (impl op).bind fun b => (next b).interp impl

@[simp] theorem interp_ret (impl : ∀ ⦃β : Type⦄, Op β → Prog Op' β) (a : α) :
    (ret a : Prog Op α).interp impl = ret a := rfl

end Prog

@[simp] theorem except_isOk_ok {ε α : Type} (a : α) : (Except.ok a : Except ε α).isOk = true := rfl

@[simp] theorem except_isOk_error {ε α : Type} (e : ε) :
    (Except.error e : Except ε α).isOk = false := rfl

theorem except_isOk_iff {ε α : Type} {x : Except ε α} : x.isOk = true ↔ ∃ a, x = .ok a := by
  cases x <;> simp

/-- A bind of results is a success when both of its parts are. -/
theorem except_bind_eq_ok {ε α β : Type} {x : Except ε α} {f : α → Except ε β} {b : β} :
    x >>= f = .ok b ↔ ∃ a, x = .ok a ∧ f a = .ok b := by
  cases x with
  | ok a => exact ⟨fun h => ⟨a, rfl, h⟩, by rintro ⟨_, ⟨⟩, h⟩; exact h⟩
  | error e => exact ⟨nofun, by rintro ⟨_, ⟨⟩, -⟩⟩

theorem except_bind_eq_error {ε α β : Type} {x : Except ε α} {f : α → Except ε β} {e : ε} :
    x >>= f = .error e ↔ x = .error e ∨ ∃ a, x = .ok a ∧ f a = .error e := by
  cases x with
  | ok a => exact ⟨fun h => .inr ⟨a, rfl, h⟩, by rintro (⟨⟨⟩⟩ | ⟨_, ⟨⟩, h⟩); exact h⟩
  | error e' =>
    refine ⟨fun h => .inl (congrArg _ (Except.error.inj h)), ?_⟩
    rintro (h | ⟨_, ⟨⟩, -⟩)
    exact congrArg _ (Except.error.inj h)

@[simp] theorem except_mapError_eq_ok {ε δ α : Type} {x : Except ε α} {f : ε → δ} {a : α} :
    x.mapError f = .ok a ↔ x = .ok a := by
  cases x with
  | ok b => exact ⟨fun h => congrArg Except.ok (Except.ok.inj h), fun h => h ▸ rfl⟩
  | error e => exact ⟨nofun, nofun⟩

/-- A program that may end with an error. -/
def Task (Op : Type → Type) (ε α : Type) : Type 1 := Prog Op (Except ε α)

namespace Task

variable {Op : Type → Type} {ε δ α β : Type}

/-- Read a task as the program that returns its outcome. -/
def run (t : Task Op ε α) : Prog Op (Except ε α) := t

/-- What follows the outcome of a task: the continuation, or the error at once. -/
def andThen (f : α → Task Op ε β) : Except ε α → Prog Op (Except ε β)
  | .ok a => f a
  | .error e => .ret (.error e)

@[simp] theorem andThen_ok (f : α → Task Op ε β) (a : α) :
    andThen f (.ok a) = (f a).run := rfl

@[simp] theorem andThen_error (f : α → Task Op ε β) (e : ε) :
    andThen f (.error e) = .ret (.error e) := rfl

def bind (t : Task Op ε α) (f : α → Task Op ε β) : Task Op ε β := t.run.bind (andThen f)

instance : Monad (Task Op ε) where
  pure a := Prog.ret (.ok a)
  bind := bind

@[simp] theorem run_pure (a : α) : (pure a : Task Op ε α).run = .ret (.ok a) := rfl

@[simp] theorem run_bind (t : Task Op ε α) (f : α → Task Op ε β) :
    (t >>= f).run = t.run.bind (andThen f) := rfl

theorem bind_assoc {γ : Type} (t : Task Op ε α) (f : α → Task Op ε β) (g : β → Task Op ε γ) :
    (t >>= f) >>= g = t >>= fun a => f a >>= g := by
  have hcont : ∀ r : Except ε α,
      (andThen f r).bind (andThen g) = andThen (fun a => f a >>= g) r := by
    rintro (e | a) <;> rfl
  calc ((t >>= f) >>= g).run
      = t.run.bind fun r => (andThen f r).bind (andThen g) := Prog.bind_assoc _ _ _
    _ = t.run.bind (andThen fun a => f a >>= g) := congrArg t.run.bind (funext hcont)

theorem pure_bind (a : α) (f : α → Task Op ε β) : (pure a : Task Op ε α) >>= f = f a := rfl

/-- End with the error `e`. -/
def throw (e : ε) : Task Op ε α := Prog.ret (.error e)

@[simp] theorem run_throw (e : ε) : (throw e : Task Op ε α).run = .ret (.error e) := rfl

/-- A value computed without operations that may be an error. -/
def ofExcept (r : Except ε α) : Task Op ε α := Prog.ret r

@[simp] theorem run_ofExcept (r : Except ε α) :
    (ofExcept r : Task Op ε α).run = .ret r := rfl

/-- A fallible operation, its error propagated. -/
def ask (op : Op (Except ε α)) : Task Op ε α := Prog.perform op

@[simp] theorem run_ask (op : Op (Except ε α)) : (ask op).run = .perform op := rfl

/-- An operation that cannot fail. -/
def perform (op : Op α) : Task Op ε α := Prog.call op fun a => .ret (.ok a)

@[simp] theorem run_perform (op : Op α) :
    (perform op : Task Op ε α).run = .call op fun a => .ret (.ok a) := rfl

/-- Run a task and hand on its outcome, error or not. -/
def attempt (t : Task Op ε α) : Task Op δ (Except ε α) := t.run.bind fun r => .ret (.ok r)

@[simp] theorem run_attempt (t : Task Op ε α) :
    (attempt t : Task Op δ (Except ε α)).run = t.run.bind fun r => .ret (.ok r) := rfl

theorem run_attempt_bind (t : Task Op ε α) (f : Except ε α → Task Op δ β) :
    (attempt t >>= f).run = t.run.bind fun r => (f r).run := by
  simp [Prog.bind_assoc]

/-- Rewrite the error a task ends with. -/
def mapError (f : ε → δ) (t : Task Op ε α) : Task Op δ α :=
  t.run.bind fun r => .ret (r.mapError f)

@[simp] theorem run_mapError (f : ε → δ) (t : Task Op ε α) :
    (mapError f t).run = t.run.bind fun r => .ret (r.mapError f) := rfl

/-- Run a task only if the condition holds. -/
def when (b : Bool) (t : Task Op ε Unit) : Task Op ε Unit := if b then t else pure ()

@[simp] theorem when_true (t : Task Op ε Unit) : when true t = t := rfl

@[simp] theorem when_false (t : Task Op ε Unit) : when false t = pure () := rfl

/-! ### Tasks that cannot fail -/

/-- The task ends in a value, whatever the operations answer. -/
def Infallible (t : Task Op ε α) : Prop := t.run.Returns fun r => ∃ a, r = .ok a

namespace Infallible

theorem pure (a : α) : Infallible (pure a : Task Op ε α) := ⟨a, rfl⟩

theorem perform (op : Op α) : Infallible (perform op : Task Op ε α) := fun a => ⟨a, rfl⟩

theorem attempt (t : Task Op ε α) : Infallible (attempt t : Task Op δ (Except ε α)) :=
  (Prog.Returns.trivial t.run).bind fun r _ => ⟨r, rfl⟩

theorem bind {t : Task Op ε α} {f : α → Task Op ε β} (ht : t.Infallible)
    (hf : ∀ a, (f a).Infallible) : (t >>= f).Infallible := by
  refine Prog.Returns.bind ht ?_
  rintro r ⟨a, rfl⟩
  exact hf a

theorem when {b : Bool} {t : Task Op ε Unit} (h : t.Infallible) : (when b t).Infallible := by
  cases b with
  | true => exact h
  | false => exact pure ()

end Infallible

/-! ### The errors of a task -/

/-- With answers that `A` admits, every error the task ends with satisfies `E`. -/
def FailsOnly (A : ∀ ⦃β : Type⦄, Op β → β → Prop) (E : ε → Prop) (t : Task Op ε α) : Prop :=
  t.run.Ends A fun r => ∀ e, r = .error e → E e

namespace FailsOnly

variable {A : ∀ ⦃β : Type⦄, Op β → β → Prop} {E : ε → Prop}

theorem pure (a : α) : FailsOnly A E (pure a : Task Op ε α) := nofun

theorem throw {e : ε} (he : E e) : FailsOnly A E (throw e : Task Op ε α) :=
  fun _ h => Except.error.inj h ▸ he

theorem ofExcept {r : Except ε α} (h : ∀ e, r = .error e → E e) :
    FailsOnly A E (ofExcept r : Task Op ε α) := h

theorem ask {op : Op (Except ε α)} (h : ∀ e, A op (.error e) → E e) : FailsOnly A E (ask op) := by
  rintro r hr e rfl
  exact h e hr

theorem perform (op : Op α) : FailsOnly A E (perform op : Task Op ε α) := fun _ _ => nofun

theorem attempt (t : Task Op ε α) : FailsOnly A E (attempt t : Task Op ε (Except ε α)) :=
  (Prog.Ends.trivial t.run).bind fun _ _ => nofun

theorem bind {t : Task Op ε α} {f : α → Task Op ε β} (ht : FailsOnly A E t)
    (hf : ∀ a, FailsOnly A E (f a)) : FailsOnly A E (t >>= f) :=
  Prog.Ends.bind ht fun r hr => match r with
    | .ok a => hf a
    | .error _ => fun _ heq => hr _ (congrArg _ (Except.error.inj heq))

theorem when {b : Bool} {t : Task Op ε Unit} (h : FailsOnly A E t) : FailsOnly A E (when b t) := by
  cases b with
  | true => exact h
  | false => exact pure ()

end FailsOnly

/-! ### Footprints -/

variable {P : ∀ ⦃β : Type⦄, Op β → Prop}

theorem calls_bind {t : Task Op ε α} {f : α → Task Op ε β} (ht : t.run.Calls P)
    (hf : ∀ a, (f a).run.Calls P) : (t >>= f).run.Calls P :=
  Prog.Calls.bind ht fun r => match r with
    | .ok a => hf a
    | .error _ => trivial

theorem after_bind {Q : ∀ ⦃β : Type⦄, Op β → Prop} {t : Task Op ε α} {f : α → Task Op ε β}
    (ht : t.run.Calls fun _ op => ¬ P op) (hf : ∀ a, (f a).run.After P Q) :
    (t >>= f).run.After P Q :=
  Prog.After.bind ht fun r => match r with
    | .ok a => hf a
    | .error _ => trivial

@[simp] theorem calls_pure (a : α) : (pure a : Task Op ε α).run.Calls P := trivial

@[simp] theorem calls_throw (e : ε) : (throw e : Task Op ε α).run.Calls P := trivial

@[simp] theorem calls_ofExcept (r : Except ε α) :
    (ofExcept r : Task Op ε α).run.Calls P := trivial

theorem calls_ofExcept_bind {r : Except ε α} {f : α → Task Op ε β}
    (h : ∀ a, r = .ok a → (f a).run.Calls P) : (ofExcept r >>= f).run.Calls P := by
  cases r with
  | ok a => exact h a rfl
  | error e => trivial

theorem calls_ask {op : Op (Except ε α)} (h : P op) : (ask op).run.Calls P := ⟨h, fun _ => trivial⟩

theorem calls_perform {op : Op α} (h : P op) : (perform op : Task Op ε α).run.Calls P :=
  ⟨h, fun _ => trivial⟩

theorem calls_attempt {t : Task Op ε α} (h : t.run.Calls P) :
    (attempt t : Task Op δ (Except ε α)).run.Calls P :=
  Prog.Calls.bind h fun _ => trivial

theorem calls_when {b : Bool} {t : Task Op ε Unit} (h : t.run.Calls P) :
    (when b t).run.Calls P := by
  cases b with
  | true => exact h
  | false => trivial

theorem calls_mapError {f : ε → δ} {t : Task Op ε α} (h : t.run.Calls P) :
    (mapError f t).run.Calls P :=
  Prog.Calls.bind h fun _ => trivial

end Task

end Effect
