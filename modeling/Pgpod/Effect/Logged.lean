import Mathlib.Init

/-!
# Computations that keep a log

A computation gives a value or stops, and in either case leaves a log of what it did.
It is good when all it logged is allowed and, if it stopped, it stopped in an allowed
way.  Of a sequence that is so exactly when each part is good that is reached.
-/

namespace Effect

structure Logged (ω ε α : Type) where
  log : List ω
  result : Except ε α

namespace Logged

variable {ω ε α β γ : Type} {P : ω → Prop} {E : ε → Prop}

def bind (m : Logged ω ε α) (k : α → Logged ω ε β) : Logged ω ε β :=
  match m.result with
  | .error e => ⟨m.log, .error e⟩
  | .ok a => ⟨m.log ++ (k a).log, (k a).result⟩

instance : Monad (Logged ω ε) where
  pure a := ⟨[], .ok a⟩
  bind := bind

theorem bind_assoc (m : Logged ω ε α) (k : α → Logged ω ε β) (l : β → Logged ω ε γ) :
    (m.bind k).bind l = m.bind fun a => (k a).bind l := by
  obtain ⟨log, e | a⟩ := m
  · rfl
  · simp only [bind]
    cases (k a).result <;> simp only [List.append_assoc]

theorem bind_pure (m : Logged ω ε α) : m.bind pure = m := by
  obtain ⟨log, e | a⟩ := m
  · rfl
  · exact congrArg (Logged.mk · _) (List.append_nil log)

instance : LawfulMonad (Logged ω ε) := .mk' _ bind_pure (fun _ _ => rfl) bind_assoc

/-- Log one event. -/
def tell (w : ω) : Logged ω ε Unit := ⟨[w], .ok ()⟩

def stop (e : ε) : Logged ω ε α := ⟨[], .error e⟩

/-- Everything that was logged is allowed, and so is the way the computation stopped. -/
structure Good (P : ω → Prop) (E : ε → Prop) (m : Logged ω ε α) : Prop where
  log : ∀ w ∈ m.log, P w
  stop : ∀ e, m.result = .error e → E e

@[simp] theorem stop_bind (e : ε) (k : α → Logged ω ε β) : (stop e >>= k) = stop e := rfl

@[simp] theorem result_pure (a : α) : (pure a : Logged ω ε α).result = .ok a := rfl

@[simp] theorem result_tell_bind (w : ω) (k : Unit → Logged ω ε α) :
    (tell w >>= k).result = (k ()).result := rfl

/-- What came before a value. -/
theorem of_result_bind {m : Logged ω ε α} {k : α → Logged ω ε β} {b : β}
    (h : (m >>= k).result = .ok b) : ∃ a, m.result = .ok a ∧ (k a).result = .ok b := by
  change (m.bind k).result = _ at h
  rw [bind] at h
  cases hresult : m.result with
  | error e =>
    rw [hresult] at h
    cases h
  | ok a =>
    rw [hresult] at h
    exact ⟨a, rfl, h⟩

@[simp] theorem good_pure (a : α) : (pure a : Logged ω ε α).Good P E :=
  ⟨fun _ h => absurd h List.not_mem_nil, fun _ h => nomatch h⟩

@[simp] theorem good_stop (e : ε) : (stop e : Logged ω ε α).Good P E ↔ E e := by
  constructor
  · exact fun h => h.stop e rfl
  · intro h
    refine ⟨fun _ hw => absurd hw List.not_mem_nil, fun e' he => ?_⟩
    cases he
    exact h

/-- **Good step by step.** -/
theorem good_bind {m : Logged ω ε α} {k : α → Logged ω ε β} :
    (m >>= k).Good P E ↔ m.Good P E ∧ ∀ a, m.result = .ok a → (k a).Good P E := by
  change (m.bind k).Good P E ↔ _
  cases hresult : m.result with
  | error e =>
    have hbind : m.bind k = ⟨m.log, .error e⟩ := by rw [bind, hresult]
    rw [hbind]
    constructor
    · intro h
      refine ⟨⟨h.log, fun e' he => h.stop e' ?_⟩, fun _ ha => nomatch ha⟩
      exact congrArg Except.error (Except.error.inj (hresult.symm.trans he))
    · rintro ⟨h, -⟩
      refine ⟨h.log, fun e' he => h.stop e' (hresult.trans ?_)⟩
      exact congrArg Except.error (Except.error.inj he)
  | ok a =>
    have hbind : m.bind k = ⟨m.log ++ (k a).log, (k a).result⟩ := by rw [bind, hresult]
    rw [hbind]
    constructor
    · intro h
      refine ⟨⟨fun w hw => h.log w (List.mem_append_left _ hw), fun e he => ?_⟩, ?_⟩
      · rw [hresult] at he
        cases he
      · rintro b ⟨⟩
        exact ⟨fun w hw => h.log w (List.mem_append_right _ hw), h.stop⟩
    · rintro ⟨h, hk⟩
      refine ⟨fun w hw => ?_, (hk a rfl).stop⟩
      exact (List.mem_append.mp hw).elim (h.log w) ((hk a rfl).log w)

/-- Logging an event is as good as the event. -/
@[simp] theorem good_tell_bind (w : ω) (k : Unit → Logged ω ε α) :
    (tell w >>= k).Good P E ↔ P w ∧ (k ()).Good P E := by
  have htell : (tell w : Logged ω ε Unit).Good P E ↔ P w := by
    constructor
    · exact fun h => h.log w List.mem_cons_self
    · intro h
      refine ⟨fun v hv => ?_, fun _ he => nomatch he⟩
      rwa [List.mem_singleton.mp hv]
  rw [good_bind, htell]
  refine and_congr_right fun _ => ⟨fun h => h () rfl, ?_⟩
  rintro h ⟨⟩ -
  exact h

end Logged

end Effect
