import Pgpod.Effect.Prog
import Mathlib.Logic.Relation

/-!
# Machines: what operations do, and what happens between them

A machine gives every operation a relational meaning and says which changes of
the state may happen on their own between two operations (other parties, or a
background activity).  `Reach` is the partial run of one program: a cut of that
program at an arbitrary point is a state it reaches.  `Safe` is the assertion
that a guard holds at every operation the program calls and a postcondition
when it returns; it is compositional in the program, and equivalent to the
statement about every reachable state.
-/

namespace Effect

universe u v

/-- The meaning of the operations of `Op` on a state, and the drift of that
state while a program is between two operations. -/
structure Machine (Op : Type → Type) (S : Type u) where
  step : ∀ ⦃β : Type⦄, Op β → S → β → S → Prop
  drift : S → S → Prop

namespace Machine

variable {Op Op' : Type → Type} {S : Type u} {α β : Type} {M : Machine Op S}

/-- Any number of drift steps. -/
def Drifts (M : Machine Op S) : S → S → Prop := Relation.ReflTransGen M.drift

/-- `M.Reach p s q t`: started as `p` in `s`, the program can stand at `q` with
the state `t`. -/
inductive Reach (M : Machine Op S) (p : Prog Op α) (s : S) : Prog Op α → S → Prop
  | refl : Reach M p s p s
  | drift {q : Prog Op α} {t u : S} : Reach M p s q t → M.drift t u → Reach M p s q u
  | call {β : Type} {op : Op β} {next : β → Prog Op α} {t u : S} {b : β} :
      Reach M p s (.call op next) t → M.step op t b u → Reach M p s (next b) u

namespace Reach

variable {p q r : Prog Op α} {s t u : S}

theorem trans (hpq : M.Reach p s q t) (hqr : M.Reach q t r u) : M.Reach p s r u := by
  induction hqr with
  | refl => exact hpq
  | drift _ hd ih => exact ih.drift hd
  | call _ hstep ih => exact ih.call hstep

theorem of_drifts (h : M.Drifts s t) : M.Reach p s p t := by
  induction h with
  | refl => exact .refl
  | tail _ hd ih => exact ih.drift hd

theorem head {op : Op β} {next : β → Prog Op α} {b : β} (hstep : M.step op s b t)
    (h : M.Reach (next b) t r u) : M.Reach (.call op next) s r u :=
  (Reach.refl.call hstep).trans h

/-- A run of the first part is a run of the whole, the rest still to do. -/
theorem bind {f : α → Prog Op β} (h : M.Reach p s q t) :
    M.Reach (p.bind f) s (q.bind f) t := by
  induction h with
  | refl => exact .refl
  | drift _ hd ih => exact ih.drift hd
  | call _ hstep ih => exact ih.call hstep

/-- A run of the first part to its end, then a run of what follows. -/
theorem bind_ret {f : α → Prog Op β} {a : α} {q : Prog Op β} (h : M.Reach p s (.ret a) t)
    (hf : M.Reach (f a) t q u) : M.Reach (p.bind f) s q u :=
  h.bind.trans hf

/-- **Simulation**: a run is a run of a machine that sees less of the state. -/
theorem simulate {T : Type v} {N : Machine Op T} (f : S → T)
    (hstep : ∀ ⦃β⦄ (op : Op β) s b t, M.step op s b t → N.step op (f s) b (f t))
    (hdrift : ∀ s t, M.drift s t → f t = f s) (h : M.Reach p s q t) :
    N.Reach p (f s) q (f t) := by
  induction h with
  | refl => exact .refl
  | drift _ hd ih =>
    rw [hdrift _ _ hd]
    exact ih
  | call _ hop ih => exact ih.call (hstep _ _ _ _ hop)

/-- A run with fewer behaviours is a run. -/
theorem mono {N : Machine Op S} (hstep : ∀ ⦃β⦄ (op : Op β) s b t, M.step op s b t → N.step op s b t)
    (hdrift : ∀ s t, M.drift s t → N.drift s t) (h : M.Reach p s q t) : N.Reach p s q t := by
  induction h with
  | refl => exact .refl
  | drift _ hd ih => exact ih.drift (hdrift _ _ hd)
  | call _ hs ih => exact ih.call (hstep _ _ _ _ hs)

theorem calls {P : ∀ ⦃β : Type⦄, Op β → Prop} (h : M.Reach p s q t) (hp : p.Calls P) :
    q.Calls P := by
  induction h with
  | refl => exact hp
  | drift _ _ ih => exact ih
  | call _ _ ih => exact ih.2 _

theorem after {P Q : ∀ ⦃β : Type⦄, Op β → Prop} (h : M.Reach p s q t) (hp : p.After P Q) :
    q.After P Q := by
  induction h with
  | refl => exact hp
  | drift _ _ ih => exact ih
  | call _ _ ih => exact ih.2 _

/-- A run from a call stands before it still, or goes on from an answer. -/
theorem head_inv {op : Op β} {next : β → Prog Op α} (h : M.Reach (.call op next) s r u) :
    (r = .call op next ∧ M.Drifts s u) ∨
      ∃ t b v, M.Drifts s t ∧ M.step op t b v ∧ M.Reach (next b) v r u := by
  induction h with
  | refl => exact .inl ⟨rfl, .refl⟩
  | drift _ hd ih =>
    rcases ih with ⟨rfl, hdrifts⟩ | ⟨t, b, v, hdrifts, hop, hnext⟩
    · exact .inl ⟨rfl, hdrifts.tail hd⟩
    · exact .inr ⟨t, b, v, hdrifts, hop, hnext.drift hd⟩
  | call _ hstep ih =>
    rcases ih with ⟨heq, hdrifts⟩ | ⟨t, b, v, hdrifts, hop, hnext⟩
    · cases heq
      exact .inr ⟨_, _, _, hdrifts, hstep, .refl⟩
    · exact .inr ⟨t, b, v, hdrifts, hop, hnext.call hstep⟩

/-- A run of a sequence to its end is a run of the first part to its end, then one of the rest. -/
theorem bind_ret_inv {f : α → Prog Op β} {b : β} (h : M.Reach (p.bind f) s (.ret b) u) :
    ∃ a t, M.Reach p s (.ret a) t ∧ M.Reach (f a) t (.ret b) u := by
  induction p generalizing s with
  | ret a => exact ⟨a, s, .refl, h⟩
  | call op next ih =>
    rcases head_inv h with ⟨heq, -⟩ | ⟨t, c, v, hdrifts, hop, hnext⟩
    · cases heq
    · obtain ⟨a, w, hp, hf⟩ := ih c hnext
      exact ⟨a, w, (of_drifts hdrifts).trans (.head hop hp), hf⟩

/-- A run of a sequence is still in its first part, or that has ended. -/
theorem bind_inv {f : α → Prog Op β} {q : Prog Op β} (h : M.Reach (p.bind f) s q u) :
    (∃ p', M.Reach p s p' u ∧ q = p'.bind f) ∨
      ∃ a t, M.Reach p s (.ret a) t ∧ M.Reach (f a) t q u := by
  induction p generalizing s with
  | ret a => exact .inr ⟨a, s, .refl, h⟩
  | call op next ih =>
    rcases head_inv h with ⟨rfl, hdrifts⟩ | ⟨t, c, v, hdrifts, hop, hnext⟩
    · exact .inl ⟨.call op next, of_drifts hdrifts, rfl⟩
    · have hfirst : M.Reach (.call op next) s (next c) v := (of_drifts hdrifts).trans (.head hop .refl)
      rcases ih c hnext with ⟨p', hp, hq⟩ | ⟨a, w, hp, hf⟩
      · exact .inl ⟨p', hfirst.trans hp, hq⟩
      · exact .inr ⟨a, w, hfirst.trans hp, hf⟩

/-- What the operations of a program keep, its runs keep. -/
theorem keeps {P : ∀ ⦃β : Type⦄, Op β → Prop} {I : S → Prop}
    (hdrift : ∀ s t, M.drift s t → I s → I t)
    (hstep : ∀ ⦃β⦄ (op : Op β) s b t, P op → I s → M.step op s b t → I t)
    (h : M.Reach p s q t) (hp : p.Calls P) (hs : I s) : I t := by
  induction h with
  | refl => exact hs
  | drift _ hd ih => exact hdrift _ _ hd ih
  | call hr hop ih => exact hstep _ _ _ _ (hr.calls hp).1 ih hop

/-- What the operations of a program relate to another machine's, its runs relate. -/
theorem relates {T : Type v} {N : Machine Op T} {P : ∀ ⦃β : Type⦄, Op β → Prop} {R : S → T → Prop}
    (hdrift : ∀ s s' t, M.drift s s' → R s t → R s' t)
    (hstep : ∀ ⦃β⦄ (op : Op β) s b s' t, P op → R s t → M.step op s b s' →
      ∃ t', N.step op t b t' ∧ R s' t')
    (h : M.Reach p s q u) (hp : p.Calls P) {t : T} (hR : R s t) :
    ∃ t', N.Reach p t q t' ∧ R u t' := by
  induction h with
  | refl => exact ⟨t, .refl, hR⟩
  | drift _ hd ih =>
    obtain ⟨t', hreach, hR'⟩ := ih
    exact ⟨t', hreach, hdrift _ _ _ hd hR'⟩
  | call hr hop ih =>
    obtain ⟨t', hreach, hR'⟩ := ih
    obtain ⟨v, habove, hRv⟩ := hstep _ _ _ _ _ (hr.calls hp).1 hR' hop
    exact ⟨v, hreach.call habove, hRv⟩

/-- A program that has returned only drifts. -/
theorem of_ret {a : α} (h : M.Reach (.ret a) s q t) : q = .ret a ∧ M.Drifts s t := by
  induction h with
  | refl => exact ⟨rfl, .refl⟩
  | drift _ hd ih => exact ⟨ih.1, ih.2.tail hd⟩
  | call _ _ ih => exact absurd ih.1 (by simp)

theorem returns {P : α → Prop} (h : M.Reach p s q t) (hp : p.Returns P) : q.Returns P := by
  induction h with
  | refl => exact hp
  | drift _ _ ih => exact ih
  | call _ _ ih => exact ih _

/-- A program whose answers are admitted ends as it must. -/
theorem ends {A : ∀ ⦃β : Type⦄, Op β → β → Prop} {P : α → Prop}
    (hA : ∀ ⦃β⦄ (op : Op β) s b t, M.step op s b t → A op b) (h : M.Reach p s q t)
    (hp : p.Ends A P) : q.Ends A P := by
  induction h with
  | refl => exact hp
  | drift _ _ ih => exact ih
  | call _ hstep ih => exact ih _ (hA _ _ _ _ hstep)

/-- Where every operation is answered, a program comes to its end. -/
theorem exists_ret (h : ∀ ⦃β⦄ (op : Op β) s, ∃ b t, M.step op s b t) (p : Prog Op α) (s : S) :
    ∃ a t, M.Reach p s (.ret a) t := by
  induction p generalizing s with
  | ret a => exact ⟨a, s, .refl⟩
  | call op next ih =>
    obtain ⟨b, t, hop⟩ := h op s
    obtain ⟨a, u, hnext⟩ := ih b t
    exact ⟨a, u, .head hop hnext⟩

section Tasks

variable {ε δ : Type} {r : Except ε β}

/-- A run of tasks in sequence that stands at an operation: it is one of the first, or of what
follows where that ended. -/
theorem task_bind_call {t : Task Op ε α} {f : α → Task Op ε β} {γ : Type} {op : Op γ}
    {next : γ → Prog Op (Except ε β)} (h : M.Reach (t >>= f).run s (.call op next) u) :
    (∃ next', M.Reach t.run s (.call op next') u) ∨
      ∃ a w, M.Reach t.run s (.ret (.ok a)) w ∧ M.Reach (f a).run w (.call op next) u := by
  rcases h.bind_inv with ⟨p', hp, hq⟩ | ⟨a | a, w, hp, hf⟩
  · cases p' with
    | ret a =>
      rcases a with e | a
      · cases hq
      · exact .inr ⟨a, u, hp, hq ▸ .refl⟩
    | call op' next' =>
      cases hq
      exact .inl ⟨next', hp⟩
  · cases hf.of_ret.1
  · exact .inr ⟨a, w, hp, hf⟩

/-- A task in sequence: what follows starts where it ended, or its error ends the whole. -/
theorem task_bind_inv {t : Task Op ε α} {f : α → Task Op ε β}
    (h : M.Reach (t >>= f).run s (.ret r) u) :
    (∃ a w, M.Reach t.run s (.ret (.ok a)) w ∧ M.Reach (f a).run w (.ret r) u) ∨
      ∃ e, r = .error e ∧ M.Reach t.run s (.ret (.error e)) u := by
  obtain ⟨a | a, w, ht, hf⟩ := h.bind_ret_inv
  · obtain ⟨hr, hdrifts⟩ := hf.of_ret
    exact .inr ⟨a, Prog.ret.inj hr, ht.trans (of_drifts hdrifts)⟩
  · exact .inl ⟨a, w, ht, hf⟩

/-- A task whose outcome is looked at. -/
theorem attempt_bind_inv {t : Task Op δ α} {f : Except δ α → Task Op ε β}
    (h : M.Reach (Task.attempt t >>= f).run s (.ret r) u) :
    ∃ b w, M.Reach t.run s (.ret b) w ∧ M.Reach (f b).run w (.ret r) u := by
  rw [Task.run_attempt_bind] at h
  exact h.bind_ret_inv

theorem perform_inv {op : Op β} {b : β} (h : M.Reach (.perform op) s (.ret b) u) :
    ∃ v w, M.Drifts s v ∧ M.step op v b w ∧ M.Drifts w u := by
  rcases head_inv h with ⟨heq, -⟩ | ⟨v, c, w, hdrifts, hop, hnext⟩
  · cases heq
  · obtain ⟨hr, hafter⟩ := hnext.of_ret
    exact ⟨v, w, hdrifts, Prog.ret.inj hr ▸ hop, hafter⟩

theorem perform_bind_inv {op : Op α} {f : α → Task Op ε β}
    (h : M.Reach (Task.perform op >>= f).run s (.ret r) u) :
    ∃ v a w, M.Drifts s v ∧ M.step op v a w ∧ M.Reach (f a).run w (.ret r) u := by
  rcases head_inv h with ⟨heq, -⟩ | ⟨v, a, w, hdrifts, hop, hnext⟩
  · cases heq
  · exact ⟨v, a, w, hdrifts, hop, hnext⟩

/-- A task that cannot fail ends in a value. -/
theorem of_infallible {t : Task Op ε β} (h : M.Reach t.run s (.ret r) u) (ht : t.Infallible) :
    ∃ b, r = .ok b :=
  h.returns ht

end Tasks

/-- **Refinement**: when every operation's program, run to its end, does a step that the
operation can do above, a run of the whole to its end is a run of the program above. -/
theorem of_interp {T : Type u} {N : Machine Op' T} {impl : ∀ ⦃β : Type⦄, Op' β → Prog Op β}
    {R : S → T → Prop} (hdrift : ∀ s s' t, M.drift s s' → R s t → R s' t)
    (hstep : ∀ ⦃β⦄ (op : Op' β) s t b s', R s t → M.Reach (impl op) s (.ret b) s' →
      ∃ t', N.step op t b t' ∧ R s' t')
    {p : Prog Op' α} {a : α} {t : T} (h : M.Reach (p.interp impl) s (.ret a) u) (hR : R s t) :
    ∃ t', N.Reach p t (.ret a) t' ∧ R u t' := by
  induction p generalizing s t with
  | ret a' =>
    obtain ⟨hret, hdrifts⟩ := h.of_ret
    refine ⟨t, by rw [Prog.ret.inj hret]; exact .refl, ?_⟩
    clear h hret
    induction hdrifts with
    | refl => exact hR
    | tail _ hlast ih => exact hdrift _ _ _ hlast ih
  | call op next ih =>
    obtain ⟨b, v, himpl, hnext⟩ := bind_ret_inv h
    obtain ⟨t', hop, hR'⟩ := hstep op _ _ _ _ hR himpl
    obtain ⟨w, hreach, hRw⟩ := ih b hnext hR'
    exact ⟨w, .head hop hreach, hRw⟩

end Reach

/-- The guard `guard` holds whenever the program calls an operation, and `post`
when it returns, whatever drifts in between. -/
def Safe (M : Machine Op S) (guard : ∀ ⦃β : Type⦄, Op β → S → Prop) (post : α → S → Prop) :
    Prog Op α → S → Prop
  | .ret a, s => ∀ t, M.Drifts s t → post a t
  | .call op next, s => ∀ t, M.Drifts s t →
      guard op t ∧ ∀ b u, M.step op t b u → Safe M guard post (next b) u

namespace Safe

variable {guard : ∀ ⦃β : Type⦄, Op β → S → Prop} {post : α → S → Prop} {p q : Prog Op α}
  {s t : S}

theorem drifts (h : M.Safe guard post p s) (hd : M.Drifts s t) : M.Safe guard post p t := by
  cases p with
  | ret a => exact fun u hu => h u (hd.trans hu)
  | call op next => exact fun u hu => h u (hd.trans hu)

/-- Safety is kept along a run. -/
theorem reach (h : M.Safe guard post p s) (hr : M.Reach p s q t) : M.Safe guard post q t := by
  induction hr with
  | refl => exact h
  | drift _ hd ih => exact ih.drifts (.single hd)
  | call _ hstep ih => exact (ih _ .refl).2 _ _ hstep

/-- **Soundness at a call**: the guard holds where the program stands before an operation. -/
theorem at_call {op : Op β} {next : β → Prog Op α} (h : M.Safe guard post p s)
    (hr : M.Reach p s (.call op next) t) : guard op t :=
  (h.reach hr _ .refl).1

/-- **Soundness at the end**: the postcondition holds where the program returns. -/
theorem at_ret {a : α} (h : M.Safe guard post p s) (hr : M.Reach p s (.ret a) t) : post a t :=
  h.reach hr _ .refl

/-- What operations under the guard keep, a safe run keeps. -/
theorem invariant {I : S → Prop} (h : M.Safe guard post p s) (hdrift : ∀ s t, M.drift s t → I s → I t)
    (hstep : ∀ ⦃β⦄ (op : Op β) s b t, guard op s → I s → M.step op s b t → I t)
    (hr : M.Reach p s q t) (hs : I s) : I t := by
  induction hr with
  | refl => exact hs
  | drift _ hd ih => exact hdrift _ _ hd ih
  | call hr hop ih => exact hstep _ _ _ _ (h.at_call hr) ih hop

/-- Safety is nothing more than the two assertions at every state reached. -/
theorem of_reach
    (hcall : ∀ {β} (op : Op β) (next : β → Prog Op α) t, M.Reach p s (.call op next) t → guard op t)
    (hret : ∀ a t, M.Reach p s (.ret a) t → post a t) : M.Safe guard post p s := by
  induction p generalizing s with
  | ret a => exact fun t ht => hret a t (.of_drifts ht)
  | call op next ih =>
    intro t ht
    have hat : M.Reach (.call op next) s (.call op next) t := .of_drifts ht
    refine ⟨hcall op next t hat, fun b u hstep => ih b ?_ ?_⟩
    · exact fun op' next' v hv => hcall op' next' v ((hat.call hstep).trans hv)
    · exact fun a v hv => hret a v ((hat.call hstep).trans hv)

theorem mono {guard' : ∀ ⦃β : Type⦄, Op β → S → Prop} {post' : α → S → Prop}
    (hguard : ∀ ⦃β⦄ (op : Op β) s, guard op s → guard' op s)
    (hpost : ∀ a s, post a s → post' a s) (h : M.Safe guard post p s) :
    M.Safe guard' post' p s := by
  induction p generalizing s with
  | ret a => exact fun t ht => hpost _ _ (h t ht)
  | call op next ih =>
    exact fun t ht => ⟨hguard op t (h t ht).1, fun b u hstep => ih b ((h t ht).2 b u hstep)⟩

theorem weaken {post' : α → S → Prop} (h : M.Safe guard post p s)
    (hpost : ∀ a s, post a s → post' a s) : M.Safe guard post' p s :=
  h.mono (fun _ _ _ h => h) hpost

/-- The rule of sequencing. -/
theorem bind {mid : α → S → Prop} {f : α → Prog Op β} {post : β → S → Prop}
    (h : M.Safe guard mid p s) (hf : ∀ a t, mid a t → M.Safe guard post (f a) t) :
    M.Safe guard post (p.bind f) s := by
  induction p generalizing s with
  | ret a => exact hf a s (h s .refl)
  | call op next ih =>
    exact fun t ht => ⟨(h t ht).1, fun b u hstep => ih b ((h t ht).2 b u hstep)⟩

end Safe

/-! ## Programs that keep an invariant -/

/-- `I` is not lost between operations. -/
def Stable (M : Machine Op S) (I : S → Prop) : Prop := ∀ s t, M.drift s t → I s → I t

theorem Stable.drifts {I : S → Prop} (hI : M.Stable I) {s t : S} (h : M.Drifts s t) (hs : I s) :
    I t := by
  induction h with
  | refl => exact hs
  | tail _ hd ih => exact hI _ _ hd ih

/-- Started in `I`, the program is safe and ends in `J`, whatever it returns. -/
def Triple (M : Machine Op S) (guard : ∀ ⦃β : Type⦄, Op β → S → Prop) (I : S → Prop)
    (p : Prog Op α) (J : α → S → Prop) : Prop :=
  ∀ s, I s → M.Safe guard J p s

/-- Started in `I`, the program stays in `I`. -/
abbrev Keeps (M : Machine Op S) (guard : ∀ ⦃β : Type⦄, Op β → S → Prop) (I : S → Prop)
    (p : Prog Op α) : Prop :=
  M.Triple guard I p fun _ => I

namespace Triple

variable {guard : ∀ ⦃β : Type⦄, Op β → S → Prop} {I : S → Prop} {p : Prog Op α}
  {J : α → S → Prop}

theorem ret {a : α} (hJ : M.Stable (J a)) (h : ∀ s, I s → J a s) :
    M.Triple guard I (.ret a) J :=
  fun s hs _ ht => hJ.drifts ht (h s hs)

/-- One operation: its guard, what its answer and effect establish, and the rest. -/
theorem call {op : Op β} {next : β → Prog Op α} {mid : β → S → Prop} (hI : M.Stable I)
    (hguard : ∀ s, I s → guard op s) (hstep : ∀ s b t, I s → M.step op s b t → mid b t)
    (hnext : ∀ b, M.Triple guard (mid b) (next b) J) : M.Triple guard I (.call op next) J := by
  intro s hs t ht
  have hI' : I t := hI.drifts ht hs
  exact ⟨hguard t hI', fun b u hu => hnext b u (hstep t b u hI' hu)⟩

theorem bind {f : α → Prog Op β} {K : β → S → Prop} (hp : M.Triple guard I p J)
    (hf : ∀ a, M.Triple guard (J a) (f a) K) : M.Triple guard I (p.bind f) K :=
  fun s hs => (hp s hs).bind fun a t ht => hf a t ht

theorem weaken {J' : α → S → Prop} (hp : M.Triple guard I p J) (h : ∀ a s, J a s → J' a s) :
    M.Triple guard I p J' :=
  fun s hs => (hp s hs).weaken h

theorem strengthen {I' : S → Prop} (hp : M.Triple guard I p J) (h : ∀ s, I' s → I s) :
    M.Triple guard I' p J :=
  fun s hs => hp s (h s hs)

/-- **Invariant rule**: a program whose operations all keep `I` keeps `I`. -/
theorem of_calls {P : ∀ ⦃β : Type⦄, Op β → Prop} (hI : M.Stable I)
    (hguard : ∀ ⦃β⦄ (op : Op β) s, P op → I s → guard op s)
    (hstep : ∀ ⦃β⦄ (op : Op β) s b t, P op → I s → M.step op s b t → I t)
    (hp : p.Calls P) : M.Keeps guard I p := by
  induction p with
  | ret a => exact ret hI fun _ h => h
  | call op next ih =>
    exact call hI (fun s hs => hguard op s hp.1 hs) (fun s b t hs => hstep op s b t hp.1 hs)
      fun b => ih b (hp.2 b)

/-- Sequencing of tasks: the continuation from a value, the postcondition from an error. -/
theorem task_bind {ε : Type} {t : Task Op ε α} {f : α → Task Op ε β}
    {J : Except ε α → S → Prop} {K : Except ε β → S → Prop} (ht : M.Triple guard I t.run J)
    (hf : ∀ a, M.Triple guard (J (.ok a)) (f a).run K)
    (hK : ∀ e, M.Stable (K (.error e))) (herr : ∀ e s, J (.error e) s → K (.error e) s) :
    M.Triple guard I (t >>= f).run K := by
  refine bind ht fun r => ?_
  cases r with
  | ok a => exact hf a
  | error e => exact ret (hK e) (herr e)

/-- One operation on its own. -/
theorem perform {op : Op α} (hI : M.Stable I) (hJ : ∀ a, M.Stable (J a))
    (hguard : ∀ s, I s → guard op s) (hstep : ∀ s a t, I s → M.step op s a t → J a t) :
    M.Triple guard I (.perform op) J :=
  call hI hguard hstep fun a => ret (hJ a) fun _ h => h

theorem mapError {ε δ : Type} {f : ε → δ} {t : Task Op ε α} {J : Except ε α → S → Prop}
    {K : Except δ α → S → Prop} (ht : M.Triple guard I t.run J) (hK : ∀ r, M.Stable (K r))
    (h : ∀ r s, J r s → K (r.mapError f) s) : M.Triple guard I (t.mapError f).run K :=
  bind ht fun r => ret (hK _) (h r)

/-- A computed result: the continuation knows that it was a success. -/
theorem ofExcept_bind {ε : Type} {r : Except ε α} {f : α → Task Op ε β}
    {K : Except ε β → S → Prop} (hf : ∀ a, r = .ok a → M.Triple guard I (f a).run K)
    (hK : ∀ e, M.Stable (K (.error e))) (herr : ∀ e s, I s → K (.error e) s) :
    M.Triple guard I (Task.ofExcept r >>= f).run K := by
  cases r with
  | ok a => exact hf a rfl
  | error e => exact ret (hK e) (herr e)

/-- The same with the error reworded. -/
theorem mapError_ofExcept_bind {ε δ : Type} {r : Except ε α} {g : ε → δ} {f : α → Task Op δ β}
    {K : Except δ β → S → Prop} (hf : ∀ a, r = .ok a → M.Triple guard I (f a).run K)
    (hK : ∀ e, M.Stable (K (.error e))) (herr : ∀ e s, I s → K (.error e) s) :
    M.Triple guard I (Task.mapError g (Task.ofExcept r) >>= f).run K := by
  cases r with
  | ok a => exact hf a rfl
  | error e => exact ret (hK _) (herr _)

/-- A task whose outcome the continuation looks at. -/
theorem attempt_bind {ε δ : Type} {t : Task Op ε α} {f : Except ε α → Task Op δ β}
    {J : Except ε α → S → Prop} {K : Except δ β → S → Prop} (ht : M.Triple guard I t.run J)
    (hf : ∀ r, M.Triple guard (J r) (f r).run K) :
    M.Triple guard I (Task.attempt t >>= f).run K := by
  rw [Task.run_attempt_bind]
  exact bind ht hf

end Triple

namespace Keeps

variable {guard : ∀ ⦃β : Type⦄, Op β → S → Prop} {I : S → Prop}

theorem task_bind {ε : Type} {t : Task Op ε α} {f : α → Task Op ε β} (hI : M.Stable I)
    (ht : M.Keeps guard I t.run) (hf : ∀ a, M.Keeps guard I (f a).run) :
    M.Keeps guard I (t >>= f).run :=
  Triple.task_bind ht hf (fun _ => hI) fun _ _ h => h

end Keeps

/-! ## Machines that only answer

Nothing drifts, and an operation changes the state as its answer says. -/

/-- Every operation may give any answer, and the state is updated by it. -/
def answering (effect : ∀ ⦃β : Type⦄, Op β → β → S → S) : Machine Op S where
  step _ op s b t := t = effect op b s
  drift _ _ := False

section Answering

variable {effect : ∀ ⦃β : Type⦄, Op β → β → S → S} {s u : S}

theorem answering_drifts {t : S} : (answering effect).Drifts s t ↔ t = s := by
  constructor
  · intro h
    induction h with
    | refl => rfl
    | tail _ hd _ => exact hd.elim
  · rintro rfl
    exact .refl

theorem answering_ret {a a' : α} :
    (answering effect).Reach (.ret a) s (.ret a') u ↔ a' = a ∧ u = s := by
  constructor
  · intro h
    obtain ⟨hret, hdrifts⟩ := h.of_ret
    exact ⟨Prog.ret.inj hret, answering_drifts.mp hdrifts⟩
  · rintro ⟨rfl, rfl⟩
    exact .refl

theorem answering_call {op : Op β} {next : β → Prog Op α} {a : α} :
    (answering effect).Reach (.call op next) s (.ret a) u ↔
      ∃ b, (answering effect).Reach (next b) (effect op b s) (.ret a) u := by
  constructor
  · intro h
    rcases h.head_inv with ⟨heq, -⟩ | ⟨t, b, v, hdrifts, rfl, hnext⟩
    · cases heq
    · rw [answering_drifts.mp hdrifts] at hnext
      exact ⟨b, hnext⟩
  · rintro ⟨b, h⟩
    exact .head rfl h

section Tasks

variable {ε δ : Type} {r : Except ε β}

/-- A fallible call: the rest from its value, or the end with its error. -/
theorem answering_ask {op : Op (Except ε α)} {f : α → Task Op ε β} :
    (answering effect).Reach (Task.ask op >>= f).run s (.ret r) u ↔
      (∃ a, (answering effect).Reach (f a).run (effect op (.ok a) s) (.ret r) u) ∨
        ∃ e, r = .error e ∧ u = effect op (.error e) s := by
  rw [Task.run_bind, Task.run_ask, Prog.perform_bind, answering_call]
  constructor
  · rintro ⟨a | a, h⟩
    · exact .inr ⟨a, answering_ret.mp h⟩
    · exact .inl ⟨a, h⟩
  · rintro (⟨a, h⟩ | ⟨e, h⟩)
    · exact ⟨.ok a, h⟩
    · exact ⟨.error e, answering_ret.mpr h⟩

/-- A fallible call whose outcome is looked at. -/
theorem answering_attempt {op : Op (Except δ α)} {f : Except δ α → Task Op ε β} :
    (answering effect).Reach (Task.attempt (Task.ask op) >>= f).run s (.ret r) u ↔
      ∃ b, (answering effect).Reach (f b).run (effect op b s) (.ret r) u := by
  rw [Task.run_attempt_bind, Task.run_ask, Prog.perform_bind, answering_call]

theorem answering_perform {op : Op α} {f : α → Task Op ε β} :
    (answering effect).Reach (Task.perform op >>= f).run s (.ret r) u ↔
      ∃ b, (answering effect).Reach (f b).run (effect op b s) (.ret r) u := by
  rw [Task.run_bind, Task.run_perform, Prog.call_bind, answering_call]
  rfl

theorem answering_pure {b : β} :
    (answering effect).Reach (pure b : Task Op ε β).run s (.ret r) u ↔ r = .ok b ∧ u = s :=
  answering_ret

theorem answering_throw {e : ε} :
    (answering effect).Reach (Task.throw e : Task Op ε β).run s (.ret r) u ↔
      r = .error e ∧ u = s :=
  answering_ret

/-- A task in sequence: what follows starts where it ended, or its error ends the whole. -/
theorem answering_bind {t : Task Op ε α} {f : α → Task Op ε β}
    (h : (answering effect).Reach (t >>= f).run s (.ret r) u) :
    (∃ a w, (answering effect).Reach t.run s (.ret (.ok a)) w ∧
        (answering effect).Reach (f a).run w (.ret r) u) ∨
      ∃ e, (answering effect).Reach t.run s (.ret (.error e)) u ∧ r = .error e := by
  rcases h.task_bind_inv with hok | ⟨e, hr, ht⟩
  · exact .inl hok
  · exact .inr ⟨e, ht, hr⟩

/-- A task whose outcome is looked at. -/
theorem answering_attempt_task {t : Task Op δ α} {f : Except δ α → Task Op ε β}
    (h : (answering effect).Reach (Task.attempt t >>= f).run s (.ret r) u) :
    ∃ b w, (answering effect).Reach t.run s (.ret b) w ∧
      (answering effect).Reach (f b).run w (.ret r) u :=
  h.attempt_bind_inv

end Tasks

/-- The run in which an oracle gives every answer. -/
def consult (oracle : ∀ ⦃β : Type⦄, Op β → β) (effect : ∀ ⦃β : Type⦄, Op β → β → S → S) :
    Prog Op α → S → α × S
  | .ret a, s => (a, s)
  | .call op next, s => consult oracle effect (next (oracle op)) (effect op (oracle op) s)

theorem consult_reach (oracle : ∀ ⦃β : Type⦄, Op β → β) (p : Prog Op α) (s : S) :
    (answering effect).Reach p s (.ret (consult oracle effect p s).1)
      (consult oracle effect p s).2 := by
  induction p generalizing s with
  | ret a => exact .refl
  | call op next ih => exact .head rfl (ih (oracle op) _)

end Answering

/-- The machine whose steps and drift are those of `M` that meet a condition. -/
def restrict (M : Machine Op S) (allowed : ∀ ⦃β : Type⦄, Op β → S → β → S → Prop)
    (calm : S → S → Prop) : Machine Op S where
  step _ op s b t := M.step op s b t ∧ allowed op s b t
  drift s t := M.drift s t ∧ calm s t

end Machine

/-! ## Machines that execute

An executable machine resolves what the environment decides by a choice per
operation, and drifts by named moves.  A script of choices and moves is then a
run that evaluates. -/

/-- Operations and background moves as functions of the environment's choices. -/
structure Executable (Op : Type → Type) (S : Type u) (C D : Type) where
  exec : ∀ {β : Type}, Op β → C → S → β × S
  move : D → S → S

namespace Executable

variable {Op : Type → Type} {S : Type u} {C D α : Type}

/-- The relational reading: some choice does it. -/
def machine (E : Executable Op S C D) : Machine Op S where
  step _ op s b t := ∃ c, E.exec op c s = (b, t)
  drift s t := ∃ d, E.move d s = t

/-- Follow a script: a choice for the next operation, or a background move. -/
def follow (E : Executable Op S C D) : List (C ⊕ D) → Prog Op α → S → Prog Op α × S
  | [], p, s => (p, s)
  | .inr d :: rest, p, s => E.follow rest p (E.move d s)
  | .inl _ :: _, .ret a, s => (.ret a, s)
  | .inl c :: rest, .call op next, s =>
    E.follow rest (next (E.exec op c s).1) (E.exec op c s).2

/-- **A script is a run.** -/
theorem follow_reach (E : Executable Op S C D) (script : List (C ⊕ D)) (p : Prog Op α) (s : S) :
    E.machine.Reach p s (E.follow script p s).1 (E.follow script p s).2 := by
  induction script generalizing p s with
  | nil => exact .refl
  | cons e rest ih =>
    cases e with
    | inr d =>
      have hmove : E.machine.drift s (E.move d s) := ⟨d, rfl⟩
      exact (Machine.Reach.refl.drift hmove).trans (ih p (E.move d s))
    | inl c =>
      cases p with
      | ret a => exact .refl
      | call op next =>
        have hstep : E.machine.step op s (E.exec op c s).1 (E.exec op c s).2 := ⟨c, rfl⟩
        exact .head hstep (ih _ _)

/-- A script of allowed choices and calm moves is a run of the restricted machine. -/
theorem follow_restrict (E : Executable Op S C D)
    {allowed : ∀ ⦃β : Type⦄, Op β → S → β → S → Prop} {calm : S → S → Prop} (script : List (C ⊕ D))
    (hallowed : ∀ c, .inl c ∈ script → ∀ ⦃β⦄ (op : Op β) s,
      allowed op s (E.exec op c s).1 (E.exec op c s).2)
    (hcalm : ∀ d, .inr d ∈ script → ∀ s, calm s (E.move d s)) (p : Prog Op α) (s : S) :
    (E.machine.restrict allowed calm).Reach p s (E.follow script p s).1
      (E.follow script p s).2 := by
  induction script generalizing p s with
  | nil => exact .refl
  | cons e rest ih =>
    have ih := ih (fun c hc => hallowed c (List.mem_cons_of_mem e hc))
      (fun d hd => hcalm d (List.mem_cons_of_mem e hd))
    cases e with
    | inr d =>
      have hmove : (E.machine.restrict allowed calm).drift s (E.move d s) :=
        ⟨⟨d, rfl⟩, hcalm d List.mem_cons_self s⟩
      exact (Machine.Reach.refl.drift hmove).trans (ih p (E.move d s))
    | inl c =>
      cases p with
      | ret a => exact .refl
      | call op next =>
        have hstep : (E.machine.restrict allowed calm).step op s (E.exec op c s).1
            (E.exec op c s).2 := ⟨⟨c, rfl⟩, hallowed c List.mem_cons_self op s⟩
        exact .head hstep (ih _ _)

/-- Along a script, every operation passes the test in the state it is performed in. -/
def meets (E : Executable Op S C D) (test : ∀ ⦃β : Type⦄, Op β → S → Bool) :
    List (C ⊕ D) → Prog Op α → S → Bool
  | [], _, _ => true
  | .inr d :: rest, p, s => E.meets test rest p (E.move d s)
  | .inl _ :: _, .ret _, _ => true
  | .inl c :: rest, .call op next, s =>
    test op s && E.meets test rest (next (E.exec op c s).1) (E.exec op c s).2

/-- A script whose operations pass the test is a run of the machine restricted by it. -/
theorem follow_meets (E : Executable Op S C D) {test : ∀ ⦃β : Type⦄, Op β → S → Bool}
    {allowed : ∀ ⦃β : Type⦄, Op β → S → β → S → Prop}
    (hallowed : ∀ ⦃β⦄ (op : Op β) s b t, test op s = true → allowed op s b t)
    (script : List (C ⊕ D)) (p : Prog Op α) (s : S) (h : E.meets test script p s = true) :
    (E.machine.restrict allowed fun _ _ => True).Reach p s (E.follow script p s).1
      (E.follow script p s).2 := by
  induction script generalizing p s with
  | nil => exact .refl
  | cons e rest ih =>
    cases e with
    | inr d =>
      have hmove : (E.machine.restrict allowed fun _ _ => True).drift s (E.move d s) :=
        ⟨⟨d, rfl⟩, trivial⟩
      exact (Machine.Reach.refl.drift hmove).trans (ih p (E.move d s) h)
    | inl c =>
      cases p with
      | ret a => exact .refl
      | call op next =>
        obtain ⟨htest, hrest⟩ := Bool.and_eq_true_iff.mp h
        have hstep : (E.machine.restrict allowed fun _ _ => True).step op s (E.exec op c s).1
            (E.exec op c s).2 := ⟨⟨c, rfl⟩, hallowed op s _ _ htest⟩
        exact .head hstep (ih _ _ hrest)

/-- The program stands before an operation that passes the test in the state given. -/
def standsAt (test : ∀ ⦃β : Type⦄, Op β → S → Bool) : Prog Op α × S → Bool
  | (.call op _, s) => test op s
  | (.ret _, _) => false

theorem of_standsAt {test : ∀ ⦃β : Type⦄, Op β → S → Bool} {q : Prog Op α × S}
    (h : standsAt test q = true) :
    ∃ (β : Type) (op : Op β) (next : β → Prog Op α), q.1 = .call op next ∧ test op q.2 = true := by
  obtain ⟨q, t⟩ := q
  cases q with
  | ret a => exact absurd h (by simp [standsAt])
  | call op next => exact ⟨_, op, next, rfl, h⟩

/-- A script that leads to an operation of a kind is a run to such an operation. -/
theorem follow_call (E : Executable Op S C D) (test : ∀ ⦃β : Type⦄, Op β → S → Bool)
    (script : List (C ⊕ D)) (p : Prog Op α) (s : S)
    (h : standsAt test (E.follow script p s) = true) :
    ∃ (β : Type) (op : Op β) (next : β → Prog Op α) (t : S),
      E.machine.Reach p s (.call op next) t ∧ test op t = true := by
  have hreach := E.follow_reach script p s
  obtain ⟨β, op, next, hcall, htest⟩ := of_standsAt h
  rw [hcall] at hreach
  exact ⟨β, op, next, _, hreach, htest⟩

end Executable

end Effect
