import Pgpod.Effect.Machine

/-!
# Two runs side by side

`M.Alike I p q J` speaks of every run of `p` and every run of `q` that start in states
related by `I` and come to their ends: what they return, and where, is related by `J`.
-/

namespace Effect

universe u

/-- Both succeed, in what `J` relates, or both fail alike. -/
def Agree {ε α β : Type} {S : Type u} (J : α → β → S → S → Prop) :
    Except ε α → Except ε β → S → S → Prop
  | .ok a, .ok b, s, t => J a b s t
  | .error e, .error e', _, _ => e = e'
  | _, _, _, _ => False

theorem Agree.mono {ε α β : Type} {S : Type u} {J J' : α → β → S → S → Prop} {r : Except ε α}
    {r' : Except ε β} {s t : S} (h : Agree J r r' s t) (hJ : ∀ a b, J a b s t → J' a b s t) :
    Agree J' r r' s t := by
  cases r with
  | ok a =>
    cases r' with
    | ok b => exact hJ a b h
    | error e => exact h
  | error e =>
    cases r' with
    | ok b => exact h
    | error e' => exact h

namespace Machine

variable {Op : Type → Type} {S : Type u} {ε δ α β α' β' : Type}

def Alike (M : Machine Op S) (I : S → S → Prop) (p : Prog Op α) (q : Prog Op β)
    (J : α → β → S → S → Prop) : Prop :=
  ∀ s t a b u v, I s t → M.Reach p s (.ret a) u → M.Reach q t (.ret b) v → J a b u v

/-- A relation that holds on whatever drifts. -/
def Steady (M : Machine Op S) (I : S → S → Prop) : Prop :=
  ∀ s t u v, M.Drifts s u → M.Drifts t v → I s t → I u v

namespace Alike

variable {M : Machine Op S} {I : S → S → Prop} {p : Prog Op α} {q : Prog Op β}
  {J : α → β → S → S → Prop}

theorem strengthen {I' : S → S → Prop} (h : M.Alike I p q J) (hI : ∀ s t, I' s t → I s t) :
    M.Alike I' p q J :=
  fun s t a b u v hs => h s t a b u v (hI s t hs)

theorem weaken {J' : α → β → S → S → Prop} (h : M.Alike I p q J)
    (hJ : ∀ a b s t, J a b s t → J' a b s t) : M.Alike I p q J' :=
  fun s t a b u v hs hp hq => hJ a b u v (h s t a b u v hs hp hq)

/-- What holds of no state in particular is a fact about both runs. -/
theorem given {F : Prop} (h : F → M.Alike I p q J) :
    M.Alike (fun s t => F ∧ I s t) p q J :=
  fun s t a b u v hs => h hs.1 s t a b u v hs.2

theorem ret {a : α} {b : β} (hJ : M.Steady (J a b)) (h : ∀ s t, I s t → J a b s t) :
    M.Alike I (.ret a) (.ret b) J := by
  intro s t a' b' u v hs hp hq
  obtain ⟨ha, hu⟩ := hp.of_ret
  obtain ⟨hb, hv⟩ := hq.of_ret
  cases ha
  cases hb
  exact hJ s t u v hu hv (h s t hs)

theorem bind {f : α → Prog Op α'} {g : β → Prog Op β'} {K : α' → β' → S → S → Prop}
    (h : M.Alike I p q J) (hfg : ∀ a b, M.Alike (J a b) (f a) (g b) K) :
    M.Alike I (p.bind f) (q.bind g) K := by
  intro s t a b u v hs hp hq
  obtain ⟨a₁, u₁, hp₁, hp₂⟩ := hp.bind_ret_inv
  obtain ⟨b₁, v₁, hq₁, hq₂⟩ := hq.bind_ret_inv
  exact hfg a₁ b₁ u₁ v₁ a b u v (h s t a₁ b₁ u₁ v₁ hs hp₁ hq₁) hp₂ hq₂

/-- One side has already returned. -/
theorem ret_left {a : α} (hJ : ∀ b s u v, M.Drifts s u → J a b s v → J a b u v)
    (h : ∀ s t b v, I s t → M.Reach q t (.ret b) v → J a b s v) : M.Alike I (.ret a) q J := by
  intro s t a' b u v hs hp hq
  obtain ⟨ha, hu⟩ := hp.of_ret
  cases ha
  exact hJ b s u v hu (h s t b v hs hq)

/-- What the runs of each side establish on their own. -/
theorem and {K : α → S → Prop} {L : β → S → Prop} (h : M.Alike I p q J)
    (hp : ∀ s t a u, I s t → M.Reach p s (.ret a) u → K a u)
    (hq : ∀ s t b v, I s t → M.Reach q t (.ret b) v → L b v) :
    M.Alike I p q fun a b s t => J a b s t ∧ K a s ∧ L b t :=
  fun s t a b u v hs hp' hq' =>
    ⟨h s t a b u v hs hp' hq', hp s t a u hs hp', hq s t b v hs hq'⟩

/-- One operation on each side. -/
theorem call {γ δ : Type} {op : Op γ} {op' : Op δ} {next : γ → Prog Op α} {next' : δ → Prog Op β}
    {mid : γ → δ → S → S → Prop} (hI : M.Steady I)
    (hstep : ∀ s t c d u v, I s t → M.step op s c u → M.step op' t d v → mid c d u v)
    (hnext : ∀ c d, M.Alike (mid c d) (next c) (next' d) J) :
    M.Alike I (.call op next) (.call op' next') J := by
  intro s t a b u v hs hp hq
  rcases hp.head_inv with ⟨heq, -⟩ | ⟨s₁, c, s₂, hdrifts, hop, hp⟩
  · cases heq
  rcases hq.head_inv with ⟨heq, -⟩ | ⟨t₁, d, t₂, hdrifts', hop', hq⟩
  · cases heq
  have hmid := hstep s₁ t₁ c d s₂ t₂ (hI s t s₁ t₁ hdrifts hdrifts' hs) hop hop'
  exact hnext c d s₂ t₂ a b u v hmid hp hq

theorem task_bind {t : Task Op ε α} {t' : Task Op ε β} {f : α → Task Op ε α'}
    {g : β → Task Op ε β'} {K : α' → β' → S → S → Prop} (h : M.Alike I t.run t'.run (Agree J))
    (hfg : ∀ a b, M.Alike (J a b) (f a).run (g b).run (Agree K)) :
    M.Alike I (t >>= f).run (t' >>= g).run (Agree K) := by
  refine bind h fun r r' => ?_
  cases r with
  | ok a =>
    cases r' with
    | ok b => exact hfg a b
    | error e => exact fun _ _ _ _ _ _ hs => hs.elim
  | error e =>
    cases r' with
    | ok b => exact fun _ _ _ _ _ _ hs => hs.elim
    | error e' =>
      intro s u r r' v w hs hp hq
      cases hp.of_ret.1
      cases hq.of_ret.1
      exact hs

/-- Tasks whose outcomes are looked at. -/
theorem attempt_bind {t : Task Op δ α} {t' : Task Op δ β} {f : Except δ α → Task Op ε α'}
    {g : Except δ β → Task Op ε β'} {J : Except δ α → Except δ β → S → S → Prop}
    {K : Except ε α' → Except ε β' → S → S → Prop} (h : M.Alike I t.run t'.run J)
    (hfg : ∀ r r', M.Alike (J r r') (f r).run (g r').run K) :
    M.Alike I (Task.attempt t >>= f).run (Task.attempt t' >>= g).run K := by
  rw [Task.run_attempt_bind, Task.run_attempt_bind]
  exact bind h hfg

end Alike

end Machine

end Effect
