import Pgpod.Effect.Machine

/-!
# What a task has established when it succeeds

`M.Yields I t J` speaks only of the runs of `t` that end in success, so that
the rule of sequencing needs nothing about errors.
-/

namespace Effect

namespace Machine

universe u

variable {Op : Type → Type} {S : Type u} {ε δ α β : Type} {M : Machine Op S}

/-- Started in `I`, a run of the task to a value ends in `J` of that value. -/
def Yields (M : Machine Op S) (I : S → Prop) (t : Task Op ε α) (J : α → S → Prop) : Prop :=
  ∀ s a u, I s → M.Reach t.run s (.ret (.ok a)) u → J a u

theorem Stable.and {I J : S → Prop} (hI : M.Stable I) (hJ : M.Stable J) :
    M.Stable fun s => I s ∧ J s :=
  fun s t hd h => ⟨hI s t hd h.1, hJ s t hd h.2⟩

theorem Stable.const (p : Prop) : M.Stable fun _ => p := fun _ _ _ h => h

namespace Yields

variable {I I' : S → Prop} {t : Task Op ε α} {J J' : α → S → Prop} {K : β → S → Prop}

theorem mono (h : M.Yields I t J) (hI : ∀ s, I' s → I s) (hJ : ∀ a s, J a s → J' a s) :
    M.Yields I' t J' :=
  fun s a u hs hr => hJ a u (h s a u (hI s hs) hr)

/-- What is known of the past is at hand in the proof of the rest. -/
theorem fact {p : Prop} (h : p → M.Yields I t J) : M.Yields (fun s => p ∧ I s) t J :=
  fun s a u hs hr => h hs.1 s a u hs.2 hr

theorem of_exists {γ : Type} {I : γ → S → Prop} (h : ∀ x, M.Yields (I x) t J) :
    M.Yields (fun s => ∃ x, I x s) t J :=
  fun s a u ⟨x, hx⟩ hr => h x s a u hx hr

theorem bind {f : α → Task Op ε β} (ht : M.Yields I t J) (hf : ∀ a, M.Yields (J a) (f a) K) :
    M.Yields I (t >>= f) K := by
  intro s b u hs hr
  obtain ⟨r, v, hfirst, hrest⟩ := Reach.bind_ret_inv hr
  cases r with
  | error e => exact absurd hrest.of_ret.1 (by simp)
  | ok a => exact hf a v b u (ht s a v hs hfirst) hrest

theorem pure {a : α} (hJ : M.Stable (J a)) (h : ∀ s, I s → J a s) :
    M.Yields I (pure a : Task Op ε α) J := by
  intro s b u hs hr
  obtain ⟨heq, hdrifts⟩ := hr.of_ret
  cases heq
  exact hJ.drifts hdrifts (h s hs)

theorem throw {e : ε} : M.Yields I (Task.throw e : Task Op ε α) J :=
  fun _ _ _ _ hr => absurd hr.of_ret.1 (by simp)

theorem ofExcept {r : Except ε α} (hI : M.Stable I) :
    M.Yields I (Task.ofExcept r) fun a s => r = .ok a ∧ I s := by
  intro s a u hs hr
  obtain ⟨heq, hdrifts⟩ := hr.of_ret
  exact ⟨(Prog.ret.inj heq).symm, hI.drifts hdrifts hs⟩

/-- One operation: what its answer and effect establish. -/
theorem call {γ : Type} {op : Op γ} {g : γ → Except ε α} (hI : M.Stable I)
    (hJ : ∀ a, M.Stable (J a))
    (hstep : ∀ s c u a, I s → M.step op s c u → g c = .ok a → J a u) :
    M.Yields I (Prog.call op fun c => .ret (g c) : Task Op ε α) J := by
  intro s a u hs hr
  rcases Reach.head_inv hr with ⟨heq, -⟩ | ⟨v, c, w, hdrifts, hop, hnext⟩
  · cases heq
  · obtain ⟨heq, hafter⟩ := hnext.of_ret
    exact (hJ a).drifts hafter
      (hstep v c w a (hI.drifts hdrifts hs) hop (Prog.ret.inj heq).symm)

theorem ask {op : Op (Except ε α)} (hI : M.Stable I) (hJ : ∀ a, M.Stable (J a))
    (hstep : ∀ s a u, I s → M.step op s (.ok a) u → J a u) : M.Yields I (Task.ask op) J :=
  call hI hJ fun s _ u a hs hop heq => hstep s a u hs (heq ▸ hop)

/-- A task whose outcome is looked at. -/
theorem attempt (h : M.Yields I t J) :
    M.Yields I (Task.attempt t : Task Op δ (Except ε α)) fun r s => ∀ a, r = .ok a → J a s := by
  intro s r u hs hr
  obtain ⟨b, w, hfirst, hrest⟩ := Reach.bind_ret_inv hr
  obtain ⟨heq, hdrifts⟩ := hrest.of_ret
  cases heq
  rintro a rfl
  exact h s a u hs (hfirst.trans (.of_drifts hdrifts))

/-- What holds after every run holds after the runs of a restricted machine. -/
theorem restrict {allowed : ∀ ⦃β : Type⦄, Op β → S → β → S → Prop} {calm : S → S → Prop}
    (h : M.Yields I t J) : (M.restrict allowed calm).Yields I t J :=
  fun s a u hs hr => h s a u hs
    (Reach.mono (M := M.restrict allowed calm) (fun _ _ _ _ _ hop => hop.1) (fun _ _ hd => hd.1) hr)

/-- A task whose operations all keep `I` keeps `I`. -/
theorem of_calls {P : ∀ ⦃β : Type⦄, Op β → Prop} (hI : M.Stable I)
    (hstep : ∀ ⦃β⦄ (op : Op β) s b u, P op → I s → M.step op s b u → I u)
    (ht : t.run.Calls P) : M.Yields I t fun _ => I :=
  fun _ _ _ hs hr => hr.keeps hI hstep ht hs

end Yields

end Machine

end Effect
