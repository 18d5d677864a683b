import Pgpod.Effect.Machine

/-!
# What a task keeps, however it ends

`M.Upholds I t Q` speaks of every run of `t` from `I`: it ends in `I`, and a
value it ends with has `Q`.
-/

namespace Effect

namespace Machine

universe u

variable {Op : Type → Type} {S : Type u} {ε δ α β : Type} {M : Machine Op S}

def Upholds (M : Machine Op S) (I : S → Prop) (t : Task Op ε α) (Q : α → Prop) : Prop :=
  ∀ s r u, I s → M.Reach t.run s (.ret r) u → I u ∧ ∀ a, r = .ok a → Q a

namespace Upholds

variable {I : S → Prop} {t : Task Op ε α} {Q Q' : α → Prop} {R : β → Prop}

theorem mono (h : M.Upholds I t Q) (hQ : ∀ a, Q a → Q' a) : M.Upholds I t Q' :=
  fun s r u hs hr => ⟨(h s r u hs hr).1, fun a ha => hQ a ((h s r u hs hr).2 a ha)⟩

theorem bind {f : α → Task Op ε β} (ht : M.Upholds I t Q) (hf : ∀ a, Q a → M.Upholds I (f a) R) :
    M.Upholds I (t >>= f) R := by
  intro s r u hs hr
  rcases hr.task_bind_inv with ⟨a, w, hfirst, hrest⟩ | ⟨e, rfl, hfirst⟩
  · obtain ⟨hw, ha⟩ := ht s _ w hs hfirst
    exact hf a (ha a rfl) w r u hw hrest
  · exact ⟨(ht s _ u hs hfirst).1, nofun⟩

theorem pure {a : α} (hI : M.Stable I) (ha : Q a) : M.Upholds I (pure a : Task Op ε α) Q := by
  intro s r u hs hr
  obtain ⟨heq, hdrifts⟩ := hr.of_ret
  cases heq
  exact ⟨hI.drifts hdrifts hs, fun b hb => Except.ok.inj hb ▸ ha⟩

theorem throw {e : ε} (hI : M.Stable I) : M.Upholds I (Task.throw e : Task Op ε α) Q := by
  intro s r u hs hr
  obtain ⟨heq, hdrifts⟩ := hr.of_ret
  cases heq
  exact ⟨hI.drifts hdrifts hs, nofun⟩

theorem ofExcept {r : Except ε α} (hI : M.Stable I) :
    M.Upholds I (Task.ofExcept r) fun a => r = .ok a := by
  intro s r' u hs hr
  obtain ⟨heq, hdrifts⟩ := hr.of_ret
  cases heq
  exact ⟨hI.drifts hdrifts hs, fun _ ha => ha⟩

theorem ask {op : Op (Except ε α)} (hI : M.Stable I)
    (hstep : ∀ s b u, I s → M.step op s b u → I u ∧ ∀ a, b = .ok a → Q a) :
    M.Upholds I (Task.ask op) Q := by
  intro s r u hs hr
  obtain ⟨v, w, hv, hop, hw⟩ := Reach.perform_inv hr
  obtain ⟨hIw, hQ⟩ := hstep v r w (hI.drifts hv hs) hop
  exact ⟨hI.drifts hw hIw, hQ⟩

theorem attempt (ht : M.Upholds I t Q) (hI : M.Stable I) :
    M.Upholds I (Task.attempt t : Task Op δ (Except ε α)) fun r => ∀ a, r = .ok a → Q a := by
  intro s r u hs hr
  obtain ⟨b, w, hfirst, hrest⟩ := Reach.bind_ret_inv hr
  obtain ⟨heq, hdrifts⟩ := hrest.of_ret
  cases heq
  obtain ⟨hw, hQ⟩ := ht s b w hs hfirst
  refine ⟨hI.drifts hdrifts hw, fun r' hr' => ?_⟩
  rw [← Except.ok.inj hr']
  exact hQ

theorem when {b : Bool} {t : Task Op ε Unit} (hI : M.Stable I)
    (ht : b = true → M.Upholds I t fun _ => True) : M.Upholds I (Task.when b t) fun _ => True := by
  cases b with
  | true => exact ht rfl
  | false => exact .pure hI trivial

/-- A task whose operations all keep `I`. -/
theorem of_calls {P : ∀ ⦃β : Type⦄, Op β → Prop} (hI : M.Stable I)
    (hstep : ∀ ⦃β⦄ (op : Op β) s b u, P op → I s → M.step op s b u → I u)
    (ht : t.run.Calls P) : M.Upholds I t fun _ => True :=
  fun _ _ _ hs hr => ⟨hr.keeps hI hstep ht hs, fun _ _ => trivial⟩

end Upholds

end Machine

end Effect
