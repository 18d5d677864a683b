import Pgpod.Effect.Threads

/-!
# One thread among others

The first thread of a configuration, seen on its own: what the others do, and what comes up beside
it, happens to the state between two of its operations.  And a run of one thread is a run of the
configuration, the others standing where they are.
-/

namespace Effect

namespace System

universe u v

variable {Op : Type → Type} {S : Type u} {T : Type v} {ρ : Type} {Y : System Op S ρ}

/-- **The first thread runs as if alone** on what is seen of the state, where all that others do
is drift. -/
theorem Steps.front {N : Machine Op T} (f : S → T) {role : ρ} {p : Prog Op Unit}
    {others : List (Thread Op ρ)} {s : S} {c : Config Op S ρ}
    (hown : ∀ ⦃β⦄ (op : Op β) next s b t, Y.step ⟨role, .call op next⟩ op s b t →
      N.step op (f s) b (f t))
    (hother : ∀ (th : Thread Op ρ) ⦃β⦄ (op : Op β) s b t, th.role ≠ role → Y.step th op s b t →
      N.drift (f s) (f t))
    (hdrift : ∀ s t, Y.drift s t → N.drift (f s) (f t))
    (hstart : ∀ s t th, Y.start s t th → th.role ≠ role ∧ N.drift (f s) (f t))
    (hothers : ∀ th ∈ others, th.role ≠ role) (h : Y.Steps ⟨s, ⟨role, p⟩ :: others⟩ c) :
    ∃ q rest, c.threads = ⟨role, q⟩ :: rest ∧ (∀ th ∈ rest, th.role ≠ role) ∧
      N.Reach p (f s) q (f c.state) := by
  induction h with
  | refl => exact ⟨p, others, rfl, hothers, .refl⟩
  | tail _ hstep ih =>
    obtain ⟨q, rest, hthreads, hrest, hreach⟩ := ih
    cases hstep with
    | @act pre post role' β op next s₁ t₁ b hact =>
      cases pre with
      | nil =>
        obtain ⟨hth, rfl⟩ := List.cons.inj hthreads
        obtain ⟨rfl, rfl⟩ := Thread.mk.inj hth
        exact ⟨next b, post, rfl, hrest, hreach.call (hown op next s₁ b t₁ hact)⟩
      | cons th pre =>
        obtain ⟨rfl, rfl⟩ := List.cons.inj hthreads
        have hne : role' ≠ role :=
          hrest _ (List.mem_append_right pre List.mem_cons_self)
        refine ⟨q, pre ++ ⟨role', next b⟩ :: post, rfl, fun th hth => ?_,
          hreach.drift (hother _ op s₁ b t₁ hne hact)⟩
        rcases List.mem_append.1 hth with hpre | hpost
        · exact hrest th (List.mem_append_left _ hpre)
        · rcases List.mem_cons.1 hpost with rfl | hpost
          · exact hne
          · exact hrest th (List.mem_append_right _ (List.mem_cons_of_mem _ hpost))
    | drift hd => exact ⟨q, rest, hthreads, hrest, hreach.drift (hdrift _ _ hd)⟩
    | @start ths s₁ t₁ th hs =>
      obtain ⟨hne, hd⟩ := hstart s₁ t₁ th hs
      have hthreads' : ths = ⟨role, q⟩ :: rest := hthreads
      refine ⟨q, rest ++ [th], by rw [hthreads']; rfl, fun th' hth' => ?_, hreach.drift hd⟩
      rcases List.mem_append.1 hth' with hold | hnew
      · exact hrest th' hold
      · obtain rfl := List.mem_singleton.1 hnew
        exact hne

/-- **A run of one thread** is a run of the configuration it stands in. -/
theorem Steps.run {M : Machine Op S} {role : ρ} {p q : Prog Op Unit} {s t : S}
    (hown : ∀ ⦃β⦄ (op : Op β) next s b t, M.step op s b t →
      Y.step ⟨role, .call op next⟩ op s b t)
    (hdrift : ∀ s t, M.drift s t → Y.drift s t) (h : M.Reach p s q t)
    (pre post : List (Thread Op ρ)) :
    Y.Steps ⟨s, pre ++ ⟨role, p⟩ :: post⟩ ⟨t, pre ++ ⟨role, q⟩ :: post⟩ := by
  induction h with
  | refl => exact .refl
  | drift _ hd ih => exact ih.tail (.drift (hdrift _ _ hd))
  | call _ hstep ih => exact ih.tail (.act (hown _ _ _ _ _ hstep))

end System

end Effect
