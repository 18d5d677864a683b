import Mathlib.Data.List.Infix
import Mathlib.Tactic.Common

/-!
# Worklists

A queue of items, each visited once: a visit changes a state, and may fail or put more
items at the end of the queue.  A measure that every visit lowers by as much as it adds
to the queue makes the run end, and what every visit keeps holds when it has ended.

Where only the first item of each key counts, the items that count are those of a round,
and a list that is worked off to its end has them all.
-/

namespace Worklist

variable {σ ι ε : Type*}

def run (visit : σ → ι → Except ε (σ × List ι)) : Nat → σ → List ι → Option (Except ε σ)
  | _, s, [] => some (.ok s)
  | 0, _, _ :: _ => none
  | n + 1, s, item :: queue =>
    match visit s item with
    | .error e => some (.error e)
    | .ok (s', found) => run visit n s' (queue ++ found)

variable {visit : σ → ι → Except ε (σ × List ι)}

/-- **A run ends** when each visit pays for what it puts in the queue. -/
theorem run_isSome (measure : σ → Nat)
    (hpays : ∀ {s item s' found}, visit s item = .ok (s', found) → measure s' + found.length ≤ measure s)
    {n : Nat} {s : σ} {queue : List ι} (h : measure s + queue.length ≤ n) :
    (run visit n s queue).isSome := by
  induction n generalizing s queue with
  | zero =>
    cases queue with
    | nil => rfl
    | cons item queue =>
      rw [List.length_cons] at h
      omega
  | succ n ih =>
    cases queue with
    | nil => rfl
    | cons item queue =>
      rw [run]
      cases hvisit : visit s item with
      | error e => rfl
      | ok out =>
        obtain ⟨s', found⟩ := out
        have hless := hpays hvisit
        rw [List.length_cons] at h
        exact ih (by rw [List.length_append]; omega)

section Invariant

variable {I : σ → List ι → Prop}
  (hkeeps : ∀ {s item queue s' found}, I s (item :: queue) → visit s item = .ok (s', found) →
    I s' (queue ++ found))

include hkeeps

/-- What every visit keeps holds at the end, of an empty queue. -/
theorem run_ok {n : Nat} {s s' : σ} {queue : List ι} (hI : I s queue)
    (hrun : run visit n s queue = some (.ok s')) : I s' [] := by
  induction n generalizing s queue with
  | zero =>
    cases queue with
    | nil =>
      obtain rfl := Except.ok.inj (Option.some.inj hrun)
      exact hI
    | cons item queue => cases hrun
  | succ n ih =>
    cases queue with
    | nil =>
      obtain rfl := Except.ok.inj (Option.some.inj hrun)
      exact hI
    | cons item queue =>
      rw [run] at hrun
      cases hvisit : visit s item with
      | error e =>
        rw [hvisit] at hrun
        cases hrun
      | ok out =>
        rw [hvisit] at hrun
        exact ih (hkeeps hI hvisit) hrun

/-- A run that fails fails at a visit of an item that the invariant covers. -/
theorem run_error {n : Nat} {s : σ} {queue : List ι} {e : ε} (hI : I s queue)
    (hrun : run visit n s queue = some (.error e)) :
    ∃ s item queue, I s (item :: queue) ∧ visit s item = .error e := by
  induction n generalizing s queue with
  | zero => cases queue <;> cases hrun
  | succ n ih =>
    cases queue with
    | nil => cases hrun
    | cons item queue =>
      rw [run] at hrun
      cases hvisit : visit s item with
      | error e' =>
        rw [hvisit] at hrun
        obtain rfl := Except.error.inj (Option.some.inj hrun)
        exact ⟨s, item, queue, hI, hvisit⟩
      | ok out =>
        rw [hvisit] at hrun
        exact ih (hkeeps hI hvisit) hrun

end Invariant

/-! ## The first of each key -/

section Keyed

variable {α κ : Type*} [DecidableEq κ] (key : α → κ)

/-- The first item of each key, in the order of the list. -/
def firsts : List α → List α
  | [] => []
  | a :: as => a :: (firsts as).filter fun b => key b ≠ key a

variable {key}

theorem mem_of_mem_firsts {a : α} {as : List α} (h : a ∈ firsts key as) : a ∈ as := by
  induction as with
  | nil => exact h
  | cons b bs ih =>
    rw [firsts, List.mem_cons] at h
    rcases h with rfl | h
    · exact List.mem_cons_self
    · exact List.mem_cons_of_mem _ (ih (List.mem_filter.mp h).1)

theorem firsts_append (as bs : List α) :
    firsts key (as ++ bs) =
      firsts key as ++ (firsts key bs).filter fun b => ∀ a ∈ as, key a ≠ key b := by
  induction as with
  | nil => simp [firsts]
  | cons a as ih =>
    rw [List.cons_append, firsts, firsts, ih, List.filter_append, List.filter_filter,
      List.cons_append]
    congr 2
    refine List.filter_congr fun b _ => ?_
    rw [← Bool.decide_and, decide_eq_decide, List.forall_mem_cons, ne_comm]

theorem firsts_prefix {as bs : List α} (h : as <+: bs) : firsts key as <+: firsts key bs := by
  obtain ⟨rest, rfl⟩ := h
  rw [firsts_append]
  exact List.prefix_append _ _

variable (key) (next : α → List α) (start : List α)

/-- The first items of the keys that are met within some rounds: what an item brings comes after
all that was met before. -/
def rounds : Nat → List α
  | 0 => firsts key start
  | n + 1 => firsts key (start ++ (rounds n).flatMap next)

variable {key next start}

/-- What holds of the first items, and of what an item brings, holds in every round. -/
theorem rounds_induction {P : α → Prop} (hstart : ∀ a ∈ start, P a)
    (hnext : ∀ a, P a → ∀ b ∈ next a, P b) {n : Nat} {a : α} (h : a ∈ rounds key next start n) :
    P a := by
  induction n generalizing a with
  | zero => exact hstart a (mem_of_mem_firsts h)
  | succ n ih =>
    rcases List.mem_append.mp (mem_of_mem_firsts h) with hmem | hmem
    · exact hstart a hmem
    · obtain ⟨b, hb, ha⟩ := List.mem_flatMap.mp hmem
      exact hnext b (ih hb) a ha

variable (key next start)

/-- A list that is worked off from the front, each item bringing the keys that are new. -/
structure WorkedOff (done pending : List α) : Prop where
  met : firsts key (start ++ done.flatMap next) = done ++ pending
  within : ∃ n, done ++ pending <+: rounds key next start n

variable {key next start}

theorem WorkedOff.begin : WorkedOff key next start [] (firsts key start) :=
  ⟨by rw [List.flatMap_nil, List.append_nil, List.nil_append], 0, List.prefix_rfl⟩

theorem WorkedOff.step {done pending : List α} {a : α}
    (h : WorkedOff key next start done (a :: pending)) :
    WorkedOff key next start (done ++ [a]) (pending ++
      (firsts key (next a)).filter fun b => ∀ c ∈ start ++ done.flatMap next, key c ≠ key b) := by
  have hmet : firsts key (start ++ (done ++ [a]).flatMap next) = done ++ [a] ++ (pending ++
      (firsts key (next a)).filter fun b => ∀ c ∈ start ++ done.flatMap next, key c ≠ key b) := by
    rw [List.flatMap_append, List.flatMap_singleton, ← List.append_assoc, firsts_append, h.met]
    simp only [List.append_assoc, List.cons_append, List.nil_append]
  obtain ⟨n, hn⟩ := h.within
  have hdone : done ++ [a] <+: rounds key next start n := by
    rw [List.append_cons] at hn
    exact (List.prefix_append _ _).trans hn
  refine ⟨hmet, n + 1, ?_⟩
  rw [← hmet]
  exact firsts_prefix ((List.prefix_append_right_inj _).mpr (hdone.flatMap next))

/-- What brings no new key is done with. -/
theorem WorkedOff.skip {done pending : List α} {a : α}
    (h : WorkedOff key next start done (a :: pending))
    (hold : ∀ b ∈ next a, ∃ c ∈ start ++ done.flatMap next, key c = key b) :
    WorkedOff key next start (done ++ [a]) pending := by
  have hstep := h.step
  rwa [List.filter_eq_nil_iff.mpr, List.append_nil] at hstep
  intro b hb
  obtain ⟨c, hc, hkey⟩ := hold b (mem_of_mem_firsts hb)
  simpa using ⟨c, List.mem_append.mp hc |>.imp_right List.mem_flatMap.mp, hkey⟩

/-- **A list worked off to its end** holds what is met in some round. -/
theorem WorkedOff.mem_iff {done : List α} (h : WorkedOff key next start done []) {a : α} :
    a ∈ done ↔ ∃ n, a ∈ rounds key next start n := by
  have hmet := h.met
  rw [List.append_nil] at hmet
  have hrounds : ∀ n, rounds key next start n <+: done := by
    intro n
    rw [← hmet]
    induction n with
    | zero => exact firsts_prefix (List.prefix_append _ _)
    | succ n ih =>
      rw [hmet] at ih
      exact firsts_prefix ((List.prefix_append_right_inj _).mpr (ih.flatMap next))
  constructor
  · intro ha
    obtain ⟨n, hn⟩ := h.within
    rw [List.append_nil] at hn
    exact ⟨n, hn.subset ha⟩
  · rintro ⟨n, ha⟩
    exact (hrounds n).subset ha

end Keyed

end Worklist
