import Mathlib.Data.List.Basic
import Mathlib.Data.List.Infix

/-!
# The first window that matches

The position of the first stretch of a list that equals a pattern, as
`windows(n).position(|w| w == pattern)` finds it.
-/

namespace Search

variable {α : Type} [DecidableEq α]

/-- The position of the first `pattern`, which is not empty. -/
def find (pattern : List α) : List α → Option Nat
  | [] => none
  | x :: xs => if pattern <+: x :: xs then some 0 else (find pattern xs).map (· + 1)

theorem find_eq_none_iff {pattern xs : List α} (hne : pattern ≠ []) :
    find pattern xs = none ↔ ∀ n, ¬ pattern <+: xs.drop n := by
  induction xs with
  | nil => simp [find, hne]
  | cons x xs ih =>
    rw [find]
    split
    · next h => exact iff_of_false (by simp) fun hnone => hnone 0 h
    · next h =>
      rw [Option.map_eq_none_iff, ih]
      constructor
      · intro hnone n
        cases n with
        | zero => exact h
        | succ n => exact hnone n
      · intro hnone n
        exact hnone (n + 1)

/-- The position found is that of a match with none before it. -/
theorem find_eq_some_iff {pattern xs : List α} {n : Nat} (hne : pattern ≠ []) :
    find pattern xs = some n ↔
      pattern <+: xs.drop n ∧ ∀ m < n, ¬ pattern <+: xs.drop m := by
  induction xs generalizing n with
  | nil => simp [find, hne]
  | cons x xs ih =>
    rw [find]
    split
    · next h =>
      constructor
      · intro hn
        obtain rfl := Option.some.inj hn
        exact ⟨h, fun m hm => absurd hm (Nat.not_lt_zero m)⟩
      · rintro ⟨-, hfirst⟩
        cases n with
        | zero => rfl
        | succ n => exact absurd h (hfirst 0 (Nat.succ_pos n))
    · next h =>
      cases n with
      | zero => simp [h]
      | succ n =>
        rw [Option.map_eq_some_iff]
        simp only [Nat.add_right_cancel_iff, exists_eq_right, ih, List.drop_succ_cons]
        refine and_congr_right fun _ => ⟨fun hfirst m hm => ?_, fun hfirst m hm => ?_⟩
        · cases m with
          | zero => exact h
          | succ m => exact hfirst m (Nat.lt_of_succ_lt_succ hm)
        · exact hfirst (m + 1) (Nat.succ_lt_succ hm)

/-- Cut before its end, the first match is none. -/
theorem find_take {pattern xs : List α} {n k : Nat} (hne : pattern ≠ [])
    (h : find pattern xs = some n) (hk : k < n + pattern.length) :
    find pattern (xs.take k) = none := by
  obtain ⟨-, hfirst⟩ := (find_eq_some_iff hne).mp h
  rw [find_eq_none_iff hne]
  intro m hm
  have hlen := hm.length_le
  rw [List.length_drop, List.length_take] at hlen
  have hpos := List.length_pos_of_ne_nil hne
  rw [List.drop_take] at hm
  exact hfirst m (by omega) (hm.trans (List.take_prefix _ _))

/-- What does not hold the pattern's first element is passed over. -/
theorem find_append {x : α} {pattern front : List α} (h : x ∉ front) (rest : List α) :
    find (x :: pattern) (front ++ rest) =
      (find (x :: pattern) rest).map (· + front.length) := by
  induction front with
  | nil => simp
  | cons y front ih =>
    obtain ⟨hy, hfront⟩ := not_or.mp (mt List.mem_cons.mpr h)
    have hmiss : ¬ x :: pattern <+: y :: (front ++ rest) :=
      fun hmatch => hy (List.cons_prefix_cons.mp hmatch).1
    rw [List.cons_append, find, if_neg hmiss, ih hfront, Option.map_map]
    rfl

end Search
