import Mathlib.Data.List.Infix

/-!
# Paths as the file system reads them

A path is its components; empty ones say nothing.  `resolve` works off `.` and
`..`, and a path ends below the component `a` of the root exactly when `a` is
entered at the root and never left again.
-/

namespace Path

/-- The components of a path, without the empty ones. -/
def components (cs : List Char) : List (List Char) := (cs.splitOn '/').filter (· ≠ [])

theorem components_append (as bs : List Char) :
    components (as ++ '/' :: bs) = components as ++ components bs := by
  rw [components, List.splitOn_append_cons_self, List.filter_append]
  rfl

@[simp] theorem components_nil : components [] = [] := rfl

@[simp] theorem components_slash (cs : List Char) : components ('/' :: cs) = components cs :=
  components_append [] cs

/-- Slashes at the start say nothing. -/
theorem components_dropWhile (cs : List Char) :
    components (cs.dropWhile (· = '/')) = components cs := by
  induction cs with
  | nil => rfl
  | cons c cs ih =>
    by_cases hc : c = '/'
    · rw [List.dropWhile_cons_of_pos (by simpa using hc), ih, hc, components_slash]
    · rw [List.dropWhile_cons_of_neg (by simpa using hc)]

/-- Nor do slashes at the end. -/
theorem components_dropWhile_reverse (cs : List Char) :
    components ((cs.reverse.dropWhile (· = '/')).reverse) = components cs := by
  induction cs using List.reverseRecOn with
  | nil => rfl
  | append_singleton cs c ih =>
    rw [List.reverse_append, List.reverse_singleton, List.singleton_append]
    by_cases hc : c = '/'
    · rw [List.dropWhile_cons_of_pos (by simpa using hc), ih, hc, components_append, components_nil,
        List.append_nil]
    · rw [List.dropWhile_cons_of_neg (by simpa using hc), List.reverse_cons, List.reverse_reverse]

/-! ## Resolving -/

/-- One component after the directories entered so far, the last one first; the root is its own
parent. -/
def enter (stack : List (List Char)) (c : List Char) : List (List Char) :=
  if c = ['.'] then stack else if c = ['.', '.'] then stack.tail else c :: stack

def walk (stack : List (List Char)) (cs : List (List Char)) : List (List Char) :=
  cs.foldl enter stack

/-- The components of the path without `.` and `..`. -/
def resolve (cs : List (List Char)) : List (List Char) := (walk [] cs).reverse

@[simp] theorem walk_nil (stack : List (List Char)) : walk stack [] = stack := rfl

@[simp] theorem walk_cons (stack : List (List Char)) (c : List Char) (cs : List (List Char)) :
    walk stack (c :: cs) = walk (enter stack c) cs := rfl

theorem walk_append (stack : List (List Char)) (as bs : List (List Char)) :
    walk stack (as ++ bs) = walk (walk stack as) bs :=
  List.foldl_append

/-- Starting `n` directories deep, the components never lead out at the top. -/
def StaysIn : Nat → List (List Char) → Prop
  | _, [] => True
  | n, c :: cs =>
    if c = ['.'] then StaysIn n cs
    else if c = ['.', '.'] then n ≠ 0 ∧ StaysIn (n - 1) cs
    else StaysIn (n + 1) cs

instance decStaysIn : ∀ (n : Nat) (cs : List (List Char)), Decidable (StaysIn n cs)
  | _, [] => .isTrue trivial
  | n, c :: cs =>
    have := decStaysIn n cs
    have := decStaysIn (n - 1) cs
    have := decStaysIn (n + 1) cs
    inferInstanceAs (Decidable (if c = ['.'] then StaysIn n cs
      else if c = ['.', '.'] then n ≠ 0 ∧ StaysIn (n - 1) cs
      else StaysIn (n + 1) cs))

/-- What stays in leaves what was entered before alone. -/
theorem walk_of_staysIn {base t : List (List Char)} {cs : List (List Char)}
    (h : StaysIn t.length cs) : ∃ t', walk (t ++ base) cs = t' ++ base := by
  induction cs generalizing t with
  | nil => exact ⟨t, rfl⟩
  | cons c cs ih =>
    unfold StaysIn at h
    rw [walk_cons, enter]
    by_cases hdot : c = ['.']
    · rw [if_pos hdot] at h ⊢
      exact ih h
    rw [if_neg hdot] at h ⊢
    by_cases hup : c = ['.', '.']
    · rw [if_pos hup] at h ⊢
      cases t with
      | nil => exact absurd rfl h.1
      | cons x t => exact ih h.2
    · rw [if_neg hup] at h ⊢
      exact ih (t := c :: t) h

/-- A walk that ends below `a` stayed below it, or was at the root, entered `a` and stayed there. -/
theorem staysIn_of_walk {a : List Char} {stack t : List (List Char)} {cs : List (List Char)}
    (h : walk stack cs = t ++ [a]) :
    (∃ t₀, stack = t₀ ++ [a] ∧ StaysIn t₀.length cs) ∨
      ∃ front rest, cs = front ++ a :: rest ∧ walk stack front = [] ∧ StaysIn 0 rest := by
  induction cs generalizing stack with
  | nil => exact .inl ⟨t, h, trivial⟩
  | cons c cs ih =>
    rcases ih h with ⟨t₁, hstack, hstays⟩ | ⟨front, rest, rfl, hroot, hstays⟩
    · rw [enter] at hstack
      by_cases hdot : c = ['.']
      · rw [if_pos hdot] at hstack
        exact .inl ⟨t₁, hstack, by rw [StaysIn, if_pos hdot]; exact hstays⟩
      rw [if_neg hdot] at hstack
      by_cases hup : c = ['.', '.']
      · rw [if_pos hup] at hstack
        cases stack with
        | nil => simp at hstack
        | cons x stack =>
          refine .inl ⟨x :: t₁, congrArg (x :: ·) hstack, ?_⟩
          rw [StaysIn, if_neg hdot, if_pos hup]
          exact ⟨Nat.succ_ne_zero _, hstays⟩
      · rw [if_neg hup] at hstack
        cases t₁ with
        | nil =>
          obtain ⟨rfl, rfl⟩ := List.cons.inj hstack
          exact .inr ⟨[], cs, rfl, rfl, hstays⟩
        | cons x t₁ =>
          obtain ⟨rfl, rfl⟩ := List.cons.inj hstack
          refine .inl ⟨t₁, rfl, ?_⟩
          rw [StaysIn, if_neg hdot, if_neg hup]
          exact hstays
    · exact .inr ⟨c :: front, rest, rfl, hroot, hstays⟩

/-- **Ending below a directory of the root**: it is entered at the root and not left again. -/
theorem resolve_below_iff {a : List Char} (hdot : a ≠ ['.']) (hup : a ≠ ['.', '.'])
    {cs : List (List Char)} :
    [a] <+: resolve cs ↔
      ∃ front rest, cs = front ++ a :: rest ∧ resolve front = [] ∧ StaysIn 0 rest := by
  constructor
  · rintro ⟨t, ht⟩
    have hwalk : walk [] cs = t.reverse ++ [a] := by
      rw [← List.reverse_reverse (walk [] cs)]
      change (resolve cs).reverse = _
      rw [← ht, List.reverse_append]
      rfl
    rcases staysIn_of_walk hwalk with ⟨t₀, hnil, -⟩ | ⟨front, rest, hcs, hroot, hstays⟩
    · simp at hnil
    · exact ⟨front, rest, hcs, by rw [resolve, hroot]; rfl, hstays⟩
  · rintro ⟨front, rest, rfl, hroot, hstays⟩
    have hfront : walk [] front = [] := List.reverse_eq_nil_iff.mp hroot
    obtain ⟨t, ht⟩ : ∃ t, walk ([] ++ [a]) rest = t ++ [a] := walk_of_staysIn hstays
    refine ⟨t.reverse, ?_⟩
    rw [resolve, walk_append, hfront, walk_cons, enter, if_neg hdot, if_neg hup]
    rw [List.nil_append] at ht
    rw [ht, List.reverse_append]
    rfl

/-- Without `..` there is no way out. -/
theorem staysIn_of_not_mem {n : Nat} {cs : List (List Char)} (h : ['.', '.'] ∉ cs) :
    StaysIn n cs := by
  induction cs generalizing n with
  | nil => trivial
  | cons c cs ih =>
    rw [List.mem_cons, not_or] at h
    rw [StaysIn, if_neg (Ne.symm h.1)]
    split
    · exact ih h.2
    · exact ih h.2

end Path
