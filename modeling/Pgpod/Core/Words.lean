import Mathlib.Data.List.TakeWhile

/-!
# Command lines

A line is cut into commands at its stops, and a command into words at its blanks.
Empty commands are skipped.  When a word is followed by a blank and then by any text
at all, the line is that word and one other exactly when the text is the other word,
blanks before it and nothing but blanks and stops after it.
-/

namespace Words

variable {α : Type} {p blank stop : α → Bool}

/-- The words of a command. -/
def words (blank : α → Bool) (cs : List α) : List (List α) :=
  (cs.splitOnP blank).filter fun w => !w.isEmpty

/-- The commands of a line, each with its words. -/
def commands (blank stop : α → Bool) (cs : List α) : List (List (List α)) :=
  ((cs.splitOnP stop).map (words blank)).filter fun c => !c.isEmpty

/-- The text is one word, blanks before it and blanks and stops after it. -/
def Lone (blank stop : α → Bool) (word text : List α) : Prop :=
  word ≠ [] ∧ (∀ c ∈ word, blank c = false ∧ stop c = false) ∧ ∃ before after,
    text = before ++ word ++ after ∧ (∀ c ∈ before, blank c = true) ∧
      ∀ c ∈ after, blank c = true ∨ stop c = true

/-- A word stands alone. -/
theorem lone_self {word : List α} (hne : word ≠ [])
    (h : word.all (fun c => !blank c && !stop c) = true) : Lone blank stop word word :=
  ⟨hne, fun c hc => by simpa using List.all_eq_true.mp h c hc, [], [], by simp, by simp, by simp⟩

/-- Without the separator, what lies in a text lies on one side of it. -/
theorem infix_append_cons {c : α} {needle : List α} (h : c ∉ needle) {as bs : List α} :
    needle <:+: as ++ c :: bs ↔ needle <:+: as ∨ needle <:+: bs := by
  constructor
  · rintro ⟨front, back, heq⟩
    rcases List.append_eq_append_iff.mp heq with ⟨mid, hleft, -⟩ | ⟨mid, hleft, hright⟩
    · exact .inl ⟨front, mid, hleft.symm⟩
    cases mid with
    | nil => exact .inl ⟨front, [], by simpa using hleft⟩
    | cons d mid =>
      obtain ⟨rfl, rfl⟩ := List.cons.inj hright
      rcases List.append_eq_append_iff.mp hleft with ⟨low, -, hneedle⟩ | ⟨low, -, hlow⟩
      · exact absurd (hneedle ▸ List.mem_append_right _ List.mem_cons_self) h
      cases low with
      | nil =>
        rw [List.nil_append] at hlow
        exact absurd (hlow ▸ List.mem_cons_self) h
      | cons d low =>
        obtain ⟨-, rfl⟩ := List.cons.inj hlow
        exact .inr ⟨low, back, rfl⟩
  · rintro (hleft | hright)
    · exact hleft.trans (List.prefix_append _ _).isInfix
    · exact hright.trans ((List.suffix_cons _ _).trans (List.suffix_append _ _)).isInfix

/-! ## Cutting -/

theorem not_mem_of_mem_splitOn [BEq α] [LawfulBEq α] {sep : α} {cs piece : List α}
    (h : piece ∈ cs.splitOn sep) : sep ∉ piece := by
  induction cs generalizing piece with
  | nil =>
    rw [List.splitOn_nil, List.mem_singleton] at h
    rw [h]
    exact List.not_mem_nil
  | cons c cs ih =>
    rw [List.splitOn_cons_eq_if_modifyHead] at h
    by_cases hc : (c == sep) = true
    · rw [if_pos hc] at h
      rcases List.mem_cons.mp h with rfl | h
      · exact List.not_mem_nil
      · exact ih h
    · rw [if_neg hc] at h
      cases hsplit : cs.splitOn sep with
      | nil => exact absurd hsplit (List.splitOn_ne_nil _ _)
      | cons first more =>
        rw [hsplit] at ih h
        rcases List.mem_cons.mp h with rfl | h
        · rw [List.mem_cons, not_or]
          exact ⟨fun heq => hc (beq_iff_eq.mpr heq.symm), ih List.mem_cons_self⟩
        · exact ih (List.mem_cons_of_mem _ h)

/-- The first piece ends at the first separator. -/
theorem splitOnP_eq (p : α → Bool) (cs : List α) :
    ∃ rest, cs.splitOnP p = cs.takeWhile (fun c => !p c) :: rest ∧
      ∀ Q : α → Prop, (∀ piece ∈ rest, ∀ c ∈ piece, Q c) ↔
        ∀ c ∈ cs.dropWhile (fun c => !p c), p c = true ∨ Q c := by
  induction cs with
  | nil => exact ⟨[], rfl, by simp⟩
  | cons c cs ih =>
    obtain ⟨rest, heq, hrest⟩ := ih
    rw [List.splitOnP_cons_eq_if_modifyHead, heq]
    by_cases hc : p c = true
    · refine ⟨cs.takeWhile (fun c => !p c) :: rest, by simp [hc], fun Q => ?_⟩
      have hfirst : (∀ d ∈ cs, p d = true ∨ Q d) ↔ (∀ d ∈ cs.takeWhile (fun c => !p c), Q d) ∧
          ∀ d ∈ cs.dropWhile (fun c => !p c), p d = true ∨ Q d := by
        constructor
        · intro h
          refine ⟨fun d hd => ?_, fun d hd => h d (List.dropWhile_subset _ hd)⟩
          have hpd : p d = false := by simpa using List.mem_takeWhile_imp hd
          exact (h d (List.takeWhile_subset _ hd)).resolve_left (by simp [hpd])
        · rintro ⟨htake, hdrop⟩ d hd
          rw [← List.takeWhile_append_dropWhile (p := fun c => !p c) (l := cs)] at hd
          exact (List.mem_append.mp hd).elim (fun h => .inr (htake d h)) (hdrop d)
      rw [List.forall_mem_cons, hrest Q, ← hfirst]
      simp [hc]
    · have hc : p c = false := by simpa using hc
      exact ⟨rest, by simp [hc], fun Q => by simpa [hc] using hrest Q⟩

theorem splitOnP_append {front : List α} (h : ∀ c ∈ front, p c = false) (cs : List α) :
    (front ++ cs).splitOnP p = (cs.splitOnP p).modifyHead (front ++ ·) := by
  induction front with
  | nil => cases h : cs.splitOnP p <;> simp [h]
  | cons c front ih =>
    have hc : p c = false := h c List.mem_cons_self
    rw [List.cons_append, List.splitOnP_cons_eq_if_modifyHead, hc,
      ih fun d hd => h d (List.mem_cons_of_mem _ hd)]
    cases cs.splitOnP p <;> simp

/-! ## Words -/

theorem words_eq_nil {cs : List α} : words blank cs = [] ↔ ∀ c ∈ cs, blank c = true := by
  obtain ⟨rest, heq, hrest⟩ := splitOnP_eq blank cs
  have hempty : ∀ piece : List α, piece = [] ↔ ∀ c ∈ piece, False := by
    intro piece
    exact List.eq_nil_iff_forall_not_mem
  have hrest := hrest fun _ => False
  simp only [← hempty, or_false] at hrest
  simp only [words, heq, List.filter_eq_nil_iff, List.mem_cons, forall_eq_or_imp, Bool.not_eq_true',
    Bool.not_eq_false, List.isEmpty_iff, hrest]
  constructor
  · rintro ⟨htake, hdrop⟩ c hc
    rw [← List.takeWhile_append_dropWhile (p := fun c => !blank c) (l := cs), htake] at hc
    exact hdrop c hc
  · intro h
    refine ⟨?_, fun c hc => h c (List.dropWhile_subset _ hc)⟩
    exact List.takeWhile_eq_nil_iff.mpr fun hlt => by simp [h _ (List.getElem_mem hlt)]

theorem words_cons_blank {c : α} (h : blank c = true) (cs : List α) :
    words blank (c :: cs) = words blank cs := by
  simp [words, List.splitOnP_cons_eq_if_modifyHead, h]

theorem words_append_blank {before : List α} (h : ∀ c ∈ before, blank c = true) (cs : List α) :
    words blank (before ++ cs) = words blank cs := by
  induction before with
  | nil => rfl
  | cons c before ih =>
    rw [List.cons_append, words_cons_blank (h c List.mem_cons_self),
      ih fun d hd => h d (List.mem_cons_of_mem _ hd)]

/-- A word, a blank, and more. -/
theorem words_append_cons {front : List α} {sep : α} (hne : front ≠ [])
    (h : ∀ c ∈ front, blank c = false) (hsep : blank sep = true) (cs : List α) :
    words blank (front ++ sep :: cs) = front :: words blank cs := by
  rw [words, List.splitOnP_append_cons_of_forall_mem h sep hsep, List.filter_cons_of_pos, words]
  simpa using hne

/-- One word, and blanks after it. -/
theorem words_append_blanks {word after : List α} (hne : word ≠ [])
    (h : ∀ c ∈ word, blank c = false) (hafter : ∀ c ∈ after, blank c = true) :
    words blank (word ++ after) = [word] := by
  cases after with
  | nil =>
    rw [List.append_nil, words, List.splitOnP_eq_singleton h, List.filter_cons_of_pos,
      List.filter_nil]
    simpa using hne
  | cons sep after =>
    rw [words_append_cons hne h (hafter sep List.mem_cons_self),
      words_eq_nil.mpr fun c hc => hafter c (List.mem_cons_of_mem _ hc)]

theorem words_eq_singleton {cs word : List α} :
    words blank cs = [word] ↔ word ≠ [] ∧ (∀ c ∈ word, blank c = false) ∧ ∃ before after,
      cs = before ++ word ++ after ∧ (∀ c ∈ before, blank c = true) ∧
        ∀ c ∈ after, blank c = true := by
  constructor
  · intro h
    induction cs with
    | nil => cases h
    | cons c cs ih =>
      by_cases hc : blank c = true
      · rw [words_cons_blank hc] at h
        obtain ⟨hne, hword, before, after, rfl, hbefore, hafter⟩ := ih h
        refine ⟨hne, hword, c :: before, after, rfl, ?_, hafter⟩
        exact List.forall_mem_cons.mpr ⟨hc, hbefore⟩
      · have hc : blank c = false := by simpa using hc
        obtain ⟨rest, heq, -⟩ := splitOnP_eq blank (c :: cs)
        have hsplit := List.takeWhile_append_dropWhile (p := fun c => !blank c) (l := c :: cs)
        set first := (c :: cs).takeWhile fun c => !blank c with hfirst
        have hne : first ≠ [] := by simp [hfirst, hc]
        rw [words, heq, List.filter_cons_of_pos (by simpa using hne)] at h
        obtain ⟨rfl, hrest⟩ := List.cons.inj h
        have hword : ∀ d ∈ first, blank d = false := by
          intro d hd
          rw [hfirst] at hd
          simpa using List.mem_takeWhile_imp hd
        refine ⟨hne, hword, [], _, hsplit.symm, by simp, ?_⟩
        -- what follows the first word has no other
        cases hdrop : (c :: cs).dropWhile fun c => !blank c with
        | nil => simp
        | cons sep after =>
          have hsep : blank sep = true := by
            have hhead := List.head_dropWhile_not (fun c => !blank c) (l := c :: cs) (by simp [hdrop])
            simpa [hdrop] using hhead
          have hwords : words blank (first ++ sep :: after) = [first] := by
            rw [← hdrop, hsplit, words, heq, List.filter_cons_of_pos (by simpa using hne), hrest]
          rw [words_append_cons hne hword hsep] at hwords
          have hnone := words_eq_nil.mp (List.cons.inj hwords).2
          exact List.forall_mem_cons.mpr ⟨hsep, hnone⟩
  · rintro ⟨hne, hword, before, after, rfl, hbefore, hafter⟩
    rw [List.append_assoc, words_append_blank hbefore, words_append_blanks hne hword hafter]

/-! ## Commands -/

/-- **A line of two words**: the text after the first word and a blank is the second alone. -/
theorem commands_eq_pair_iff {front word text : List α} {sep : α} (hne : front ≠ [])
    (hfront : ∀ c ∈ front, blank c = false ∧ stop c = false) (hsep : blank sep = true)
    (hstop : ∀ c, blank c = true → stop c = false) :
    commands blank stop (front ++ sep :: text) = [[front, word]] ↔ Lone blank stop word text := by
  obtain ⟨rest, heq, hrest⟩ := splitOnP_eq stop text
  have hclear : ∀ c ∈ front ++ [sep], stop c = false := by
    intro c hc
    rcases List.mem_append.mp hc with hc | hc
    · exact (hfront c hc).2
    · rw [List.mem_singleton.mp hc]
      exact hstop sep hsep
  have hcut : (front ++ sep :: text).splitOnP stop =
      (front ++ sep :: text.takeWhile fun c => !stop c) :: rest := by
    rw [List.append_cons, splitOnP_append hclear, heq, List.modifyHead_cons, ← List.append_cons]
  have hhead : words blank (front ++ sep :: text.takeWhile fun c => !stop c) =
      front :: words blank (text.takeWhile fun c => !stop c) :=
    words_append_cons hne (fun c hc => (hfront c hc).1) hsep _
  have hread : commands blank stop (front ++ sep :: text) = [[front, word]] ↔
      words blank (text.takeWhile fun c => !stop c) = [word] ∧
        ∀ c ∈ text.dropWhile (fun c => !stop c), stop c = true ∨ blank c = true := by
    rw [commands, hcut, List.map_cons, hhead, List.filter_cons_of_pos rfl, List.cons.injEq,
      List.cons.injEq, List.filter_eq_nil_iff, ← hrest fun c => blank c = true]
    simp [words_eq_nil]
  rw [hread, words_eq_singleton]
  constructor
  · rintro ⟨⟨hword, hblank, before, after, htake, hbefore, hafter⟩, hdrop⟩
    refine ⟨hword, fun c hc => ⟨hblank c hc, ?_⟩, before,
      after ++ text.dropWhile (fun c => !stop c), ?_, hbefore, ?_⟩
    · have hmem : c ∈ text.takeWhile fun c => !stop c := by simp [htake, hc]
      simpa using List.mem_takeWhile_imp hmem
    · rw [← List.append_assoc, ← htake, List.takeWhile_append_dropWhile]
    · intro c hc
      rcases List.mem_append.mp hc with hc | hc
      · exact .inl (hafter c hc)
      · exact (hdrop c hc).symm
  · rintro ⟨hword, hplain, before, after, rfl, hbefore, hafter⟩
    have hclear : ∀ c ∈ before ++ word, (!stop c) = true := by
      intro c hc
      rcases List.mem_append.mp hc with hc | hc
      · simp [hstop c (hbefore c hc)]
      · simp [(hplain c hc).2]
    rw [List.takeWhile_append_of_pos hclear, List.dropWhile_append_of_pos hclear]
    refine ⟨⟨hword, fun c hc => (hplain c hc).1, before, _, rfl, hbefore, fun c hc => ?_⟩,
      fun c hc => (hafter c (List.dropWhile_subset _ hc)).symm⟩
    have hgo : stop c = false := by simpa using List.mem_takeWhile_imp hc
    exact (hafter c (List.takeWhile_subset _ hc)).resolve_right (by simp [hgo])

end Words
