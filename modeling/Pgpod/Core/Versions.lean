import Pgpod.Core.Upgrade
import Mathlib.Data.List.Basic
import Mathlib.Data.Prod.Lex
import Mathlib.Algebra.Group.Nat.Defs

/-!
# The order of major versions

`versionKey` packs the two numbers of a label into `major * 100 + minor`, so that
a downgrade is refused by comparing numbers.  The packing is an order embedding
as long as the number fits and no 9.x runs into the hundred of another major.
-/

namespace Pgpod

/-! ## Numerals -/

theorem digitsToNat_toDigits (n : Nat) : digitsToNat (Nat.toDigits 10 n) = n :=
  Nat.ofDigitChars_toDigits (by omega) (by omega)

theorem isDigit_of_mem_numeral {n : Nat} {c : Char} (h : c ∈ Nat.toDigits 10 n) :
    c.isDigit = true :=
  Nat.isDigit_of_mem_toDigits (by omega) (by omega) h

/-- A character that is no digit is not in a numeral. -/
theorem not_mem_numeral {n : Nat} {c : Char} (hc : c.isDigit = false) : c ∉ Nat.toDigits 10 n := by
  intro h
  rw [isDigit_of_mem_numeral h] at hc
  cases hc

theorem parseU32_toDigits {n : Nat} (h : n < 2 ^ 32) : parseU32 (Nat.toDigits 10 n) = some n := by
  have hne : Nat.toDigits 10 n ≠ [] := Nat.toDigits_ne_nil
  have hplus : ∀ rest, Nat.toDigits 10 n ≠ '+' :: rest := by
    intro rest heq
    have hmem : '+' ∈ Nat.toDigits 10 n := by rw [heq]; exact List.mem_cons_self
    exact not_mem_numeral (by decide) hmem
  have hall : (Nat.toDigits 10 n).all Char.isDigit = true :=
    List.all_eq_true.mpr fun c hc => isDigit_of_mem_numeral hc
  unfold parseU32
  split
  · rename_i rest heq
    exact absurd heq (hplus rest)
  · rw [if_neg (by simp [hne, hall]), digitsToNat_toDigits, if_pos h]

theorem parseU32_lt {cs : List Char} {n : Nat} (h : parseU32 cs = some n) : n < 2 ^ 32 := by
  unfold parseU32 at h
  simp only [Option.ite_none_left_eq_some, Option.ite_none_right_eq_some, Option.some.injEq] at h
  obtain ⟨-, hlt, rfl⟩ := h
  exact hlt

/-! ## Labels -/

/-- The two numbers of a label, the second 0 where there is only one. -/
def labelParts (label : String) : Nat × Nat :=
  let parts := label.toList.splitOn '.'
  ((parts.head?.bind parseU32).getD 0, (parts.tail.head?.bind parseU32).getD 0)

/-- A label is a 9.x in two parts, or one number from 10 on. -/
theorem majorLabel_cases {raw label : String} (h : majorLabel raw = some label) :
    (∃ minor, minor < 2 ^ 32 ∧ label = "9." ++ toString minor) ∨
      ∃ major, 9 < major ∧ major < 2 ^ 32 ∧ label = toString major := by
  unfold majorLabel at h
  obtain ⟨part, -, h⟩ := Option.bind_eq_some_iff.mp h
  obtain ⟨major, hmajor, h⟩ := Option.bind_eq_some_iff.mp h
  have hlt := parseU32_lt hmajor
  by_cases hlow : major < 9
  · rw [if_pos hlow] at h
    cases h
  rw [if_neg hlow] at h
  by_cases hnine : major = 9
  · rw [if_pos hnine] at h
    obtain ⟨part', -, h⟩ := Option.bind_eq_some_iff.mp h
    obtain ⟨minor, hminor, h⟩ := Option.bind_eq_some_iff.mp h
    exact .inl ⟨minor, parseU32_lt hminor, (Option.some.inj h).symm⟩
  · rw [if_neg hnine] at h
    exact .inr ⟨major, by omega, hlt, (Option.some.inj h).symm⟩

theorem splitOn_two_parts (minor : Nat) :
    ("9." ++ toString minor).toList.splitOn '.' = [['9'], Nat.toDigits 10 minor] := by
  have htail : (Nat.toDigits 10 minor).splitOn '.' = [Nat.toDigits 10 minor] :=
    List.splitOn_eq_singleton (not_mem_numeral (by decide))
  have hchars : ("9." ++ toString minor).toList = '9' :: '.' :: Nat.toDigits 10 minor := by
    simp
  rw [hchars, List.splitOn_cons_eq_if_modifyHead, List.splitOn_cons_eq_if_modifyHead, htail]
  rfl

theorem splitOn_one_part (major : Nat) :
    (toString major).toList.splitOn '.' = [Nat.toDigits 10 major] := by
  rw [Nat.toString_eq_ofList_toDigits, String.toList_ofList]
  exact List.splitOn_eq_singleton (not_mem_numeral (by decide))

theorem parseU32_nine : parseU32 ['9'] = some 9 := by decide

theorem labelParts_two_parts {minor : Nat} (h : minor < 2 ^ 32) :
    labelParts ("9." ++ toString minor) = (9, minor) := by
  simp only [labelParts, splitOn_two_parts, List.head?_cons, List.tail_cons, Option.bind_some,
    parseU32_nine, parseU32_toDigits h, Option.getD_some]

theorem labelParts_one_part {major : Nat} (h : major < 2 ^ 32) :
    labelParts (toString major) = (major, 0) := by
  simp only [labelParts, splitOn_one_part, List.head?_cons, List.tail_cons, List.head?_nil,
    Option.bind_some, Option.bind_none, parseU32_toDigits h, Option.getD_some, Option.getD_none]

/-- What the numbers of a label are, and that they determine it. -/
structure IsLabel (label : String) (v : Nat × Nat) : Prop where
  shape : v.1 = 9 ∨ 9 < v.1 ∧ v.2 = 0
  text : label = if v.1 = 9 then "9." ++ toString v.2 else toString v.1

theorem labelParts_isLabel {raw label : String} (h : majorLabel raw = some label) :
    IsLabel label (labelParts label) := by
  obtain ⟨minor, hminor, rfl⟩ | ⟨major, hnine, hmajor, rfl⟩ := majorLabel_cases h
  · rw [labelParts_two_parts hminor]
    exact ⟨.inl rfl, rfl⟩
  · rw [labelParts_one_part hmajor]
    exact ⟨.inr ⟨hnine, rfl⟩, by rw [if_neg (by omega : ¬ major = 9)]⟩

/-- The key packs the numbers of the label. -/
theorem versionKey_of_label {raw label : String} (h : majorLabel raw = some label) :
    versionKey raw = some (((labelParts label).1 * 100 + (labelParts label).2) % 2 ^ 32) := by
  unfold versionKey
  rw [h]
  simp only [Option.bind_eq_bind, Option.bind_some]
  obtain ⟨minor, hminor, rfl⟩ | ⟨major, -, hmajor, rfl⟩ := majorLabel_cases h
  · rw [labelParts_two_parts hminor, splitOn_two_parts]
    simp only [List.head?_cons, List.tail_cons, Option.bind_some, parseU32_nine,
      parseU32_toDigits hminor, Option.getD_some]
  · rw [labelParts_one_part hmajor, splitOn_one_part]
    simp only [List.head?_cons, List.tail_cons, List.head?_nil, Option.bind_some,
      Option.bind_none, parseU32_toDigits hmajor, Option.getD_none]

/-! ## The order -/

/-- The keys of two versions exist without overflow, and compare as the versions do. -/
structure KeysCompare (a b la lb : String) : Prop where
  left : versionKey a = some ((labelParts la).1 * 100 + (labelParts la).2)
  right : versionKey b = some ((labelParts lb).1 * 100 + (labelParts lb).2)
  lt_iff : ∀ k l, versionKey a = some k → versionKey b = some l →
    (k < l ↔ Prod.Lex (· < ·) (· < ·) (labelParts la) (labelParts lb))
  eq_iff : versionKey a = versionKey b ↔ la = lb

/-- The packed number is a `u32`. -/
def KeyFits (v : Nat × Nat) : Prop := v.1 * 100 + v.2 < 2 ^ 32

/-- A 9.x below a later major is so by less than the hundreds between them. -/
def Apart (v w : Nat × Nat) : Prop := v.1 = 9 → 9 < w.1 → v.2 < 100 * (w.1 - 9)

instance (v : Nat × Nat) : Decidable (KeyFits v) := by unfold KeyFits; infer_instance

instance (v w : Nat × Nat) : Decidable (Apart v w) := by unfold Apart; infer_instance

section

variable {a b la lb : String}

theorem lex_iff {v w : Nat × Nat} :
    Prod.Lex (· < ·) (· < ·) v w ↔ v.1 < w.1 ∨ v.1 = w.1 ∧ v.2 < w.2 := Prod.lex_def

/-- Packing keeps the order of versions that stand apart. -/
theorem packed_lt_iff {v w : Nat × Nat} (hv : v.1 = 9 ∨ 9 < v.1 ∧ v.2 = 0)
    (hw : w.1 = 9 ∨ 9 < w.1 ∧ w.2 = 0) (hvw : Apart v w) (hwv : Apart w v) :
    v.1 * 100 + v.2 < w.1 * 100 + w.2 ↔ Prod.Lex (· < ·) (· < ·) v w := by
  rw [lex_iff]
  simp only [Apart] at hvw hwv
  by_cases hv9 : v.1 = 9 <;> by_cases hw9 : w.1 = 9
  · omega
  · have := hvw hv9 (by omega)
    omega
  · have := hwv hw9 (by omega)
    omega
  · omega

/-- Versions whose packing is in order stand apart. -/
theorem apart_of_packed {v w : Nat × Nat} (hw : w.1 = 9 ∨ 9 < w.1 ∧ w.2 = 0)
    (h : v.1 < w.1 → v.1 * 100 + v.2 < w.1 * 100 + w.2) : Apart v w := by
  intro hv hlt
  have := h (by omega)
  omega

theorem label_eq_iff {v w : Nat × Nat} (ha : IsLabel la v) (hb : IsLabel lb w) :
    la = lb ↔ v = w := by
  refine ⟨fun h => ?_, fun h => ?_⟩
  · have htext : (if v.1 = 9 then "9." ++ toString v.2 else toString v.1) =
        if w.1 = 9 then "9." ++ toString w.2 else toString w.1 := by rw [← ha.text, ← hb.text, h]
    have hparts : ∀ m n : Nat, "9." ++ toString m ≠ toString n := by
      intro m n heq
      have hsplit := congrArg (fun s : String => (s.toList.splitOn '.').length) heq
      simp only [splitOn_two_parts, splitOn_one_part, List.length_cons] at hsplit
      omega
    by_cases hv : v.1 = 9 <;> by_cases hw : w.1 = 9
    · rw [if_pos hv, if_pos hw] at htext
      have hminor : toString v.2 = toString w.2 := by
        have htail := congrArg String.toList htext
        rw [String.toList_append, String.toList_append] at htail
        exact String.toList_inj.mp (List.append_cancel_left htail)
      exact Prod.ext (hv.trans hw.symm) (Text.toString_inj hminor)
    · rw [if_pos hv, if_neg hw] at htext
      exact absurd htext (hparts _ _)
    · rw [if_neg hv, if_pos hw] at htext
      exact absurd htext.symm (hparts _ _)
    · rw [if_neg hv, if_neg hw] at htext
      obtain ⟨-, hv2⟩ := ha.shape.resolve_left hv
      obtain ⟨-, hw2⟩ := hb.shape.resolve_left hw
      exact Prod.ext (Text.toString_inj htext) (hv2.trans hw2.symm)
  · rw [ha.text, hb.text, h]

/-- **When the keys of two versions compare as the versions do.** -/
theorem versionKeys_compare (a b la lb : String) (ha : majorLabel a = some la)
    (hb : majorLabel b = some lb) :
    KeysCompare a b la lb ↔ KeyFits (labelParts la) ∧ KeyFits (labelParts lb) ∧
      Apart (labelParts la) (labelParts lb) ∧ Apart (labelParts lb) (labelParts la) := by
  have hla := labelParts_isLabel ha
  have hlb := labelParts_isLabel hb
  have hka := versionKey_of_label ha
  have hkb := versionKey_of_label hb
  have hmod : ∀ n : Nat, n % 2 ^ 32 < 2 ^ 32 := fun n => Nat.mod_lt _ (by omega)
  constructor
  · intro h
    have hfa : KeyFits (labelParts la) := by
      have heq := Option.some.inj (hka.symm.trans h.left)
      rw [KeyFits, ← heq]
      exact hmod _
    have hfb : KeyFits (labelParts lb) := by
      have heq := Option.some.inj (hkb.symm.trans h.right)
      rw [KeyFits, ← heq]
      exact hmod _
    have hlt := h.lt_iff _ _ h.left h.right
    rw [lex_iff] at hlt
    refine ⟨hfa, hfb, apart_of_packed hlb.shape fun hmajor => hlt.mpr (.inl hmajor),
      apart_of_packed hla.shape fun hmajor => ?_⟩
    -- the older is not behind, and equal keys would make the labels equal
    have hle : ¬ (labelParts la).1 * 100 + (labelParts la).2 <
        (labelParts lb).1 * 100 + (labelParts lb).2 := by
      intro hkeys
      have := hlt.mp hkeys
      omega
    have hne : (labelParts la).1 * 100 + (labelParts la).2 ≠
        (labelParts lb).1 * 100 + (labelParts lb).2 := by
      intro hkeys
      have hsame := (label_eq_iff hla hlb).mp
        (h.eq_iff.mp (by rw [h.left, h.right, hkeys]))
      rw [hsame] at hmajor
      omega
    omega
  · rintro ⟨hfa, hfb, hab, hba⟩
    have hleft : versionKey a = some ((labelParts la).1 * 100 + (labelParts la).2) := by
      rw [hka, Nat.mod_eq_of_lt hfa]
    have hright : versionKey b = some ((labelParts lb).1 * 100 + (labelParts lb).2) := by
      rw [hkb, Nat.mod_eq_of_lt hfb]
    have hlt := packed_lt_iff hla.shape hlb.shape hab hba
    have hgt := packed_lt_iff hlb.shape hla.shape hba hab
    refine ⟨hleft, hright, fun k l hk hl => ?_, ?_⟩
    · rw [hleft] at hk
      rw [hright] at hl
      rw [← Option.some.inj hk, ← Option.some.inj hl]
      exact hlt
    · rw [label_eq_iff hla hlb, hleft, hright, Option.some.injEq]
      refine ⟨fun hkeys => ?_, fun hsame => by rw [hsame]⟩
      -- neither is before the other
      have hnlt : ¬ Prod.Lex (· < ·) (· < ·) (labelParts la) (labelParts lb) := by
        rw [← hlt]
        omega
      have hngt : ¬ Prod.Lex (· < ·) (· < ·) (labelParts lb) (labelParts la) := by
        rw [← hgt]
        omega
      rw [lex_iff] at hnlt hngt
      exact Prod.ext (by omega) (by omega)

end

theorem versionKeys_compare_96_18 : majorLabel "9.6" = some "9.6" ∧ majorLabel "18" = some "18" ∧
    KeysCompare "9.6" "18" "9.6" "18" :=
  have hold : majorLabel "9.6" = some "9.6" := by decide +kernel
  have hnew : majorLabel "18" = some "18" := by decide +kernel
  ⟨hold, hnew, (versionKeys_compare "9.6" "18" "9.6" "18" hold hnew).mpr (by decide +kernel)⟩

/-- 9.100 has the key of 10, and a major of 42949673 has one that wraps to 4. -/
theorem versionKeys_collide : majorLabel "9.100" = some "9.100" ∧ majorLabel "10" = some "10" ∧
    versionKey "9.100" = versionKey "10" ∧ versionKey "42949673" = some 4 ∧
    ¬ KeysCompare "9.100" "10" "9.100" "10" := by
  refine ⟨by decide +kernel, by decide +kernel, by decide +kernel, by decide +kernel, fun h => ?_⟩
  have hsame : "9.100" = "10" := h.eq_iff.mp (by decide +kernel)
  exact absurd hsame (by decide)

end Pgpod
