import Pgpod.Core.Pooler
import Pgpod.Core.Versions

/-!
# Durations that carry their unit

pg_doorman reads a bare number as milliseconds, so a manifest never writes one:
a duration is digits and a unit, and what does not fit a `u64` of milliseconds is
refused.
-/

namespace Pgpod

structure ParseDurationError where
  input : String
deriving DecidableEq, Repr

def ParseDurationError.toString (e : ParseDurationError) : String :=
  Text.debug e.input ++ " is not a duration: expected a number followed by ms, s, m, h or d " ++
    "(e.g. \"60s\"). A bare number would be read as milliseconds."

/-- A run of digits as a `u64`. -/
def parseU64 (digits : List Char) : Option Nat :=
  if digits.isEmpty || !digits.all Char.isDigit then none
  else if digitsToNat digits < 2 ^ 64 then some (digitsToNat digits) else none

def checkedMul (a b : Nat) : Option Nat := if a * b < 2 ^ 64 then some (a * b) else none

/-- Without blanks at its ends, a text is trimmed to itself. -/
theorem trimChars_eq_self {cs : List Char} (hhead : ∀ c, cs.head? = some c → Text.isWhitespace c = false)
    (hlast : ∀ c, cs.getLast? = some c → Text.isWhitespace c = false) : Text.trimChars cs = cs := by
  have hfront : ∀ {ds : List Char}, (∀ c, ds.head? = some c → Text.isWhitespace c = false) →
      ds.dropWhile Text.isWhitespace = ds := by
    intro ds hds
    cases ds with
    | nil => rfl
    | cons c rest => rw [List.dropWhile_cons_of_neg (by simpa using hds c rfl)]
  have hback : ∀ c, cs.reverse.head? = some c → Text.isWhitespace c = false := by
    intro c hc
    rw [List.head?_reverse] at hc
    exact hlast c hc
  rw [Text.trimChars, hfront hhead, hfront hback, List.reverse_reverse]

theorem isWhitespace_digit {c : Char} (h : c.isDigit = true) : Text.isWhitespace c = false := by
  simp only [Char.isDigit, Bool.and_eq_true, decide_eq_true_eq, UInt32.le_iff_toNat_le] at h
  have hlow : 48 ≤ c.toNat := h.1
  have hhigh : c.toNat ≤ 57 := h.2
  have hne : ∀ n : Nat, 57 < n → (c.toNat == n) = false := by
    intro n hn
    simp only [beq_eq_false_iff_ne]
    omega
  simp only [Text.isWhitespace, Bool.or_eq_false_iff, Bool.and_eq_false_imp, decide_eq_true_eq,
    decide_eq_false_iff_not, beq_eq_false_iff_ne]
  omega

namespace HumanDuration

/-- A number of `unit` in milliseconds, unless that overflows. -/
def inMillis (value : Nat) : List Char → Option Nat
  | ['m', 's'] => some value
  | ['s'] => checkedMul 1000 value
  | ['m'] => checkedMul 60000 value
  | ['h'] => checkedMul 3600000 value
  | ['d'] => checkedMul 86400000 value
  | _ => none

/-- Read a duration: what is before the first character that is no digit, and the unit. -/
def fromStr (s : String) : Except ParseDurationError HumanDuration :=
  let raw := Text.trimChars s.toList
  let value := raw.takeWhile Char.isDigit
  let unit := raw.dropWhile Char.isDigit
  -- an empty text, a bare number, and a unit alone
  if raw.isEmpty || unit.isEmpty || value.isEmpty then .error ⟨s⟩
  else
    match parseU64 value with
    | none => .error ⟨s⟩
    | some value =>
      match inMillis value unit with
      | none => .error ⟨s⟩
      | some millis => .ok ⟨UInt64.ofNat millis⟩

/-! ## The grammar -/

/-- What each unit is in milliseconds. -/
inductive IsUnit : List Char → Nat → Prop
  | millis : IsUnit ['m', 's'] 1
  | seconds : IsUnit ['s'] 1000
  | minutes : IsUnit ['m'] 60000
  | hours : IsUnit ['h'] 3600000
  | days : IsUnit ['d'] 86400000

/-- The text, trimmed, is digits and a unit, and the milliseconds they name fit a `u64`. -/
structure Written (s : String) (d : HumanDuration) (digits unit : List Char) (scale : Nat) :
    Prop where
  text : Text.trimChars s.toList = digits ++ unit
  nonempty : digits ≠ []
  numeral : ∀ c ∈ digits, c.isDigit = true
  unit : IsUnit unit scale
  fits : scale * digitsToNat digits < 2 ^ 64
  value : d.millis.toNat = scale * digitsToNat digits

theorem IsUnit.head {unit : List Char} {scale : Nat} (h : IsUnit unit scale) :
    ∃ c rest, unit = c :: rest ∧ c.isDigit = false := by
  cases h <;> exact ⟨_, _, rfl, rfl⟩

theorem IsUnit.pos {unit : List Char} {scale : Nat} (h : IsUnit unit scale) : 0 < scale := by
  cases h <;> omega

theorem IsUnit.last {unit : List Char} {scale : Nat} (h : IsUnit unit scale) (front : List Char) :
    ∃ c, (front ++ unit).getLast? = some c ∧ Text.isWhitespace c = false := by
  cases h <;> exact ⟨_, by rw [List.getLast?_append]; rfl, rfl⟩

theorem parseU64_eq_some {digits : List Char} {n : Nat} :
    parseU64 digits = some n ↔ digits ≠ [] ∧ (∀ c ∈ digits, c.isDigit = true) ∧
      digitsToNat digits = n ∧ n < 2 ^ 64 := by
  unfold parseU64
  simp only [Option.ite_none_left_eq_some, Option.ite_none_right_eq_some, Option.some.injEq,
    Bool.or_eq_true, List.isEmpty_iff, Bool.not_eq_true', not_or, Bool.not_eq_false,
    List.all_eq_true]
  constructor
  · rintro ⟨⟨hne, hall⟩, hlt, rfl⟩
    exact ⟨hne, hall, rfl, hlt⟩
  · rintro ⟨hne, hall, rfl, hlt⟩
    exact ⟨⟨hne, hall⟩, hlt, rfl⟩

theorem checkedMul_eq_some {a b n : Nat} : checkedMul a b = some n ↔ a * b < 2 ^ 64 ∧ a * b = n := by
  rw [checkedMul, Option.ite_none_right_eq_some, Option.some.injEq]

/-- The text of digits and a unit splits at the unit. -/
theorem span_written {digits unit : List Char} {scale : Nat} (hunit : IsUnit unit scale)
    (hdigits : ∀ c ∈ digits, c.isDigit = true) :
    (digits ++ unit).takeWhile Char.isDigit = digits ∧
      (digits ++ unit).dropWhile Char.isDigit = unit := by
  obtain ⟨c, rest, rfl, hc⟩ := hunit.head
  constructor
  · rw [List.takeWhile_append_of_pos hdigits, List.takeWhile_cons_of_neg (by simp [hc]),
      List.append_nil]
  · rw [List.dropWhile_append_of_pos hdigits, List.dropWhile_cons_of_neg (by simp [hc])]

theorem inMillis_eq_some {value n : Nat} {unit : List Char} (hvalue : value < 2 ^ 64) :
    inMillis value unit = some n ↔
      ∃ scale, IsUnit unit scale ∧ scale * value < 2 ^ 64 ∧ scale * value = n := by
  constructor
  · intro h
    unfold inMillis at h
    split at h
    · exact ⟨1, .millis, by omega, by rw [Nat.one_mul]; exact Option.some.inj h⟩
    · exact ⟨1000, .seconds, checkedMul_eq_some.mp h⟩
    · exact ⟨60000, .minutes, checkedMul_eq_some.mp h⟩
    · exact ⟨3600000, .hours, checkedMul_eq_some.mp h⟩
    · exact ⟨86400000, .days, checkedMul_eq_some.mp h⟩
    · cases h
  · rintro ⟨scale, hunit, hfits, rfl⟩
    cases hunit with
    | millis => rw [inMillis, Nat.one_mul]
    | seconds | minutes | hours | days =>
      rw [inMillis, checkedMul_eq_some]
      exact ⟨hfits, rfl⟩

/-- **What is read**: exactly the texts of the grammar, with the value they name. -/
theorem fromStr_eq_ok_iff (s : String) (d : HumanDuration) :
    fromStr s = .ok d ↔ ∃ digits unit scale, Written s d digits unit scale := by
  constructor
  · intro h
    simp only [fromStr] at h
    split at h
    · cases h
    split at h
    · cases h
    rename_i value hvalue
    obtain ⟨hne, hdigits, hnum, hlt⟩ := parseU64_eq_some.mp hvalue
    split at h
    · cases h
    rename_i millis hmillis
    obtain ⟨scale, hunit, hfits, hscaled⟩ := (inMillis_eq_some hlt).mp hmillis
    rw [← hnum] at hfits hscaled
    refine ⟨_, _, scale, List.takeWhile_append_dropWhile.symm, hne, hdigits, hunit, hfits, ?_⟩
    rw [← Except.ok.inj h, hscaled]
    exact Nat.mod_eq_of_lt (hscaled ▸ hfits)
  · rintro ⟨digits, unit, scale, h⟩
    obtain ⟨htake, hdrop⟩ := span_written h.unit h.numeral
    have hempty : ((Text.trimChars s.toList).isEmpty || unit.isEmpty || digits.isEmpty) = false := by
      obtain ⟨c, rest, rfl, -⟩ := h.unit.head
      simp [h.text, h.nonempty]
    have hpos := h.unit.pos
    have hlt : digitsToNat digits < 2 ^ 64 :=
      Nat.lt_of_le_of_lt (Nat.le_mul_of_pos_left _ hpos) h.fits
    have hvalue : parseU64 digits = some (digitsToNat digits) :=
      parseU64_eq_some.mpr ⟨h.nonempty, h.numeral, rfl, hlt⟩
    have hmillis := (inMillis_eq_some hlt).mpr ⟨scale, h.unit, h.fits, rfl⟩
    simp only [fromStr, h.text, htake, hdrop] at hempty ⊢
    rw [hempty, hvalue]
    simp only [Bool.false_eq_true, if_false, hmillis]
    have hround : UInt64.ofNat (scale * digitsToNat digits) = d.millis := by
      rw [← h.value, UInt64.ofNat_toNat]
    rw [hround]

/-! ## Rendering -/

/-- A number and a unit are written as they are read. -/
theorem written_numeral {d : HumanDuration} {n scale : Nat} {unit : List Char}
    (hunit : IsUnit unit scale) (hvalue : d.millis.toNat = scale * n) :
    Written (toString n ++ String.ofList unit) d (Nat.toDigits 10 n) unit scale := by
  have hchars : (toString n ++ String.ofList unit).toList = Nat.toDigits 10 n ++ unit := by
    simp
  refine ⟨?_, Nat.toDigits_ne_nil, fun c hc => isDigit_of_mem_numeral hc, hunit, ?_, ?_⟩
  · rw [hchars]
    refine trimChars_eq_self (fun c hc => ?_) fun c hc => ?_
    · cases hdigits : Nat.toDigits 10 n with
      | nil => exact absurd hdigits Nat.toDigits_ne_nil
      | cons c' rest =>
        rw [hdigits] at hc
        obtain rfl : c' = c := Option.some.inj hc
        exact isWhitespace_digit (isDigit_of_mem_numeral (n := n) (by rw [hdigits]; simp))
    · obtain ⟨c', hlast, hblank⟩ := hunit.last (Nat.toDigits 10 n)
      rw [hlast] at hc
      exact Option.some.inj hc ▸ hblank
  · rw [digitsToNat_toDigits, ← hvalue]
    exact d.millis.toNat_lt
  · rw [digitsToNat_toDigits, hvalue]

/-- The largest unit that divides a duration, and never days. -/
theorem render_written (d : HumanDuration) : ∃ digits unit scale,
    Written d.render d digits unit scale ∧ d.render.toList = digits ++ unit ∧
      unit ∈ [['m', 's'], ['s'], ['m'], ['h']] := by
  have hnum : ∀ {n scale : Nat} {unit : List Char}, IsUnit unit scale →
      d.millis.toNat = scale * n → d.render = toString n ++ String.ofList unit →
      unit ∈ [['m', 's'], ['s'], ['m'], ['h']] → ∃ digits unit scale,
        Written d.render d digits unit scale ∧ d.render.toList = digits ++ unit ∧
          unit ∈ [['m', 's'], ['s'], ['m'], ['h']] := by
    intro n scale unit hunit hvalue hrender hmem
    rw [hrender]
    refine ⟨_, unit, scale, written_numeral hunit hvalue, ?_, hmem⟩
    simp
  by_cases hzero : d.millis.toNat = 0
  · exact hnum (n := 0) .millis (by omega) (by simp only [render, hzero]; rfl) (by simp)
  by_cases hhours : d.millis.toNat % 3600000 = 0
  · exact hnum (n := d.millis.toNat / 3600000) .hours (by omega) (by simp [render, hzero, hhours]) (by simp)
  by_cases hminutes : d.millis.toNat % 60000 = 0
  · exact hnum (n := d.millis.toNat / 60000) .minutes (by omega)
      (by simp [render, hzero, hhours, hminutes]) (by simp)
  by_cases hsecs : d.millis.toNat % 1000 = 0
  · exact hnum (n := d.millis.toNat / 1000) .seconds (by omega)
      (by simp [render, hzero, hhours, hminutes, hsecs]) (by simp)
  · exact hnum (n := d.millis.toNat) .millis (by omega)
      (by simp [render, hzero, hhours, hminutes, hsecs]) (by simp)

/-- **Durations round-trip, and what is read is exactly the grammar.** -/
theorem durations_exact :
    (∀ d : HumanDuration, fromStr d.render = .ok d ∧ ∃ digits unit, d.render.toList = digits ++ unit ∧
      digits ≠ [] ∧ (∀ c ∈ digits, c.isDigit = true) ∧
        unit ∈ [['m', 's'], ['s'], ['m'], ['h']]) ∧
    ∀ s d, fromStr s = .ok d ↔ ∃ digits unit scale, Written s d digits unit scale := by
  refine ⟨fun d => ?_, fromStr_eq_ok_iff⟩
  obtain ⟨digits, unit, scale, hwritten, htext, hmem⟩ := d.render_written
  exact ⟨(fromStr_eq_ok_iff _ _).mpr ⟨digits, unit, scale, hwritten⟩, digits, unit, htext,
    hwritten.nonempty, hwritten.numeral, hmem⟩

example : fromStr " 2d\n" = .ok ⟨172800000⟩ := by decide +kernel

end HumanDuration

end Pgpod
