import Pgpod.Core.Text
import Mathlib.Algebra.GroupWithZero.Nat

/-!
# How PostgreSQL reads a configuration file

A line holds one setting: a name, an optional `=`, and a value.  A quoted value
runs to its closing quote; a doubled quote and a backslash escape stand for the
characters they encode.  A line that is neither blank, nor a comment, nor a
setting makes the whole file unreadable.
-/

namespace Pgpod

namespace ConfFile

/-! ## Quoted values -/

/-- Where the reader stands in a quoted value. -/
inductive Quote
  | plain
  /-- After a quote: a second one belongs to the value, anything else follows the value. -/
  | quoteSeen
  | escape
  /-- In an octal escape that may go on for `more` digits. -/
  | octal (code more : Nat)
deriving DecidableEq, Repr

def octalDigit (c : Char) : Option Nat :=
  if '0' ≤ c ∧ c ≤ '7' then some (c.toNat - '0'.toNat) else none

/-- What a backslash and this character stand for. -/
def unescape (c : Char) : Char :=
  if c = 'b' then Char.ofNat 8
  else if c = 'f' then Char.ofNat 12
  else if c = 'n' then '\n'
  else if c = 'r' then '\r'
  else if c = 't' then '\t'
  else c

namespace Quote

/-- A character that no escape claims: what it adds to the value, and the next state. -/
def plainStep (c : Char) : List Char × Quote :=
  if c = '\'' then ([], quoteSeen) else if c = '\\' then ([], escape) else ([c], plain)

/-- The characters read from `c` on and the next state; nothing when the value ended before `c`. -/
def step : Quote → Char → Option (List Char × Quote)
  | plain, c => some (plainStep c)
  | quoteSeen, c => if c = '\'' then some (['\''], plain) else none
  | escape, c =>
    match octalDigit c with
    | some d => some ([], octal d 2)
    | none => some ([unescape c], plain)
  | octal code more, c =>
    match octalDigit c, more with
    | some d, k + 1 => some ([], octal (8 * code + d) k)
    | _, _ => some (Char.ofNat (code % 256) :: (plainStep c).1, (plainStep c).2)

/-- Read to the end of the value: the value, and what follows its closing quote. -/
def scan : Quote → List Char → Option (List Char × List Char)
  | quoteSeen, [] => some ([], [])
  | plain, [] => none
  | escape, [] => none
  | octal _ _, [] => none
  | q, c :: cs =>
    match q.step c with
    | none => some ([], c :: cs)
    | some (read, q') => (scan q' cs).map fun (value, rest) => (read ++ value, rest)

end Quote

/-! ## Lines and files -/

def isBlank (c : Char) : Bool := c == ' ' || c == '\t' || c == '\r'

def skipBlanks (cs : List Char) : List Char := cs.dropWhile isBlank

/-- Only blanks or a comment are left on the line. -/
def lineEnds (cs : List Char) : Bool := (skipBlanks cs).head?.all (· == '#')

def nameStart (c : Char) : Bool := c.isAlpha || c == '_' || decide (128 ≤ c.toNat)

def nameChar (c : Char) : Bool := nameStart c || c.isDigit || c == '.'

def unquotedChar (c : Char) : Bool := nameChar c || c == '-' || c == '+' || c == ':' || c == '/'

def skipEquals : List Char → List Char
  | '=' :: cs => skipBlanks cs
  | cs => cs

/-- The value at the start of `cs`, and what follows it. -/
def readValue : List Char → Option (List Char × List Char)
  | '\'' :: cs => Quote.plain.scan cs
  | cs =>
    let word := cs.takeWhile unquotedChar
    if word.isEmpty then none else some (word, cs.dropWhile unquotedChar)

/-- A setting, from the start of its name. -/
def readSetting (cs : List Char) : Option (String × String) :=
  let name := cs.takeWhile nameChar
  match readValue (skipEquals (skipBlanks (cs.dropWhile nameChar))) with
  | none => none
  | some (value, rest) =>
    if lineEnds rest then some (String.ofList name, String.ofList value) else none

/-- The settings of a line, none or one. -/
def readLine (line : List Char) : Option (List (String × String)) :=
  match skipBlanks line with
  | [] => some []
  | c :: cs =>
    if c = '#' then some []
    else if nameStart c then (readSetting (c :: cs)).map ([·])
    else none

def readLines : List (List Char) → Option (List (String × String))
  | [] => some []
  | line :: lines =>
    match readLine line, readLines lines with
    | some found, some more => some (found ++ more)
    | _, _ => none

/-- The settings of a file, in the order they stand; nothing when it cannot be read. -/
def readConf (text : String) : Option (List (String × String)) :=
  readLines (text.toList.splitOn '\n')

/-- The settings that are instructions to read other files. -/
def INCLUDE_DIRECTIVES : List String := ["include", "include_if_exists", "include_dir"]

def isInclude (name : String) : Bool := INCLUDE_DIRECTIVES.contains (Text.toAsciiLowercase name)

theorem readLines_append (ls ms : List (List Char)) :
    readLines (ls ++ ms) =
      match readLines ls, readLines ms with
      | some found, some more => some (found ++ more)
      | _, _ => none := by
  induction ls with
  | nil => cases h : readLines ms <;> simp [readLines, h]
  | cons l ls ih =>
    rw [List.cons_append, readLines, ih, readLines]
    cases readLine l <;> cases readLines ls <;> cases readLines ms <;> simp

/-! ## Doubling the quotes of a value -/

/-- A value with every quote doubled. -/
def doubled (value : List Char) : List Char :=
  value.flatMap fun c => if c = '\'' then ['\'', '\''] else [c]

@[simp] theorem doubled_nil : doubled [] = [] := rfl

theorem doubled_cons_quote (cs : List Char) : doubled ('\'' :: cs) = '\'' :: '\'' :: doubled cs := rfl

theorem doubled_cons {c : Char} (h : c ≠ '\'') (cs : List Char) :
    doubled (c :: cs) = c :: doubled cs := by
  simp [doubled, h]

theorem doubled_append (xs ys : List Char) : doubled (xs ++ ys) = doubled xs ++ doubled ys := by
  simp [doubled]

theorem mem_doubled {c : Char} {cs : List Char} : c ∈ doubled cs ↔ c ∈ cs := by
  induction cs with
  | nil => rfl
  | cons d cs ih =>
    by_cases h : d = '\''
    · subst h; simp [doubled_cons_quote, ih]
    · simp [doubled_cons h, ih]

namespace Quote

/-- A value without a backslash is read back from its doubled form. -/
theorem scan_doubled {value : List Char} (h : '\\' ∉ value) :
    plain.scan (doubled value ++ ['\'']) = some (value, []) := by
  induction value with
  | nil => rfl
  | cons c cs ih =>
    obtain ⟨hc, hcs⟩ : c ≠ '\\' ∧ '\\' ∉ cs := by
      simp only [List.mem_cons, not_or] at h
      exact ⟨fun hc => h.1 hc.symm, h.2⟩
    by_cases hq : c = '\''
    · subst hq
      rw [doubled_cons_quote]
      simp [scan, step, plainStep, ih hcs]
    · rw [doubled_cons hq]
      simp [scan, step, plainStep, hq, hc, ih hcs]

/-! ### How much of its text a value can be

A quote weighs half of what any other character does, since a value's own quotes stand twice
in its text.  What the reader has taken in and not given out yet is its carry. -/

def weight (cs : List Char) : Nat := (cs.map fun c => if c = '\'' then 1 else 2).sum

def carry : Quote → Nat
  | plain => 0
  | quoteSeen => 1
  | escape => 1
  | octal _ _ => 2

@[simp] theorem weight_nil : weight [] = 0 := rfl

theorem weight_cons (c : Char) (cs : List Char) :
    weight (c :: cs) = (if c = '\'' then 1 else 2) + weight cs := by
  simp [weight]

theorem weight_append (xs ys : List Char) : weight (xs ++ ys) = weight xs + weight ys := by
  simp [weight]

theorem weight_doubled (cs : List Char) : weight (doubled cs) = 2 * cs.length := by
  induction cs with
  | nil => rfl
  | cons c cs ih =>
    by_cases h : c = '\''
    · subst h
      rw [doubled_cons_quote, weight_cons, weight_cons, ih, List.length_cons]
      simp only [if_true]
      omega
    · rw [doubled_cons h, weight_cons, ih, if_neg h, List.length_cons]
      omega

theorem plainStep_carry (c : Char) :
    2 * (plainStep c).1.length + (plainStep c).2.carry + (if c = '\\' then 1 else 0) ≤
      if c = '\'' then 1 else 2 := by
  unfold plainStep
  by_cases hq : c = '\''
  · subst hq; decide
  · by_cases hb : c = '\\'
    · subst hb; decide
    · simp [hq, hb, carry]

/-- One character gives out no more than it weighs and was carried, and a backslash less. -/
theorem step_carry {q q' : Quote} {c : Char} {read : List Char} (h : q.step c = some (read, q')) :
    2 * read.length + q'.carry + (if c = '\\' then 1 else 0) ≤
      q.carry + if c = '\'' then 1 else 2 := by
  have hplain := plainStep_carry c
  cases q with
  | plain =>
    simp only [step, Option.some.injEq] at h
    rw [h] at hplain
    simpa only [carry, Nat.zero_add] using hplain
  | quoteSeen =>
    simp only [step] at h
    split at h
    · next hq =>
      cases h
      subst hq
      decide
    · cases h
  | escape =>
    have hweight : 1 ≤ if c = '\'' then 1 else 2 := by split <;> omega
    have hslack : (if c = '\\' then 1 else 0) + 1 ≤ if c = '\'' then 1 else 2 := by
      by_cases hb : c = '\\'
      · subst hb; decide
      · simpa only [if_neg hb, Nat.zero_add] using hweight
    simp only [step] at h
    split at h <;> cases h <;> simp only [carry, List.length_nil, List.length_singleton] <;> omega
  | octal code more =>
    simp only [step] at h
    split at h
    · next hdigit =>
      cases h
      have hb : c ≠ '\\' := by
        rintro rfl
        have hnone : octalDigit '\\' = none := by decide
        rw [hnone] at hdigit
        cases hdigit
      simp [carry, hb]
    · cases h
      change 2 * ((plainStep c).1.length + 1) + (plainStep c).2.carry + _ ≤ 2 + _
      omega

theorem scan_cons {q : Quote} {c : Char} {cs value rest : List Char}
    (h : q.scan (c :: cs) = some (value, rest)) :
    (q.step c = none ∧ value = []) ∨
      ∃ read q' more, q.step c = some (read, q') ∧ q'.scan cs = some (more, rest) ∧
        value = read ++ more := by
  have hscan : q.scan (c :: cs) = match q.step c with
      | none => some ([], c :: cs)
      | some (read, q') => (q'.scan cs).map fun (value, rest) => (read ++ value, rest) := by
    cases q <;> rfl
  rw [hscan] at h
  cases hstep : q.step c with
  | none =>
    simp only [hstep, Option.some.injEq, Prod.mk.injEq] at h
    exact .inl ⟨rfl, h.1.symm⟩
  | some out =>
    obtain ⟨read, q'⟩ := out
    simp only [hstep, Option.map_eq_some_iff] at h
    obtain ⟨⟨more, rest'⟩, hmore, heq⟩ := h
    cases heq
    exact .inr ⟨read, q', more, rfl, hmore, rfl⟩

/-- A value is no longer than its text, and shorter when the text has a backslash. -/
theorem scan_length {q : Quote} {cs value rest : List Char} (h : q.scan cs = some (value, rest)) :
    2 * value.length + 1 + (if '\\' ∈ cs then 1 else 0) ≤ q.carry + weight cs := by
  induction cs generalizing q value rest with
  | nil =>
    cases q with
    | quoteSeen => cases h; decide
    | plain => cases h
    | escape => cases h
    | octal code more => cases h
  | cons c cs ih =>
    rw [weight_cons]
    rcases scan_cons h with ⟨hstep, rfl⟩ | ⟨read, q', more, hstep, hmore, rfl⟩
    · -- only a closed value ends before `c`, and then `c` is left over
      have hclosed : q = quoteSeen ∧ c ≠ '\'' := by
        cases q with
        | quoteSeen =>
          refine ⟨rfl, ?_⟩
          rintro rfl
          cases hstep
        | plain => cases hstep
        | escape => simp only [step] at hstep; split at hstep <;> cases hstep
        | octal code more => simp only [step] at hstep; split at hstep <;> cases hstep
      obtain ⟨rfl, hc⟩ := hclosed
      rw [if_neg hc]
      simp only [List.length_nil, carry]
      split <;> omega
    · have hrest := ih hmore
      have hone := step_carry hstep
      rw [List.length_append]
      by_cases hb : c = '\\'
      · rw [if_pos hb] at hone
        rw [if_pos (by simp [hb])]
        omega
      · have hmem : '\\' ∈ c :: cs ↔ '\\' ∈ cs := by simp [Ne.symm hb]
        simp only [hmem]
        omega

end Quote

end ConfFile

end Pgpod
