import Mathlib.Data.List.Infix

/-!
# The text operations of the source's standard library

Strings are compared and concatenated as Lean strings.  Trimming, case folding
and searching are stated over their characters, so that they evaluate in the
kernel.  `StringMap` is the ordered map that a manifest's free-form tables
deserialize into: its keys are strictly increasing by construction.
-/

namespace Pgpod

namespace Text

/-- The characters with the Unicode property `White_Space`, which is what the source trims. -/
def isWhitespace (c : Char) : Bool :=
  let n := c.toNat
  (0x09 ≤ n && n ≤ 0x0d) || n == 0x20 || n == 0x85 || n == 0xa0 || n == 0x1680 ||
    (0x2000 ≤ n && n ≤ 0x200a) || n == 0x2028 || n == 0x2029 || n == 0x202f || n == 0x205f ||
    n == 0x3000

def trimChars (cs : List Char) : List Char :=
  ((cs.dropWhile isWhitespace).reverse.dropWhile isWhitespace).reverse

/-- Blanks after a word are trimmed. -/
theorem trimChars_append {word blanks : List Char} (hne : word ≠ [])
    (hword : ∀ c ∈ word, isWhitespace c = false) (hblanks : ∀ c ∈ blanks, isWhitespace c = true) :
    trimChars (word ++ blanks) = word := by
  have hfront : (word ++ blanks).dropWhile isWhitespace = word ++ blanks := by
    cases word with
    | nil => exact absurd rfl hne
    | cons c cs => rw [List.cons_append, List.dropWhile_cons_of_neg (by simp [hword c])]
  have hback : word.reverse.dropWhile isWhitespace = word.reverse := by
    cases hrev : word.reverse with
    | nil => rfl
    | cons c cs =>
      have hmem : c ∈ word := by rw [← List.mem_reverse, hrev]; exact List.mem_cons_self
      rw [List.dropWhile_cons_of_neg (by simp [hword c hmem])]
  rw [trimChars, hfront, List.reverse_append, List.dropWhile_append_of_pos (by simpa using hblanks),
    hback, List.reverse_reverse]

def trim (s : String) : String := String.ofList (trimChars s.toList)

def toAsciiLowercase (s : String) : String := String.ofList (s.toList.map Char.toLower)

/-- `needle` occurs in `s`. -/
def contains (s needle : String) : Bool := decide (needle.toList <:+: s.toList)

def startsWith (s front : String) : Bool := decide (front.toList <+: s.toList)

/-- What follows `front`, when `s` starts with it. -/
def stripPrefix (s front : String) : Option String :=
  if startsWith s front then some (String.ofList (s.toList.drop front.toList.length)) else none

/-- Split around the first occurrence of `sep`. -/
def splitOnceChars (sep : List Char) : List Char → Option (List Char × List Char)
  | [] => if sep.isEmpty then some ([], []) else none
  | c :: cs =>
    if sep.isPrefixOf (c :: cs) then some ([], (c :: cs).drop sep.length)
    else (splitOnceChars sep cs).map fun (a, b) => (c :: a, b)

def splitOnce (s sep : String) : Option (String × String) :=
  (splitOnceChars sep.toList s.toList).map fun (a, b) => (String.ofList a, String.ofList b)

/-- Drop every leading `c`. -/
def trimStartMatches (s : String) (c : Char) : String :=
  String.ofList (s.toList.dropWhile (· == c))

@[simp] theorem contains_eq_true {s needle : String} :
    contains s needle = true ↔ needle.toList <:+: s.toList := decide_eq_true_iff

/-- Numbers print differently when they differ. -/
theorem toString_inj {m n : Nat} (h : toString m = toString n) : m = n := by
  have hdigits : Nat.toDigits 10 m = Nat.toDigits 10 n := by
    simpa [Nat.toString_eq_ofList_toDigits] using congrArg String.toList h
  rw [← Nat.ofDigitChars_toDigits (b := 10) (n := m) (by omega) (by omega), hdigits,
    Nat.ofDigitChars_toDigits (by omega) (by omega)]

/-- The lines of a text, without their terminators (`\n` or `\r\n`). -/
def lines (s : String) : List String :=
  let pieces := s.toList.splitOn '\n'
  let ended := if pieces.getLast? = some [] then pieces.dropLast else pieces
  ended.map fun l => String.ofList (if l.getLast? = some '\r' then l.dropLast else l)

/-- Lines without a break in them, and the last not empty, are read back. -/
theorem lines_join {first : List Char} {rest : List (List Char)}
    (h : ∀ l ∈ first :: rest, l ≠ [] ∧ '\n' ∉ l ∧ '\r' ∉ l) :
    lines (String.ofList (first ++ rest.flatMap ('\r' :: '\n' :: ·))) =
      (first :: rest).map String.ofList := by
  obtain ⟨init, last, hlines, hsplit⟩ : ∃ init last, first :: rest = init ++ [last] ∧
      (first ++ rest.flatMap ('\r' :: '\n' :: ·)).splitOn '\n' =
        init.map (· ++ ['\r']) ++ [last] := by
    induction rest generalizing first with
    | nil => exact ⟨[], first, rfl, by
        rw [List.flatMap_nil, List.append_nil, List.splitOn_eq_singleton (h first (by simp)).2.1]
        rfl⟩
    | cons l rest ih =>
      obtain ⟨init, last, hlines, hsplit⟩ := @ih l fun m hm => h m (.tail _ hm)
      refine ⟨first :: init, last, by rw [hlines, List.cons_append], ?_⟩
      have hfirst : '\n' ∉ first ++ ['\r'] := by
        simpa using (h first List.mem_cons_self).2.1
      have hcut : first ++ (l :: rest).flatMap ('\r' :: '\n' :: ·) =
          (first ++ ['\r']) ++ '\n' :: (l ++ rest.flatMap ('\r' :: '\n' :: ·)) := by simp
      rw [hcut, List.splitOn_append_cons_self_of_not_mem hfirst, hsplit, List.map_cons,
        List.cons_append]
  rw [hlines] at h
  have hlast := h last (by simp)
  have hwhole : last.getLast? ≠ some '\r' := fun hcr => hlast.2.2 (List.mem_of_getLast? hcr)
  unfold lines
  rw [String.toList_ofList, hsplit, hlines]
  simp [hlast.1, hwhole]

/-- A text with every line ended. -/
def unlines (ls : List String) : String := String.join (ls.map (· ++ "\n"))

/-- The text is empty or its last line is ended. -/
def Ended (s : String) : Prop := s = "" ∨ ∃ front, s = front ++ "\n"

theorem Ended.append {s t : String} (hs : Ended s) (ht : Ended t) : Ended (s ++ t) := by
  rcases ht with rfl | ⟨front, rfl⟩
  · rwa [String.append_empty]
  · exact .inr ⟨s ++ front, String.append_assoc.symm⟩

/-- The pieces of a text between its line breaks, as a file holds them. -/
def fileLines (s : String) : List String :=
  let pieces := s.toList.splitOn '\n'
  (if pieces.getLast? = some [] then pieces.dropLast else pieces).map String.ofList

theorem unlines_fileLines {s : String} (h : Ended s) : unlines (fileLines s) = s := by
  have hjoin : ∀ ls : List (List Char), (unlines (ls.map String.ofList)).toList =
      ls.flatMap (· ++ ['\n']) := by
    intro ls
    induction ls with
    | nil => rfl
    | cons l ls ih =>
      rw [unlines, List.map_cons, List.map_cons, String.join_cons, String.toList_append,
        List.flatMap_cons, ← ih]
      simp [unlines]
  -- every piece ended is the pieces joined, with one more end
  have hended : ∀ (l : List Char) (ls : List (List Char)),
      (l :: ls).flatMap (· ++ ['\n']) = ['\n'].intercalate (l :: ls) ++ ['\n'] := by
    intro l ls
    induction ls generalizing l with
    | nil => simp
    | cons m ls ih => rw [List.flatMap_cons, ih m]; simp
  rcases h with rfl | ⟨front, rfl⟩
  · rfl
  · have hsplit : (front ++ "\n").toList.splitOn '\n' = front.toList.splitOn '\n' ++ [[]] := by
      rw [String.toList_append]
      exact List.splitOn_append_cons_self _ _
    obtain ⟨l, ls, hls⟩ := List.exists_cons_of_ne_nil (List.splitOn_ne_nil '\n' front.toList)
    apply String.toList_injective
    simp only [fileLines, hsplit, List.getLast?_concat, if_true, List.dropLast_concat]
    rw [hjoin, hls, hended, ← hls, List.intercalate_splitOn, String.toList_append]
    rfl

/-! ### The debug rendering (`{:?}`) that messages quote values in -/

def debugChar (c : Char) : String :=
  if c = '"' then "\\\""
  else if c = '\\' then "\\\\"
  else if c = '\n' then "\\n"
  else if c = '\r' then "\\r"
  else if c = '\t' then "\\t"
  else if c.toNat = 0 then "\\0"
  else if c.toNat < 0x20 || (0x7f ≤ c.toNat && c.toNat < 0xa0) then
    "\\u\x7b" ++ String.ofList (Nat.toDigits 16 c.toNat) ++ "\x7d"
  else String.singleton c

def debug (s : String) : String := "\"" ++ String.join (s.toList.map debugChar) ++ "\""

def debugOption (o : Option String) : String :=
  match o with
  | none => "None"
  | some s => "Some(" ++ debug s ++ ")"

def debugList (items : List String) : String := "[" ++ ", ".intercalate items ++ "]"

def debugPair (kv : String × String) : String := "(" ++ debug kv.1 ++ ", " ++ debug kv.2 ++ ")"

/-- A record: its name and its fields in order. -/
def debugStruct (name : String) (fields : List (String × String)) : String :=
  name ++ " \x7b " ++ ", ".intercalate (fields.map fun (k, v) => k ++ ": " ++ v) ++ " \x7d"

end Text

/-- Split around the last `sep`. -/
def rsplitOnce (s : String) (sep : Char) : Option (String × String) :=
  let back := s.toList.reverse
  match back.dropWhile (· ≠ sep) with
  | [] => none
  | _ :: front =>
    some (String.ofList front.reverse, String.ofList (back.takeWhile (· ≠ sep)).reverse)

/-- The last `sep` is the one with no other behind it. -/
theorem rsplitOnce_eq_some {s front back : String} {sep : Char} :
    rsplitOnce s sep = some (front, back) ↔
      s.toList = front.toList ++ sep :: back.toList ∧ sep ∉ back.toList := by
  have hcut := List.takeWhile_append_dropWhile (p := (· ≠ sep)) (l := s.toList.reverse)
  unfold rsplitOnce
  dsimp only
  constructor
  · cases hdrop : s.toList.reverse.dropWhile (· ≠ sep) with
    | nil => simp
    | cons c rest =>
      intro h
      obtain ⟨rfl, rfl⟩ := Prod.mk.inj (Option.some.inj h)
      have hc : c = sep := by
        have hhead := List.head?_dropWhile_not (· ≠ sep) s.toList.reverse
        rw [hdrop] at hhead
        simpa using hhead
      subst hc
      rw [hdrop] at hcut
      have hs := congrArg List.reverse hcut
      rw [List.reverse_reverse, List.reverse_append, List.reverse_cons] at hs
      rw [String.toList_ofList, String.toList_ofList]
      refine ⟨hs.symm.trans (List.append_assoc _ _ _), fun hmem => ?_⟩
      have hkept := List.all_eq_true.mp List.all_takeWhile _ (List.mem_reverse.mp hmem)
      simp at hkept
  · rintro ⟨hs, hfree⟩
    have hback : s.toList.reverse = back.toList.reverse ++ sep :: front.toList.reverse := by
      rw [hs]
      simp
    have hall : ∀ c ∈ back.toList.reverse, decide (c ≠ sep) = true := by
      intro c hc
      refine decide_eq_true ?_
      rintro rfl
      exact hfree (List.mem_reverse.mp hc)
    rw [hback, List.dropWhile_append_of_pos hall, List.takeWhile_append_of_pos hall]
    simp

/-- A run of decimal digits as a number below `bound`. -/
def parseDigits (bound : Nat) (digits : List Char) : Option Nat :=
  if digits.isEmpty || !digits.all Char.isDigit then none
  else
    let n := Nat.ofDigitChars 10 digits 0
    if n < bound then some n else none

/-- An unsigned number as the source's standard library reads one: a plus sign may stand before
it. -/
def parseUnsigned (bound : Nat) (s : String) : Option Nat :=
  match s.toList with
  | '+' :: digits => parseDigits bound digits
  | digits => parseDigits bound digits

/-- An ordered map from strings to strings. -/
structure StringMap where
  entries : List (String × String)
  sorted : (entries.map Prod.fst).Pairwise (· < ·)
deriving DecidableEq

namespace StringMap

def empty : StringMap := ⟨[], .nil⟩

def keys (m : StringMap) : List String := m.entries.map Prod.fst

def debug (m : StringMap) : String :=
  "\x7b" ++ ", ".intercalate (m.entries.map fun (k, v) => Text.debug k ++ ": " ++ Text.debug v) ++
    "\x7d"

/-- The map with one entry. -/
def single (k v : String) : StringMap := ⟨[(k, v)], List.pairwise_singleton _ _⟩

@[simp] theorem keys_empty : empty.keys = [] := rfl

@[simp] theorem keys_single (k v : String) : (single k v).keys = [k] := rfl

end StringMap

end Pgpod
