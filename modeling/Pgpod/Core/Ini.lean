import Pgpod.Core.Words
import Mathlib.Data.List.Nodup
import Mathlib.Logic.Function.Basic

/-!
# INI files

A file is read line by line: a `[section]`, a `key=value`, a comment after `#`,
or nothing.  Within a section the last assignment of a key wins.
-/

namespace Ini

inductive Entry
  | header (name : String)
  | assign (key value : String)
deriving DecidableEq, Repr

/-- Split at the first `=`. -/
def cut : List Char → Option (List Char × List Char)
  | [] => none
  | c :: cs => if c = '=' then some ([], cs) else (cut cs).map fun (k, v) => (c :: k, v)

/-- What a line says; `none` when it is no line of an INI file. -/
def readLine : List Char → Option (List Entry)
  | [] => some []
  | '#' :: _ => some []
  | '[' :: cs =>
    if cs.getLast? = some ']' then some [.header (String.ofList cs.dropLast)] else none
  | line => (cut line).map fun (k, v) => [.assign (String.ofList k) (String.ofList v)]

def readLines : List (List Char) → Option (List Entry)
  | [] => some []
  | line :: rest => do
    let entries ← readLine line
    let more ← readLines rest
    some (entries ++ more)

def read (text : String) : Option (List Entry) := readLines (text.toList.splitOn '\n')

/-! ## What a file says -/

def headers (entries : List Entry) : List String :=
  entries.filterMap fun e => match e with
    | .header name => some name
    | .assign _ _ => none

/-- The assignments in a section, in order; `inside` when the section is open. -/
def assigned (name : String) : Bool → List Entry → List (String × String)
  | _, [] => []
  | _, .header n :: entries => assigned name (n = name) entries
  | true, .assign k v :: entries => (k, v) :: assigned name true entries
  | false, .assign _ _ :: entries => assigned name false entries

/-- The last value that a list of assignments gives a key. -/
def last (pairs : List (String × String)) (key : String) : Option String :=
  pairs.reverse.lookup key

/-- The last value assigned to a key in a section. -/
def effective (entries : List Entry) (name key : String) : Option String :=
  last (assigned name false entries) key

/-! ## Reading -/

/-- An entry with nothing in it that the format gives another meaning. -/
def Entry.Plain : Entry → Prop
  | .header name => '\n' ∉ name.toList
  | .assign key value => '\n' ∉ key.toList ∧ '=' ∉ key.toList ∧ '\n' ∉ value.toList

instance : DecidablePred Entry.Plain
  | .header name => inferInstanceAs (Decidable ('\n' ∉ name.toList))
  | .assign key value =>
    inferInstanceAs (Decidable ('\n' ∉ key.toList ∧ '=' ∉ key.toList ∧ '\n' ∉ value.toList))

theorem cut_append {key : List Char} (h : '=' ∉ key) (value : List Char) :
    cut (key ++ '=' :: value) = some (key, value) := by
  induction key with
  | nil => rw [List.nil_append, cut, if_pos rfl]
  | cons c cs ih =>
    rw [List.mem_cons, not_or] at h
    rw [List.cons_append, cut, if_neg (Ne.symm h.1), ih h.2]
    rfl

theorem cut_eq_some {line key value : List Char} (h : cut line = some (key, value)) :
    '=' ∉ key ∧ line = key ++ '=' :: value := by
  induction line generalizing key value with
  | nil => cases h
  | cons c cs ih =>
    rw [cut] at h
    by_cases hc : c = '='
    · rw [if_pos hc] at h
      obtain ⟨rfl, rfl⟩ := Prod.mk.inj (Option.some.inj h)
      exact ⟨List.not_mem_nil, by rw [hc]; rfl⟩
    · rw [if_neg hc] at h
      obtain ⟨⟨k, v⟩, hcut, hpair⟩ := Option.map_eq_some_iff.mp h
      obtain ⟨rfl, rfl⟩ := Prod.mk.inj hpair
      obtain ⟨hk, rfl⟩ := ih hcut
      exact ⟨by rw [List.mem_cons, not_or]; exact ⟨Ne.symm hc, hk⟩, rfl⟩

/-- A `key=value` line. -/
theorem readLine_assign {c : Char} {key : List Char} (hc : c ≠ '#' ∧ c ≠ '[')
    (h : '=' ∉ c :: key) (value : List Char) :
    readLine ((c :: key) ++ '=' :: value) =
      some [.assign (String.ofList (c :: key)) (String.ofList value)] := by
  rw [List.cons_append, readLine]
  · rw [← List.cons_append, cut_append h]
    rfl
  · exact fun heq => by cases heq
  · exact fun _ heq => hc.1 (List.cons.inj heq).1
  · exact fun _ heq => hc.2 (List.cons.inj heq).1

/-- A `[section]` line. -/
theorem readLine_header (name : List Char) :
    readLine ('[' :: (name ++ [']'])) = some [.header (String.ofList name)] := by
  rw [readLine, List.getLast?_concat, if_pos rfl, List.dropLast_concat]

theorem readLines_append (as bs : List (List Char)) :
    readLines (as ++ bs) = (readLines as).bind fun es => (readLines bs).map (es ++ ·) := by
  induction as with
  | nil => cases h : readLines bs <;> simp [readLines, h]
  | cons a as ih =>
    rw [List.cons_append, readLines, readLines, ih]
    cases readLine a with
    | none => rfl
    | some e =>
      cases readLines as with
      | none => rfl
      | some es => cases readLines bs <;> simp

/-- What is read from one line is plain, when the line is one. -/
theorem plain_of_readLine {line : List Char} {entries : List Entry} (hline : '\n' ∉ line)
    (h : readLine line = some entries) : ∀ e ∈ entries, e.Plain := by
  unfold readLine at h
  split at h
  · rw [← Option.some.inj h]
    exact fun e he => absurd he List.not_mem_nil
  · rw [← Option.some.inj h]
    exact fun e he => absurd he List.not_mem_nil
  · next cs =>
    split at h
    · rw [← Option.some.inj h]
      intro e he
      rw [List.mem_singleton.mp he, Entry.Plain, String.toList_ofList]
      exact fun hmem => hline (List.mem_cons_of_mem _ ((List.dropLast_subset cs) hmem))
    · cases h
  · obtain ⟨⟨key, value⟩, hcut, hentry⟩ := Option.map_eq_some_iff.mp h
    obtain ⟨hkey, rfl⟩ := cut_eq_some hcut
    rw [List.mem_append, List.mem_cons, not_or, not_or] at hline
    rw [← hentry]
    intro e he
    rw [List.mem_singleton.mp he, Entry.Plain, String.toList_ofList, String.toList_ofList]
    exact ⟨hline.1, hkey, hline.2.2⟩

theorem plain_of_readLines {lines : List (List Char)} {entries : List Entry}
    (hlines : ∀ line ∈ lines, '\n' ∉ line) (h : readLines lines = some entries) :
    ∀ e ∈ entries, e.Plain := by
  induction lines generalizing entries with
  | nil =>
    rw [← Option.some.inj h]
    exact fun e he => absurd he List.not_mem_nil
  | cons line rest ih =>
    rw [List.forall_mem_cons] at hlines
    simp only [readLines, Option.bind_eq_bind, Option.bind_eq_some_iff] at h
    obtain ⟨es, hes, more, hmore, hentries⟩ := h
    rw [← Option.some.inj hentries, List.forall_mem_append]
    exact ⟨plain_of_readLine hlines.1 hes, ih hlines.2 hmore⟩

/-- **Whatever is read from a file is plain.** -/
theorem plain_of_read {text : String} {entries : List Entry} (h : read text = some entries) :
    ∀ e ∈ entries, e.Plain :=
  plain_of_readLines (fun _ => Words.not_mem_of_mem_splitOn) h

/-- A file that was written line by line is read line by line. -/
theorem splitOn_lines {lines : List (List Char)} (h : ∀ line ∈ lines, '\n' ∉ line) :
    (lines.flatMap (· ++ ['\n'])).splitOn '\n' = lines ++ [[]] := by
  induction lines with
  | nil => rfl
  | cons line rest ih =>
    rw [List.forall_mem_cons] at h
    rw [List.flatMap_cons, List.append_assoc, List.singleton_append,
      List.splitOn_append_cons_self_of_not_mem h.1, ih h.2]
    rfl

/-! ## Writing -/

/-- One line of a file that is written. -/
inductive Item
  | blank
  | comment (text : String)
  | header (name : String)
  | setting (key value : String)

namespace Item

def line : Item → String
  | blank => ""
  | comment text => "#" ++ text
  | header name => "[" ++ name ++ "]"
  | setting key value => key ++ "=" ++ value

def entries : Item → List Entry
  | header name => [.header name]
  | setting key value => [.assign key value]
  | _ => []

/-- Nothing in the line is read as anything but what was written. -/
def Plain : Item → Prop
  | blank => True
  | comment text => '\n' ∉ text.toList
  | header name => '\n' ∉ name.toList
  | setting key value => (Entry.assign key value).Plain ∧
      key.toList.head?.any (fun c => c ≠ '#' && c ≠ '[') = true

instance : DecidablePred Item.Plain
  | blank => .isTrue trivial
  | comment text => inferInstanceAs (Decidable ('\n' ∉ text.toList))
  | header name => inferInstanceAs (Decidable ('\n' ∉ name.toList))
  | setting key value => inferInstanceAs (Decidable ((Entry.assign key value).Plain ∧
      key.toList.head?.any (fun c => c ≠ '#' && c ≠ '[') = true))

/-- A comment in a literal is read off its characters. -/
theorem plain_comment {cs : List Char} (h : '\n' ∉ cs) : (comment (String.ofList cs)).Plain := by
  rwa [Plain, String.toList_ofList]

/-- So is a setting. -/
theorem plain_setting {ks vs : List Char} (hkey : '\n' ∉ ks ∧ '=' ∉ ks) (hvalue : '\n' ∉ vs)
    (hfirst : ks.head?.any (fun c => c ≠ '#' && c ≠ '[') = true) :
    (setting (String.ofList ks) (String.ofList vs)).Plain := by
  simp only [Plain, Entry.Plain, String.toList_ofList]
  exact ⟨⟨hkey.1, hkey.2, hvalue⟩, hfirst⟩

theorem readLine_line {item : Item} (h : item.Plain) :
    readLine item.line.toList = some item.entries := by
  cases item with
  | blank => rfl
  | comment text =>
    have hchars : (line (comment text)).toList = '#' :: text.toList := by
      simp [line, String.toList_append]
    rw [hchars]
    rfl
  | header name =>
    have hchars : (line (header name)).toList = '[' :: (name.toList ++ [']']) := by
      simp [line, String.toList_append]
    rw [hchars, readLine_header, String.ofList_toList]
    rfl
  | setting key value =>
    obtain ⟨⟨-, heq, -⟩, hfirst⟩ := h
    obtain ⟨c, cs, hkey, hc⟩ : ∃ c cs, key.toList = c :: cs ∧ c ≠ '#' ∧ c ≠ '[' := by
      cases hchars : key.toList with
      | nil => simp [hchars] at hfirst
      | cons c cs => exact ⟨c, cs, rfl, by simpa [hchars] using hfirst⟩
    have hchars : (line (setting key value)).toList = (c :: cs) ++ '=' :: value.toList := by
      rw [← hkey]
      simp [line, String.toList_append]
    rw [hkey] at heq
    rw [hchars, readLine_assign hc heq, ← hkey, String.ofList_toList, String.ofList_toList]
    rfl

theorem one_line {item : Item} (h : item.Plain) : '\n' ∉ item.line.toList := by
  cases item with
  | blank => exact List.not_mem_nil
  | comment text => simpa [line, String.toList_append, Item.Plain] using h
  | header name => simpa [line, String.toList_append, Item.Plain] using h
  | setting key value =>
    obtain ⟨⟨hkey, -, hvalue⟩, -⟩ := h
    simp [line, String.toList_append, hkey, hvalue]

end Item

/-- The text of a file. -/
def write (items : List Item) : String := String.join (items.map fun i => i.line ++ "\n")

theorem toList_write (items : List Item) :
    (write items).toList = (items.map fun i => i.line.toList).flatMap (· ++ ['\n']) := by
  induction items with
  | nil => rfl
  | cons item rest ih =>
    have hcons : write (item :: rest) = item.line ++ "\n" ++ write rest := by
      simp [write, String.join_cons]
    rw [hcons, String.toList_append, String.toList_append, ih]
    rfl

/-- **What is written plainly is read back.** -/
theorem read_write {items : List Item} (h : ∀ i ∈ items, i.Plain) :
    read (write items) = some (items.flatMap Item.entries) := by
  have hread : ∀ items : List Item, (∀ i ∈ items, i.Plain) →
      readLines (items.map fun i => i.line.toList) = some (items.flatMap Item.entries) := by
    intro items h
    induction items with
    | nil => rfl
    | cons item rest ih =>
      rw [List.forall_mem_cons] at h
      rw [List.map_cons, readLines, Item.readLine_line h.1, ih h.2]
      rfl
  have hlines : ∀ line ∈ items.map fun i => i.line.toList, '\n' ∉ line := by
    intro line hline
    obtain ⟨item, hitem, rfl⟩ := List.mem_map.mp hline
    exact Item.one_line (h item hitem)
  rw [read, toList_write, splitOn_lines hlines, readLines_append, hread items h]
  simp [readLines, readLine]

/-! ## Looking up -/

theorem last_append (as bs : List (String × String)) (key : String) :
    last (as ++ bs) key = (last bs key).or (last as key) := by
  rw [last, List.reverse_append, List.lookup_append]
  rfl

theorem last_eq_none_iff {pairs : List (String × String)} {key : String} :
    last pairs key = none ↔ key ∉ pairs.map Prod.fst := by
  rw [last, List.lookup_eq_none_iff]
  constructor
  · rintro h hmem
    obtain ⟨kv, hkv, rfl⟩ := List.mem_map.mp hmem
    exact absurd (h kv (List.mem_reverse.mpr hkv)) (by simp)
  · intro h kv hkv
    rw [bne_iff_ne]
    rintro rfl
    exact h (List.mem_map_of_mem (List.mem_reverse.mp hkv))

theorem mem_of_last {pairs : List (String × String)} {key value : String}
    (h : last pairs key = some value) : (key, value) ∈ pairs := by
  obtain ⟨front, back, hlist, -⟩ := List.lookup_eq_some_iff.mp h
  rw [← List.mem_reverse, hlist]
  exact List.mem_append_right _ List.mem_cons_self

/-- A key assigned once has that value. -/
theorem last_of_nodup {pairs : List (String × String)} (h : (pairs.map Prod.fst).Nodup)
    {kv : String × String} (hkv : kv ∈ pairs) : last pairs kv.1 = some kv.2 := by
  cases hlast : last pairs kv.1 with
  | none => exact absurd (List.mem_map_of_mem hkv) (last_eq_none_iff.mp hlast)
  | some v =>
    have heq := List.inj_on_of_nodup_map h (mem_of_last hlast) hkv rfl
    rw [← heq]

/-- Keys that are renamed apart are looked up under their new names. -/
theorem last_map {f : String → String} (hf : Function.Injective f)
    (pairs : List (String × String)) (key : String) :
    last (pairs.map fun kv => (f kv.1, kv.2)) (f key) = last pairs key := by
  rw [last, last, ← List.map_reverse]
  induction pairs.reverse with
  | nil => rfl
  | cons kv rest ih =>
    have hbeq : (f key == f kv.1) = (key == kv.1) := by
      rw [Bool.eq_iff_iff, beq_iff_eq, beq_iff_eq]
      exact hf.eq_iff
    rw [List.map_cons, List.lookup_cons, List.lookup_cons, hbeq, ih]

theorem assigned_settings (name : String) (inside : Bool) (pairs : List (String × String))
    (entries : List Entry) :
    assigned name inside (pairs.map (fun kv => Entry.assign kv.1 kv.2) ++ entries) =
      (if inside then pairs else []) ++ assigned name inside entries := by
  induction pairs with
  | nil => cases inside <;> rfl
  | cons kv rest ih =>
    cases inside with
    | true =>
      rw [List.map_cons, List.cons_append, assigned, ih]
      rfl
    | false =>
      rw [List.map_cons, List.cons_append, assigned, ih]
      rfl

theorem mem_of_mem_assigned {name : String} {inside : Bool} {entries : List Entry}
    {kv : String × String} (h : kv ∈ assigned name inside entries) :
    Entry.assign kv.1 kv.2 ∈ entries := by
  induction entries generalizing inside with
  | nil => cases inside <;> exact absurd h List.not_mem_nil
  | cons e rest ih =>
    cases e with
    | header n =>
      cases inside <;> exact List.mem_cons_of_mem _ (ih h)
    | assign k v =>
      cases inside with
      | true =>
        rcases List.mem_cons.mp h with rfl | h
        · exact List.mem_cons_self
        · exact List.mem_cons_of_mem _ (ih h)
      | false => exact List.mem_cons_of_mem _ (ih h)

theorem mem_headers {name : String} {entries : List Entry} :
    name ∈ headers entries ↔ Entry.header name ∈ entries := by
  rw [headers, List.mem_filterMap]
  constructor
  · rintro ⟨e, he, hname⟩
    cases e with
    | header n =>
      rw [← Option.some.inj hname]
      exact he
    | assign k v => cases hname
  · exact fun h => ⟨_, h, rfl⟩

/-- An effective value was read, and is plain with its key. -/
theorem plain_of_effective {text : String} {entries : List Entry} (h : read text = some entries)
    {name key value : String} (heff : effective entries name key = some value) :
    (Entry.assign key value).Plain := by
  exact plain_of_read h _ (mem_of_mem_assigned (mem_of_last heff))

end Ini
