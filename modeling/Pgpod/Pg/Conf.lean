import Mathlib.Data.List.Sort
import Pgpod.Core.Manifest
import Pgpod.Pg.ConfFile

/-!
# Rendering the user's parameters

`conf.d/10-user.conf` holds the parameters of the manifest, one line each.  PostgreSQL
reads back what was given exactly when no value holds a backslash or a line break and no
parameter is one of the include directives: quotes are doubled, backslashes are not.
-/

namespace Pgpod

open ConfFile

inductive ConfError
  | reservedParameter (name : String)
  | invalidParameterName (key : String)
deriving DecidableEq, Repr

def ConfError.toString : ConfError → String
  | reservedParameter name => name ++ " is managed by pgpod and cannot be set in " ++
      "spec.postgresql.parameters — changing it would break backups, replication, or recovery"
  | invalidParameterName key => Text.debug key ++ " is not a valid PostgreSQL parameter name"

/-- What a key of the manifest is taken as. -/
def normalizedKey (key : String) : String := Text.toAsciiLowercase (Text.trim key)

/-- PostgreSQL's parameter names are `[A-Za-z][A-Za-z0-9_]*`. -/
def isValidParameterName (name : String) : Bool :=
  !name.isEmpty && name.toList.head?.any Char.isAlpha &&
    name.toList.all fun c => c.isAlphanum || c == '_'

/-- A value as a string literal of the configuration file. -/
def quote (value : String) : String := "'" ++ String.ofList (doubled value.toList) ++ "'"

/-- One line of the file. -/
def push (key value : String) : String := key ++ " = " ++ value ++ "\n"

def USER_CONF_HEADER : String :=
  "# Rendered by pgpod from spec.postgresql.parameters." ++ "\n" ++
    ("# Included after 00-pgpod.conf, so these win where they overlap." ++ "\n" ++ ("" ++ "\n"))

/-- The parameters in the order of their keys, equal keys in the order given. -/
def sortedByKey (params : List (String × String)) : List (String × String) :=
  params.insertionSort fun a b => a.1 ≤ b.1

def renderParameters : List (String × String) → Except ConfError String
  | [] => .ok ""
  | (key, value) :: rest =>
    let normalized := normalizedKey key
    if RESERVED_PARAMETERS.contains normalized then .error (.reservedParameter normalized)
    else if !isValidParameterName normalized then .error (.invalidParameterName key)
    else do
      let more ← renderParameters rest
      return push normalized (quote value) ++ more

/-- `conf.d/10-user.conf`. -/
def renderUserConf (params : List (String × String)) : Except ConfError String := do
  let body ← renderParameters (sortedByKey params)
  return USER_CONF_HEADER ++ body

/-! ## What is accepted -/

/-- The key passes both checks of the renderer. -/
def acceptedKey (key : String) : Bool :=
  !RESERVED_PARAMETERS.contains (normalizedKey key) && isValidParameterName (normalizedKey key)

theorem renderParameters_cons {key value text : String} {rest : List (String × String)} :
    renderParameters ((key, value) :: rest) = .ok text ↔
      acceptedKey key = true ∧ ∃ more, renderParameters rest = .ok more ∧
        text = push (normalizedKey key) (quote value) ++ more := by
  rw [renderParameters, acceptedKey]
  by_cases hreserved : RESERVED_PARAMETERS.contains (normalizedKey key) = true
  · rw [if_pos hreserved, hreserved]
    simp
  · rw [if_neg hreserved, Bool.eq_false_of_not_eq_true hreserved]
    by_cases hvalid : isValidParameterName (normalizedKey key) = true
    · rw [hvalid]
      cases renderParameters rest with
      | error e => simp
      | ok more =>
        change Except.ok (push (normalizedKey key) (quote value) ++ more) = Except.ok text ↔ _
        simp only [Except.ok.injEq]
        constructor
        · intro h
          exact ⟨rfl, more, rfl, h.symm⟩
        · rintro ⟨-, _, rfl, h⟩
          exact h.symm
    · rw [Bool.eq_false_of_not_eq_true hvalid]
      simp

theorem renderParameters_isOk {params : List (String × String)} :
    (∃ body, renderParameters params = .ok body) ↔ ∀ kv ∈ params, acceptedKey kv.1 = true := by
  induction params with
  | nil => simp [renderParameters]
  | cons kv rest ih =>
    obtain ⟨key, value⟩ := kv
    rw [List.forall_mem_cons, ← ih]
    simp only [renderParameters_cons]
    constructor
    · rintro ⟨body, hkey, more, hmore, -⟩
      exact ⟨hkey, more, hmore⟩
    · rintro ⟨hkey, more, hmore⟩
      exact ⟨_, hkey, more, hmore, rfl⟩

/-- The renderer accepts the parameters whose every key it accepts. -/
theorem renderUserConf_isOk {params : List (String × String)} :
    (∃ text, renderUserConf params = .ok text) ↔ ∀ kv ∈ params, acceptedKey kv.1 = true := by
  have hsorted : (∀ kv ∈ sortedByKey params, acceptedKey kv.1 = true) ↔
      ∀ kv ∈ params, acceptedKey kv.1 = true := by
    simp only [sortedByKey, List.mem_insertionSort]
  rw [← hsorted, ← renderParameters_isOk]
  unfold renderUserConf
  cases renderParameters (sortedByKey params) <;> simp [bind, Except.bind, pure, Except.pure]

/-! ## What PostgreSQL reads -/

/-- A parameter as it should be set. -/
def setting (kv : String × String) : String × String := (normalizedKey kv.1, kv.2)

/-- The text of one parameter, without the line break that ends it. -/
def assignment (name : String) (value : List Char) : List Char :=
  name.toList ++ ' ' :: '=' :: ' ' :: '\'' :: value

theorem toList_push (name value more : String) : (push name (quote value) ++ more).toList =
    assignment name (doubled value.toList ++ ['\'']) ++ '\n' :: more.toList := by
  simp [push, quote, assignment]

theorem nameStart_of_isAlpha {c : Char} (h : c.isAlpha = true) : nameStart c = true := by
  simp [nameStart, h]

theorem nameChar_of_parameter {c : Char} (h : (c.isAlphanum || c == '_') = true) :
    nameChar c = true := by
  simp only [Char.isAlphanum, Bool.or_eq_true, beq_iff_eq] at h
  simp only [nameChar, nameStart, Bool.or_eq_true, beq_iff_eq]
  tauto

theorem isValidParameterName_cons {name : String} (h : isValidParameterName name = true) :
    ∃ c cs, name.toList = c :: cs ∧ c.isAlpha = true ∧
      ∀ d ∈ c :: cs, (d.isAlphanum || d == '_') = true := by
  simp only [isValidParameterName, Bool.and_eq_true, List.all_eq_true] at h
  obtain ⟨⟨-, hhead⟩, hall⟩ := h
  cases hchars : name.toList with
  | nil => rw [hchars] at hhead; cases hhead
  | cons c cs =>
    rw [hchars] at hhead hall
    exact ⟨c, cs, rfl, hhead, hall⟩

/-- The line of an accepted parameter holds the setting that its quoted value reads as. -/
theorem readLine_assignment {name : String} (hname : isValidParameterName name = true)
    (cs : List Char) : readLine (assignment name cs) =
      match Quote.plain.scan cs with
      | some (value, rest) =>
        if lineEnds rest then some [(name, String.ofList value)] else none
      | none => none := by
  obtain ⟨c, ns, hchars, halpha, hall⟩ := isValidParameterName_cons hname
  have hstart : nameStart c = true := nameStart_of_isAlpha halpha
  have hblank : isBlank c = false := by
    by_contra h
    simp only [isBlank, Bool.not_eq_false, Bool.or_eq_true, beq_iff_eq] at h
    rcases h with (rfl | rfl) | rfl <;> exact absurd halpha (by decide)
  have hcomment : c ≠ '#' := by
    rintro rfl
    exact absurd halpha (by decide)
  have hskip : skipBlanks (assignment name cs) = c :: (ns ++ ' ' :: '=' :: ' ' :: '\'' :: cs) := by
    rw [assignment, hchars, List.cons_append]
    simp [skipBlanks, hblank]
  have htake : (c :: (ns ++ ' ' :: '=' :: ' ' :: '\'' :: cs)).takeWhile nameChar = name.toList := by
    rw [← List.cons_append, List.takeWhile_append_of_pos (fun d hd => nameChar_of_parameter
      (hall d hd)), hchars]
    simp [nameChar, nameStart, show (' ' : Char).isAlpha = false from rfl,
      show (' ' : Char).isDigit = false from rfl]
  have hdrop : (c :: (ns ++ ' ' :: '=' :: ' ' :: '\'' :: cs)).dropWhile nameChar =
      ' ' :: '=' :: ' ' :: '\'' :: cs := by
    rw [← List.cons_append, List.dropWhile_append_of_pos (fun d hd => nameChar_of_parameter
      (hall d hd))]
    rfl
  have hvalue : readValue (skipEquals (skipBlanks (' ' :: '=' :: ' ' :: '\'' :: cs))) =
      Quote.plain.scan cs := rfl
  rw [readLine, hskip]
  simp only [if_neg hcomment, hstart, if_true]
  rw [readSetting, htake, hdrop, hvalue]
  cases Quote.plain.scan cs with
  | none => rfl
  | some out =>
    obtain ⟨value, rest⟩ := out
    by_cases hends : lineEnds rest = true
    · simp [hends]
    · simp [hends]

/-- A value that doubling the quotes is enough for. -/
def plainValue (value : String) : Bool :=
  !value.toList.contains '\\' && !value.toList.contains '\n'

theorem plainValue_iff {value : String} :
    plainValue value = true ↔ '\\' ∉ value.toList ∧ '\n' ∉ value.toList := by
  simp [plainValue]

theorem readLine_plain {name value : String} (hname : isValidParameterName name = true)
    (hvalue : plainValue value = true) :
    readLine (assignment name (doubled value.toList ++ ['\''])) = some [(name, value)] := by
  rw [readLine_assignment hname, Quote.scan_doubled (plainValue_iff.1 hvalue).1]
  simp [lineEnds, skipBlanks]

theorem newline_notMem_assignment {name : String} (hname : isValidParameterName name = true)
    {cs : List Char} (hcs : '\n' ∉ cs) : '\n' ∉ assignment name cs := by
  obtain ⟨c, ns, hchars, -, hall⟩ := isValidParameterName_cons hname
  have hname' : '\n' ∉ name.toList := by
    rw [hchars]
    intro h
    exact absurd (hall _ h) (by decide)
  simp [assignment, hname', hcs]

/-- A line whose value comes out too short does not read as the parameter. -/
theorem readLine_shorter {name value : String} {cs : List Char}
    (hname : isValidParameterName name = true)
    (hshort : ∀ read rest, Quote.plain.scan cs = some (read, rest) →
      read.length < value.toList.length)
    {found : List (String × String)} (h : readLine (assignment name cs) = some found) :
    ∃ v, found = [(name, v)] ∧ v ≠ value := by
  rw [readLine_assignment hname] at h
  cases hscan : Quote.plain.scan cs with
  | none => simp [hscan] at h
  | some out =>
    obtain ⟨read, rest⟩ := out
    rw [hscan] at h
    simp only [] at h
    split at h
    · cases h
      refine ⟨String.ofList read, rfl, ?_⟩
      rintro rfl
      have := hshort read rest hscan
      simp at this
    · cases h

/-- Any other value is not what its first line reads as. -/
theorem readLine_not_plain {name value : String} (hname : isValidParameterName name = true)
    (hvalue : plainValue value = false) :
    ∃ front back, (assignment name (doubled value.toList ++ ['\''])).splitOn '\n' = front :: back ∧
      ∀ found, readLine front = some found → ∃ v, found = [(name, v)] ∧ v ≠ value := by
  by_cases hline : '\n' ∈ value.toList
  · -- the first line ends inside the value, and its text has no closing quote of its own
    obtain ⟨v₁, v₂, hsplit, hv₁⟩ := List.eq_append_cons_of_mem hline
    have htext : assignment name (doubled value.toList ++ ['\'']) =
        assignment name (doubled v₁) ++ '\n' :: (doubled v₂ ++ ['\'']) := by
      rw [hsplit, doubled_append, doubled_cons (by decide)]
      simp [assignment]
    have hfront := newline_notMem_assignment hname (mt mem_doubled.1 hv₁)
    refine ⟨_, _, by rw [htext, List.splitOn_append_cons_self_of_not_mem hfront], ?_⟩
    intro found
    refine readLine_shorter hname fun read rest hscan => ?_
    have hlength := Quote.scan_length hscan
    rw [Quote.weight_doubled] at hlength
    rw [hsplit, List.length_append, List.length_cons]
    simp only [Quote.carry] at hlength
    omega
  · -- the value is on one line, and its backslash stands for nothing by itself
    have hslash : '\\' ∈ value.toList := by
      by_contra h
      rw [plainValue_iff.2 ⟨h, hline⟩] at hvalue
      cases hvalue
    have hone : '\n' ∉ doubled value.toList ++ ['\''] := by
      simp [mem_doubled, hline]
    refine ⟨_, [], List.splitOn_eq_singleton (newline_notMem_assignment hname hone), ?_⟩
    intro found
    refine readLine_shorter hname fun read rest hscan => ?_
    have hlength := Quote.scan_length hscan
    rw [Quote.weight_append, Quote.weight_doubled,
      if_pos (List.mem_append_left _ (mem_doubled.2 hslash))] at hlength
    have hquote : Quote.weight ['\''] = 1 := by rfl
    simp only [Quote.carry, hquote] at hlength
    omega

theorem splitOn_plain {name value : String} (hname : isValidParameterName name = true)
    (hvalue : plainValue value = true) :
    (assignment name (doubled value.toList ++ ['\''])).splitOn '\n' =
      [assignment name (doubled value.toList ++ ['\''])] := by
  have hone : '\n' ∉ doubled value.toList ++ ['\''] := by
    simp [mem_doubled, (plainValue_iff.1 hvalue).2]
  exact List.splitOn_eq_singleton (newline_notMem_assignment hname hone)

/-- The body of the file reads as the parameters exactly when every value is plain. -/
theorem readConf_renderParameters {params : List (String × String)} {body : String}
    (h : renderParameters params = .ok body) :
    readConf body = some (params.map setting) ↔ ∀ kv ∈ params, plainValue kv.2 = true := by
  induction params generalizing body with
  | nil =>
    cases h
    simp [readConf, readLines, readLine, skipBlanks]
  | cons kv rest ih =>
    obtain ⟨key, value⟩ := kv
    obtain ⟨hkey, more, hmore, rfl⟩ := renderParameters_cons.1 h
    have hname : isValidParameterName (normalizedKey key) = true := by
      simp only [acceptedKey, Bool.and_eq_true] at hkey
      exact hkey.2
    have ih := ih hmore
    rw [List.forall_mem_cons, ← ih]
    simp only [readConf, toList_push, List.splitOn_append_cons_self, readLines_append,
      List.map_cons, setting]
    by_cases hvalue : plainValue value = true
    · rw [splitOn_plain hname hvalue]
      simp only [readLines, readLine_plain hname hvalue]
      cases readLines (more.toList.splitOn '\n') with
      | none => simp
      | some found => simp [hvalue]
    · obtain ⟨front, back, hsplit, hread⟩ :=
        readLine_not_plain hname (Bool.eq_false_of_not_eq_true hvalue)
      rw [hsplit]
      refine iff_of_false (fun heq => ?_) (fun hplain => hvalue hplain.1)
      rw [readLines] at heq
      cases hfront : readLine front with
      | none => simp [hfront] at heq
      | some found =>
        obtain ⟨v, rfl, hne⟩ := hread found hfront
        rw [hfront] at heq
        cases hback : readLines back with
        | none => simp [hback] at heq
        | some found =>
          cases hmore : readLines (more.toList.splitOn '\n') with
          | none => simp [hback, hmore] at heq
          | some others =>
            simp only [hback, hmore, Option.some.injEq, List.cons_append, List.cons.injEq,
              Prod.mk.injEq] at heq
            exact hne heq.1.2

theorem readConf_skip {line : String} (h : readConf line = some []) (body : String) :
    readConf (line ++ "\n" ++ body) = readConf body := by
  have hchars : (line ++ "\n" ++ body).toList = line.toList ++ '\n' :: body.toList := by simp
  unfold readConf at h ⊢
  rw [hchars, List.splitOn_append_cons_self, readLines_append, h]
  cases readLines (body.toList.splitOn '\n') <;> rfl

theorem readConf_header (body : String) :
    readConf (USER_CONF_HEADER ++ body) = readConf body := by
  unfold USER_CONF_HEADER
  rw [String.append_assoc, readConf_skip (by decide +kernel), String.append_assoc,
    readConf_skip (by decide +kernel), readConf_skip (by decide +kernel)]

/-- What the file is for: PostgreSQL reads the parameters given, in the order of their keys, and
neither another file nor a setting that pgpod manages. -/
structure ReadsBack (params : List (String × String)) (text : String) : Prop where
  settings : readConf text = some ((sortedByKey params).map setting)
  noInclude : ∀ found, readConf text = some found → ∀ s ∈ found, isInclude s.1 = false
  noReserved : ∀ found, readConf text = some found → ∀ s ∈ found, s.1 ∉ RESERVED_PARAMETERS

/-- A parameter whose name and value both survive the file. -/
def safeParameter (kv : String × String) : Bool :=
  plainValue kv.2 && !isInclude (normalizedKey kv.1)

/-- **The file reads back as the parameters given exactly when no value holds a backslash or a
line break and no parameter is an include directive.** -/
theorem renderUserConf_readsBack_iff {params : List (String × String)} {text : String}
    (h : renderUserConf params = .ok text) :
    ReadsBack params text ↔ ∀ kv ∈ params, safeParameter kv = true := by
  have haccepted := renderUserConf_isOk.1 ⟨text, h⟩
  obtain ⟨body, hbody, rfl⟩ : ∃ body, renderParameters (sortedByKey params) = .ok body ∧
      USER_CONF_HEADER ++ body = text := by
    unfold renderUserConf at h
    cases hbody : renderParameters (sortedByKey params) with
    | error e => rw [hbody] at h; cases h
    | ok body => rw [hbody] at h; exact ⟨body, rfl, Except.ok.inj h⟩
  have hsorted {P : String × String → Prop} :
      (∀ kv ∈ sortedByKey params, P kv) ↔ ∀ kv ∈ params, P kv := by
    simp only [sortedByKey, List.mem_insertionSort]
  have hread := readConf_renderParameters hbody
  rw [← readConf_header, hsorted] at hread
  simp only [safeParameter, Bool.and_eq_true, Bool.not_eq_true']
  constructor
  · intro hback kv hkv
    refine ⟨hread.1 hback.settings kv hkv, ?_⟩
    refine hback.noInclude _ hback.settings (setting kv) (List.mem_map_of_mem ?_)
    exact (List.mem_insertionSort _).2 hkv
  · intro hsafe
    have hsettings := hread.2 fun kv hkv => (hsafe kv hkv).1
    refine ⟨hsettings, fun found hfound s hs => ?_, fun found hfound s hs => ?_⟩
    all_goals
      rw [hsettings] at hfound
      cases hfound
      obtain ⟨kv, hkv, rfl⟩ := List.mem_map.1 hs
      have hkv := (List.mem_insertionSort _).1 hkv
    · exact (hsafe kv hkv).2
    · have hkey := haccepted kv hkv
      simp only [acceptedKey, Bool.and_eq_true, Bool.not_eq_true'] at hkey
      simpa [setting] using hkey.1

namespace Sample

def tuning : List (String × String) := [("work_mem", "16MB"), ("application_name", "it's")]

def tuningConf : String := USER_CONF_HEADER ++ "application_name = 'it''s'\nwork_mem = '16MB'\n"

theorem tuning_readsBack : renderUserConf tuning = .ok tuningConf ∧ ReadsBack tuning tuningConf := by
  have h : renderUserConf tuning = .ok tuningConf := by decide +kernel
  exact ⟨h, (renderUserConf_readsBack_iff h).2 (by decide +kernel)⟩

/-- The value of one parameter that sets another. -/
def escaping : List (String × String) := [("work_mem", "4MB\\'\narchive_mode = off #")]

def escapingConf : String := USER_CONF_HEADER ++ "work_mem = '4MB\\''\narchive_mode = off #'\n"

/-- The backslash before the doubled quote ends the value early: the rest of it sets a parameter
that the renderer refuses by name. -/
theorem escaping_sets_archive_mode : renderUserConf escaping = .ok escapingConf ∧
    readConf escapingConf = some [("work_mem", "4MB'"), ("archive_mode", "off")] ∧
      ¬ ReadsBack escaping escapingConf := by
  have hread : readConf escapingConf = some [("work_mem", "4MB'"), ("archive_mode", "off")] := by
    decide +kernel
  refine ⟨by decide +kernel, hread, fun hback => ?_⟩
  exact hback.noReserved _ hread ("archive_mode", "off") (by simp) (by decide)

end Sample

end Pgpod
