import Mathlib.Data.List.TakeWhile
import Mathlib.Tactic.Common

/-!
# Command-line options

`getopt_long` as the GNU C library has it: a long option is named in full or by a prefix of
no other, its value stands after an equals sign or in the next argument; short options are
clustered behind a dash; other arguments are operands, wherever they stand.
-/

namespace Getopt

variable {κ : Type*}

/-- The options by their names, whether they take a value, and what they mean. -/
structure Table (κ : Type*) where
  long : List (String × Bool × κ)
  short : List (Char × Bool × κ)

inductive Event (κ : Type*)
  | option (key : κ) (value : Option String)
  | operand (text : String)

/-- What one argument is. -/
inductive Reading (κ : Type*)
  | refused
  | operand
  /-- The end of the options. -/
  | stop
  | options (given : List (Event κ))
  /-- The value of the last option is the next argument. -/
  | awaits (given : List (Event κ)) (key : κ)

def Reading.after (e : Event κ) : Reading κ → Reading κ
  | .options given => .options (e :: given)
  | .awaits given key => .awaits (e :: given) key
  | r => r

/-- The name, and the value after the first equals sign. -/
def splitValue (cs : List Char) : List Char × Option (List Char) :=
  (cs.takeWhile (· ≠ '='), (cs.dropWhile (· ≠ '=')).tail?)

namespace Table

variable [DecidableEq κ] (t : Table κ)

/-- The option that the name spells, or the only one it abbreviates. -/
def resolve (name : List Char) : Option (Bool × κ) :=
  match t.long.find? fun o => o.1.toList = name with
  | some o => some o.2
  | none =>
    match t.long.filter fun o => name.isPrefixOf o.1.toList with
    | [] => none
    | o :: more => if more.all fun p => p.2 = o.2 then some o.2 else none

def readLong (cs : List Char) : Reading κ :=
  let (name, value) := splitValue cs
  match t.resolve name, value with
  | some (true, key), some v => .options [.option key (some (String.ofList v))]
  | some (true, key), none => .awaits [] key
  | some (false, key), none => .options [.option key none]
  | some (false, _), some _ | none, _ => .refused

def readCluster : List Char → Reading κ
  | [] => .options []
  | c :: cs =>
    match t.short.find? fun o => o.1 = c with
    | none => .refused
    | some (_, true, key) =>
      if cs = [] then .awaits [] key else .options [.option key (some (String.ofList cs))]
    | some (_, false, key) => (readCluster cs).after (.option key none)

def read (arg : String) : Reading κ :=
  match arg.toList with
  | ['-', '-'] => .stop
  | '-' :: '-' :: cs => t.readLong cs
  | '-' :: c :: cs => t.readCluster (c :: cs)
  | _ => .operand

/-- The options and operands of a command line, if every option is one. -/
def parse : List String → Option (List (Event κ))
  | [] => some []
  | arg :: rest =>
    match t.read arg with
    | .refused => none
    | .operand => (parse rest).map (.operand arg :: ·)
    | .stop => some (rest.map .operand)
    | .options given => (parse rest).map (given ++ ·)
    | .awaits given key =>
      match rest with
      | [] => none
      | value :: rest => (parse rest).map (given ++ .option key (some value) :: ·)

variable {t}

/-! ## One argument -/

theorem read_long {arg : String} {cs : List Char} (harg : arg.toList = '-' :: '-' :: cs) (h : cs ≠ []) :
    t.read arg = t.readLong cs := by
  cases cs with
  | nil => exact absurd rfl h
  | cons c cs =>
    rw [read, harg]
    rfl

theorem ne_equals {name : List Char} (h : '=' ∉ name) : ∀ c ∈ name, decide (c ≠ '=') = true := by
  intro c hc
  rw [decide_eq_true_eq]
  intro heq
  exact h (heq ▸ hc)

theorem splitValue_flag {name : List Char} (h : '=' ∉ name) : splitValue name = (name, none) := by
  rw [splitValue, List.takeWhile_eq_self_iff.mpr (ne_equals h),
    List.dropWhile_eq_nil_iff.mpr (ne_equals h)]
  rfl

theorem splitValue_value {name : List Char} (h : '=' ∉ name) (value : List Char) :
    splitValue (name ++ '=' :: value) = (name, some value) := by
  rw [splitValue, List.takeWhile_append_of_pos (ne_equals h),
    List.dropWhile_append_of_pos (ne_equals h)]
  simp

theorem read_flag {arg : String} {name : List Char} {key : κ} (harg : arg.toList = '-' :: '-' :: name)
    (hne : name ≠ []) (hfree : '=' ∉ name) (h : t.resolve name = some (false, key)) :
    t.read arg = .options [.option key none] := by
  rw [read_long harg hne, readLong, splitValue_flag hfree]
  dsimp only
  rw [h]

theorem read_awaits {arg : String} {name : List Char} {key : κ} (harg : arg.toList = '-' :: '-' :: name)
    (hne : name ≠ []) (hfree : '=' ∉ name) (h : t.resolve name = some (true, key)) :
    t.read arg = .awaits [] key := by
  rw [read_long harg hne, readLong, splitValue_flag hfree]
  dsimp only
  rw [h]

theorem read_value {arg value : String} {name : List Char} {key : κ}
    (harg : arg.toList = '-' :: '-' :: (name ++ '=' :: value.toList)) (hfree : '=' ∉ name)
    (h : t.resolve name = some (true, key)) : t.read arg = .options [.option key (some value)] := by
  rw [read_long harg (by simp), readLong, splitValue_value hfree]
  dsimp only
  rw [h]
  simp only [String.ofList_toList]

/-! ## One argument after another -/

/-- The arguments are these events, whatever follows them. -/
def Reads (t : Table κ) (args : List String) (events : List (Event κ)) : Prop :=
  ∀ rest, t.parse (args ++ rest) = (t.parse rest).map (events ++ ·)

theorem reads_nil : t.Reads [] [] := fun rest => by simp

theorem reads_options {arg : String} {given : List (Event κ)} (h : t.read arg = .options given) :
    t.Reads [arg] given := by
  intro rest
  rw [List.singleton_append, parse, h]

theorem reads_awaits {arg : String} {key : κ} (h : t.read arg = .awaits [] key) (value : String) :
    t.Reads [arg, value] [.option key (some value)] := by
  intro rest
  rw [List.cons_append, List.singleton_append, parse, h]
  rfl

theorem Reads.append {args args' : List String} {events events' : List (Event κ)}
    (h : t.Reads args events) (h' : t.Reads args' events') :
    t.Reads (args ++ args') (events ++ events') := by
  intro rest
  rw [List.append_assoc, h, h', Option.map_map]
  congr 1
  funext more
  exact (List.append_assoc _ _ _).symm

end Table

/-! ## The last occurrence wins -/

section Last

variable {σ τ ε : Type*} {apply : σ → ε → σ} {get : σ → τ} {given : ε → Option τ}

/-- The last value that some event gives. -/
def last (given : ε → Option τ) (events : List ε) : Option τ := (events.filterMap given).getLast?

/-- A setting that each event leaves alone or replaces has the last value it was given. -/
theorem foldl_last (h : ∀ s e, get (apply s e) = (given e).getD (get s)) (events : List ε) (s : σ) :
    get (events.foldl apply s) = (last given events).getD (get s) := by
  induction events generalizing s with
  | nil => rfl
  | cons e events ih =>
    rw [List.foldl_cons, ih, h]
    cases he : given e with
    | none => rw [last, last, List.filterMap_cons_none he, Option.getD_none]
    | some v =>
      rw [last, last, List.filterMap_cons_some he, List.getLast?_cons]
      rfl

theorem exists_of_last {events : List ε} {v : τ} (h : last given events = some v) :
    ∃ e ∈ events, given e = some v :=
  List.mem_filterMap.mp (List.mem_of_getLast? h)

end Last

end Getopt
