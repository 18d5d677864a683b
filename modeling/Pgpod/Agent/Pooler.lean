import Pgpod.Core.Pooler
import Pgpod.Core.Words
import Pgpod.Effect.Threads

/-!
# The pooler agent: control requests and hold deadlines

PID 1 of a pooler container answers control requests, each in a task of its own,
by sending verbs to the admin console.  A pause arms a timer; a counter per
cluster, the generation, tells a timer whether the hold it was armed for is still
the current one.

The console reads what it is sent as text: a verb acts on the one pool it names, and
on every pool when no name is left of it.
-/

namespace Pgpod

open Effect

namespace Pooler

inductive Verb
  | pause
  | resume
  | reconnect
deriving DecidableEq, Repr

def Verb.asStr : Verb → String
  | pause => "PAUSE"
  | resume => "RESUME"
  | reconnect => "RECONNECT"

/-- A command for the admin console. -/
inductive AdminCommand
  | pool (verb : Verb) (name : String)
  | showPools
  | reload
deriving DecidableEq

def AdminCommand.render : AdminCommand → String
  | pool verb name => verb.asStr ++ " " ++ name
  | showPools => "SHOW POOLS"
  | reload => "RELOAD"

/-- Why the console did not carry out a command: it refused, or the connection broke. -/
inductive AdminError
  | refused (sql : String) (message : String)
  | io (message : String)
deriving DecidableEq

def AdminError.toString : AdminError → String
  | refused sql message => sql ++ ": " ++ message
  | io message => message

def NO_POOL : String := "No pool for database"

def isMissingPool (e : AdminError) : Bool := Text.contains e.toString NO_POOL

structure PoolStatus where
  database : String
  user : String
  paused : Bool
  clientsWaiting : UInt64
  serversActive : UInt64
  serversIdle : UInt64
deriving DecidableEq

inductive Request
  | pause (cluster : String) (hold : Option HumanDuration)
  | resume (cluster : String)
  | reconnect (cluster : String)
  | pools
  | reload
deriving DecidableEq

inductive Response
  | ok (pools : List String)
  | pools (pools : List PoolStatus)
  | error (message : String)
deriving DecidableEq

/-- The rows a command returned, parsed as `SHOW POOLS` would be. -/
abbrev QueryResult := Except String (List PoolStatus)

/-- The effects of a task of the pooler agent. -/
inductive PoolerOp : Type → Type
  | connect : PoolerOp (Except AdminError Unit)
  | execute (cmd : AdminCommand) : PoolerOp (Except AdminError QueryResult)
  | close : PoolerOp Unit
  /-- Lock the generations, add one to the cluster's, and read it. -/
  | bump (cluster : String) : PoolerOp Nat
  /-- Lock the generations and read the cluster's. -/
  | current (cluster : String) : PoolerOp Nat
  /-- Spawn the task that sleeps for the budget. -/
  | arm (cluster : String) (generation : Nat) (budget : HumanDuration) : PoolerOp Unit
  | reply (r : Response) : PoolerOp Unit

abbrev PoolerTask := Task PoolerOp AdminError

/-- Send the verb to each pool until one fails; a pool that is not there is no failure. -/
def applyEach (verb : Verb) (applied : List String) :
    List String → PoolerTask (List String × Option AdminError)
  | [] => pure (applied, none)
  | name :: rest => do
    match ← Task.attempt (Task.ask (.execute (.pool verb name))) with
    | .ok _ => applyEach verb (applied ++ [name]) rest
    | .error e => if isMissingPool e then applyEach verb applied rest else pure (applied, some e)

/-- Close the console, and report the pools or the failure. -/
def finishEach : List String × Option AdminError → PoolerTask (List String)
  | (applied, failure) => do
    Task.perform .close
    match failure with
    | some e => Task.throw e
    | none => pure applied

/-- Apply one admin verb to every pool belonging to a cluster. -/
def forEachPool (spec : PoolerSpec) (cluster : String) (verb : Verb) : PoolerTask (List String) :=
  let names := spec.poolsFor cluster
  if names.isEmpty then
    Task.throw (.io ("this pooler fronts no pools for cluster " ++ Text.debug cluster ++
      " — it serves " ++ Text.debugList (spec.clusters.map Text.debug)))
  else do
    Task.ask .connect
    let outcome ← applyEach verb [] names
    finishEach outcome

/-- Pause one cluster's pools, and arm the release. -/
def pause (spec : PoolerSpec) (cluster : String) (hold : Option HumanDuration) :
    PoolerTask Response := do
  let paused ← forEachPool spec cluster .pause
  let generation ← Task.perform (.bump cluster)
  Task.perform (.arm cluster generation (hold.getD spec.maxHold))
  pure (.ok paused)

/-- The generation is bumped before the commands are sent. -/
def resume (spec : PoolerSpec) (cluster : String) : PoolerTask (List String) := do
  let _ ← Task.perform (.bump cluster)
  forEachPool spec cluster .resume

/-- What a timer does once it has slept. -/
def expire (spec : PoolerSpec) (cluster : String) (generation : Nat) : PoolerTask Unit := do
  let current ← Task.perform (.current cluster)
  if current ≠ generation then pure ()
  else do
    let _ ← Task.attempt (δ := AdminError) (resume spec cluster)
    pure ()

def pools : PoolerTask Response := do
  Task.ask .connect
  let result ← Task.attempt (Task.ask (.execute .showPools))
  Task.perform .close
  let rows ← Task.ofExcept result
  Task.ofExcept ((rows.mapError AdminError.io).map Response.pools)

def reload : PoolerTask Response := do
  Task.ask .connect
  let result ← Task.attempt (Task.ask (.execute .reload))
  Task.perform .close
  let _ ← Task.ofExcept result
  pure (.ok [])

def dispatch (spec : PoolerSpec) : Request → PoolerTask Response
  | .pause cluster hold => pause spec cluster hold
  | .resume cluster => do
    let pools ← resume spec cluster
    pure (.ok pools)
  | .reconnect cluster => do
    let pools ← forEachPool spec cluster .reconnect
    pure (.ok pools)
  | .pools => pools
  | .reload => reload

/-- Send the response, an error being one too. -/
def answer : Except AdminError Response → Prog PoolerOp Unit
  | .ok response => .perform (.reply response)
  | .error e => .perform (.reply (.error e.toString))

/-- Answer one request. -/
def handle (spec : PoolerSpec) (request : Request) : Prog PoolerOp Unit :=
  (dispatch spec request).run.bind answer

/-! ## What the console reads -/

/-- A query message ends at its first NUL. -/
def received (text : String) : List Char := text.toList.takeWhile (· ≠ '\x00')

def isStop (c : Char) : Bool := c = ';'

/-- The commands the console reads from a message. -/
def readCommands (text : String) : List (List String) :=
  (Words.commands Text.isWhitespace isStop (received text)).map fun words =>
    words.map String.ofList

/-- The console reads the text, wherever a name may stand, as this name. -/
def ReadsAs (text name : String) : Prop :=
  Words.Lone Text.isWhitespace isStop name.toList (received text)

/-- What pg_doorman acts on: the pool named after a verb, or every pool when none is. -/
structure Doorman where
  acts : List String → String → Prop
  named (verb : Verb) (name x : String) : acts [verb.asStr, name] x ↔ x = name
  bare (verb : Verb) (x : String) : acts [verb.asStr] x

/-- A console that does nothing for what is not a verb, or a verb and a name. -/
def Doorman.plain : Doorman where
  acts
    | [_, name], x => x = name
    | [_], _ => True
    | _, _ => False
  named _ _ _ := Iff.rfl
  bare _ _ := trivial

/-! ## The console -/

/-- A pool is created by its first client. -/
inductive PoolState
  | missing
  | running
  | paused
deriving DecidableEq, Repr

structure Timer where
  cluster : String
  generation : Nat
  budget : HumanDuration
deriving DecidableEq

/-- The pools of pg_doorman, the generations, and the timers that still sleep. -/
structure PoolerState where
  pools : String → PoolState
  holds : String → Nat
  timers : List Timer

/-- What a verb does to a pool. -/
def Verb.applyTo : Verb → PoolState → PoolState
  | _, .missing => .missing
  | .pause, _ => .paused
  | .resume, _ => .running
  | .reconnect, p => p

/-- What a verb does to the pool of this name. -/
def Verb.on (verb : Verb) (name : String) (pools : String → PoolState) : String → PoolState :=
  fun x => if x = name then verb.applyTo (pools x) else pools x

/-- A command is carried out: a verb on the pools it acts on, and what lists or reloads on none.
Of any other command nothing is known. -/
inductive Carried (D : Doorman) (pools pools' : String → PoolState) : List String → Prop
  | verb {verb : Verb} {args : List String} :
      (∀ x, D.acts (verb.asStr :: args) x → pools' x = verb.applyTo (pools x)) →
      (∀ x, ¬ D.acts (verb.asStr :: args) x → pools' x = pools x) →
      Carried D pools pools' (verb.asStr :: args)
  | showPools : pools' = pools → Carried D pools pools' ["SHOW", "POOLS"]
  | reload : pools' = pools → Carried D pools pools' ["RELOAD"]
  | other {words : List String} : (∀ verb : Verb, words.head? ≠ some verb.asStr) →
      words ∉ [["SHOW", "POOLS"], ["RELOAD"]] → Carried D pools pools' words

/-- Commands are carried out in their order. -/
inductive CarriedAll (D : Doorman) :
    List (List String) → (String → PoolState) → (String → PoolState) → Prop
  | nil {pools : String → PoolState} : CarriedAll D [] pools pools
  | cons {words : List String} {rest : List (List String)}
      {pools pools₁ pools₂ : String → PoolState} : Carried D pools pools₁ words →
      CarriedAll D rest pools₁ pools₂ → CarriedAll D (words :: rest) pools pools₂

/-- The console carries out what it reads; or refuses, having carried out the commands before,
and says that a pool is not there only of a command that names it, when it is not; or breaks off. -/
inductive Console (D : Doorman) (pools : String → PoolState) (cmd : AdminCommand) :
    Except AdminError QueryResult → (String → PoolState) → Prop
  | done {pools' : String → PoolState} (q : QueryResult) :
      CarriedAll D (readCommands cmd.render) pools pools' → Console D pools cmd (.ok q) pools'
  | refused {pools' : String → PoolState} {front rest : List (List String)} {message : String} :
      readCommands cmd.render = front ++ rest → CarriedAll D front pools pools' →
      (Text.contains message NO_POOL = true → ∃ (verb : Verb) (name : String) (later : _),
        rest = [verb.asStr, name] :: later ∧ pools' name = .missing) →
      Console D pools cmd (.error (.refused cmd.render message)) pools'
  | broken {pools' : String → PoolState} {front rest : List (List String)} {message : String} :
      readCommands cmd.render = front ++ rest → CarriedAll D front pools pools' →
      Text.contains message NO_POOL = false → Console D pools cmd (.error (.io message)) pools'

/-! ## The agent -/

/-- What an operation does to the shared state. -/
def Effects (D : Doorman) : ∀ ⦃β : Type⦄, PoolerOp β → PoolerState → β → PoolerState → Prop
  | _, .connect, s, _, t => t = s
  | _, .execute cmd, s, r, t => ∃ pools, Console D s.pools cmd r pools ∧ t = { s with pools }
  | _, .close, s, _, t => t = s
  | _, .bump c, s, g, t =>
    g = s.holds c + 1 ∧ t = { s with holds := fun c' => if c' = c then s.holds c + 1 else s.holds c' }
  | _, .current c, s, g, t => g = s.holds c ∧ t = s
  | _, .arm c g budget, s, _, t => t = { s with timers := ⟨c, g, budget⟩ :: s.timers }
  | _, .reply _, s, _, t => t = s

/-- What a task was spawned for. -/
inductive Origin
  | request (r : Request)
  | timer (cluster : String)
deriving DecidableEq

/-- The cluster a task works for. -/
def Origin.cluster : Origin → Option String
  | .request (.pause cluster _) | .request (.resume cluster) | .request (.reconnect cluster)
  | .timer cluster => some cluster
  | .request .pools | .request .reload => none

/-- What brings a task up: a request, or a timer that has slept its budget. -/
inductive Arrives (spec : PoolerSpec) : PoolerState → PoolerState → Thread PoolerOp Origin → Prop
  | request {s : PoolerState} (r : Request) : Arrives spec s s ⟨.request r, handle spec r⟩
  | timer {s : PoolerState} {before after : List Timer} {timer : Timer} :
      s.timers = before ++ timer :: after →
      Arrives spec s { s with timers := before ++ after }
        ⟨.timer timer.cluster,
          (expire spec timer.cluster timer.generation).run.bind fun _ => .ret ()⟩

/-- pg_doorman changes pools on its own, but pauses none. -/
def Settles (s t : PoolerState) : Prop :=
  t.holds = s.holds ∧ t.timers = s.timers ∧
    ∀ x, t.pools x = .paused → s.pools x = .paused

/-- The pooler agent: any number of requests and timers at once. -/
def agent (D : Doorman) (spec : PoolerSpec) : System PoolerOp PoolerState Origin where
  step _ _ op s b t := Effects D op s b t
  drift := Settles
  start := Arrives spec

/-! ## Plain names -/

/-- The console reads every pool's name as the name it is: one word, without blanks, `;` or NUL. -/
def PlainNames (spec : PoolerSpec) : Prop := ∀ pool ∈ spec.pools, ReadsAs pool.name pool.name

theorem PlainNames.poolsFor {spec : PoolerSpec} (h : PlainNames spec) {c x : String}
    (hx : x ∈ spec.poolsFor c) : ReadsAs x x := by
  obtain ⟨pool, hpool, rfl⟩ := List.mem_map.mp hx
  exact h pool (List.mem_filter.mp hpool).1

theorem readCommands_command {verb : Verb} {x name : String} :
    readCommands (AdminCommand.pool verb x).render = [[verb.asStr, name]] ↔ ReadsAs x name := by
  have hverb : ∀ c ∈ verb.asStr.toList, Text.isWhitespace c = false ∧ isStop c = false ∧
      c ≠ '\x00' := by
    have hall : verb.asStr.toList.all (fun c =>
        !Text.isWhitespace c && !isStop c && c != '\x00') = true := by
      cases verb <;> decide
    intro c hc
    simpa [and_assoc] using List.all_eq_true.mp hall c hc
  have hreceived : received (AdminCommand.pool verb x).render =
      verb.asStr.toList ++ ' ' :: received x := by
    have hclear : ∀ c ∈ verb.asStr.toList ++ [' '], decide (c ≠ '\x00') = true := by
      intro c hc
      rcases List.mem_append.mp hc with hc | hc
      · exact decide_eq_true (hverb c hc).2.2
      · rw [List.mem_singleton.mp hc]
        decide
    have happend : (AdminCommand.pool verb x).render.toList =
        (verb.asStr.toList ++ [' ']) ++ x.toList := by
      simp [AdminCommand.render]
    rw [received, happend, List.takeWhile_append_of_pos hclear, List.append_assoc]
    rfl
  have hblank : ∀ c, Text.isWhitespace c = true → isStop c = false := by
    intro c hc
    by_cases hstop : c = ';'
    · subst hstop
      exact absurd hc (by decide)
    · exact decide_eq_false hstop
  have hpair : Words.commands Text.isWhitespace isStop (verb.asStr.toList ++ ' ' :: received x) =
      [[verb.asStr.toList, name.toList]] ↔ ReadsAs x name :=
    Words.commands_eq_pair_iff (by cases verb <;> decide)
      (fun c hc => ⟨(hverb c hc).1, (hverb c hc).2.1⟩) (by decide) hblank
  have hinj : Function.Injective fun words : List (List Char) => words.map String.ofList :=
    List.map_injective_iff.mpr fun _ _ h => by simpa using congrArg String.toList h
  have hwords : [[verb.asStr, name]] =
      [[verb.asStr.toList, name.toList]].map fun words : List (List Char) =>
        words.map String.ofList := by
    simp
  rw [readCommands, hreceived, hwords, (List.map_injective_iff.mpr hinj).eq_iff, hpair]

theorem ReadsAs.blank_not_mem {x name : String} (h : ReadsAs x name) : ' ' ∉ name.toList := by
  intro hmem
  exact absurd (h.2.1 ' ' hmem).1 (by decide)

/-- A refusal is taken for a pool that is not there by what the console says, not by the name. -/
theorem isMissingPool_refused (verb : Verb) (message : String) {x : String} (hx : ReadsAs x x) :
    isMissingPool (.refused (AdminCommand.pool verb x).render message) =
      Text.contains message NO_POOL := by
  have htext : (AdminError.refused (AdminCommand.pool verb x).render message).toString.toList =
      (verb.asStr.toList ++ ' ' :: x.toList) ++ ':' :: ' ' :: message.toList := by
    simp [AdminError.toString, AdminCommand.render]
  have hcolon : ':' ∉ NO_POOL.toList := by decide
  -- the console's words have three blanks, and the command has one
  have hcommand : ¬ NO_POOL.toList <:+: verb.asStr.toList ++ ' ' :: x.toList := by
    intro hinfix
    have hcount := hinfix.sublist.count_le ' '
    have hverb : verb.asStr.toList.count ' ' = 0 := by cases verb <;> decide
    have hneedle : NO_POOL.toList.count ' ' = 3 := by decide
    rw [List.count_append, List.count_cons_self, hverb, hneedle,
      List.count_eq_zero.mpr hx.blank_not_mem] at hcount
    omega
  have hstart : NO_POOL.toList = 'N' :: NO_POOL.toList.tail := by decide
  rw [isMissingPool, Bool.eq_iff_iff, Text.contains_eq_true, Text.contains_eq_true, htext,
    Words.infix_append_cons hcolon, or_iff_right hcommand, List.infix_cons_iff]
  refine or_iff_right ?_
  rw [hstart, List.cons_prefix_cons]
  exact fun h => absurd h.1 (by decide)

theorem Verb.asStr_inj {verb verb' : Verb} (h : verb.asStr = verb'.asStr) : verb = verb' := by
  revert h
  cases verb <;> cases verb' <;> decide

section

variable {D : Doorman} {pools pools' : String → PoolState}

/-- A verb and a name act on that pool. -/
theorem carried_named {verb : Verb} {x : String} :
    Carried D pools pools' [verb.asStr, x] ↔ pools' = verb.on x pools := by
  constructor
  · intro h
    generalize hwords : [verb.asStr, x] = words at h
    cases h with
    | verb hacts hspares =>
      obtain ⟨hverb, rfl⟩ := List.cons.inj hwords
      obtain rfl := Verb.asStr_inj hverb
      funext y
      rw [Verb.on]
      by_cases hy : y = x
      · rw [if_pos hy]
        exact hacts y ((D.named _ _ _).mpr hy)
      · rw [if_neg hy]
        exact hspares y fun hact => hy ((D.named _ _ _).mp hact)
    | showPools _ => cases verb <;> exact absurd hwords (by simp [Verb.asStr])
    | reload _ => cases verb <;> exact absurd hwords (by simp [Verb.asStr])
    | other hverb _ =>
      rw [← hwords] at hverb
      exact absurd rfl (hverb verb)
  · rintro rfl
    refine .verb (fun y hact => ?_) fun y hact => ?_
    · exact if_pos ((D.named _ _ _).mp hact)
    · exact if_neg fun hy => hact ((D.named _ _ _).mpr hy)

theorem carriedAll_singleton {words : List String} :
    CarriedAll D [words] pools pools' ↔ Carried D pools pools' words := by
  constructor
  · rintro (_ | ⟨h, ⟨⟩⟩)
    exact h
  · intro h
    exact .cons h .nil

/-- What comes of a verb and a plain name. -/
inductive Acted (verb : Verb) (x : String) (pools : String → PoolState) :
    Except AdminError QueryResult → (String → PoolState) → Prop
  | done (q : QueryResult) : Acted verb x pools (.ok q) (verb.on x pools)
  | noPool {e : AdminError} : pools x = .missing → isMissingPool e = true →
      Acted verb x pools (.error e) pools
  | failed {e : AdminError} (took : Bool) : isMissingPool e = false →
      Acted verb x pools (.error e) (if took then verb.on x pools else pools)

/-- **A command with a plain name** is carried out, or not, on the pool of that name; and only a
pool that is not there passes for one. -/
theorem Console.acted {verb : Verb} {x : String} {r : Except AdminError QueryResult}
    (hx : ReadsAs x x) (h : Console D pools (.pool verb x) r pools') : Acted verb x pools r pools' := by
  have hread : readCommands (AdminCommand.pool verb x).render = [[verb.asStr, x]] :=
    readCommands_command.mpr hx
  -- of one command either none is carried out, or all
  have hcut : ∀ {front rest : List (List String)}, [[verb.asStr, x]] = front ++ rest →
      CarriedAll D front pools pools' → (rest = [[verb.asStr, x]] ∧ pools' = pools) ∨
        rest = [] ∧ pools' = verb.on x pools := by
    intro front rest hsplit hcarried
    rcases List.singleton_eq_append_iff.mp hsplit with ⟨rfl, rfl⟩ | ⟨rfl, rfl⟩
    · cases hcarried
      exact .inl ⟨rfl, rfl⟩
    · exact .inr ⟨rfl, carried_named.mp (carriedAll_singleton.mp hcarried)⟩
  cases h with
  | done q hcarried =>
    rw [hread, carriedAll_singleton, carried_named] at hcarried
    rw [hcarried]
    exact .done q
  | @refused _ front rest message hsplit hcarried hmissing =>
    rw [hread] at hsplit
    have hsame := isMissingPool_refused verb message hx
    rcases hcut hsplit hcarried with ⟨rfl, rfl⟩ | ⟨rfl, rfl⟩
    · cases hcontains : Text.contains message NO_POOL with
      | true =>
        obtain ⟨verb', name, later, hrest, hpool⟩ := hmissing hcontains
        obtain ⟨hwords, -⟩ := List.cons.inj hrest
        obtain ⟨-, hname⟩ := List.cons.inj hwords
        obtain rfl := (List.cons.inj hname).1
        exact .noPool hpool (hsame.trans hcontains)
      | false => exact .failed false (hsame.trans hcontains)
    · refine .failed true (hsame.trans ?_)
      by_contra hcontains
      obtain ⟨verb', name, later, hrest, -⟩ := hmissing (by simpa using hcontains)
      cases hrest
  | broken hsplit hcarried hmessage =>
    rw [hread] at hsplit
    rcases hcut hsplit hcarried with ⟨-, rfl⟩ | ⟨-, rfl⟩
    · exact .failed false hmessage
    · exact .failed true hmessage

/-- A command that names no pool leaves the pools. -/
theorem Console.kept {cmd : AdminCommand} {r : Except AdminError QueryResult}
    (hcmd : cmd = .showPools ∨ cmd = .reload) (h : Console D pools cmd r pools') : pools' = pools := by
  obtain ⟨words, hread, hwords⟩ : ∃ words, readCommands cmd.render = [words] ∧
      words ∈ [["SHOW", "POOLS"], ["RELOAD"]] := by
    rcases hcmd with rfl | rfl
    · exact ⟨["SHOW", "POOLS"], by decide, by decide⟩
    · exact ⟨["RELOAD"], by decide, by decide⟩
  have hkept : ∀ {pools' : String → PoolState}, Carried D pools pools' words → pools' = pools := by
    intro pools' hcarried
    cases hcarried with
    | @verb verb args _ _ =>
      cases verb <;> exact absurd hwords (by simp [Verb.asStr])
    | showPools hsame => exact hsame
    | reload hsame => exact hsame
    | other _ hother => exact absurd hwords hother
  have hcut : ∀ {front rest : List (List String)}, [words] = front ++ rest →
      CarriedAll D front pools pools' → pools' = pools := by
    intro front rest hsplit hcarried
    rcases List.singleton_eq_append_iff.mp hsplit with ⟨rfl, rfl⟩ | ⟨rfl, rfl⟩
    · cases hcarried
      rfl
    · exact hkept (carriedAll_singleton.mp hcarried)
  cases h with
  | done q hcarried =>
    rw [hread, carriedAll_singleton] at hcarried
    exact hkept hcarried
  | refused hsplit hcarried _ => exact hcut (hread ▸ hsplit) hcarried
  | broken hsplit hcarried _ => exact hcut (hread ▸ hsplit) hcarried

/-- A command with a plain name may be carried out. -/
theorem Console.done_named {verb : Verb} {x : String} (hx : ReadsAs x x) (q : QueryResult) :
    Console D pools (.pool verb x) (.ok q) (verb.on x pools) := by
  refine .done q ?_
  rw [readCommands_command.mpr hx, carriedAll_singleton, carried_named]

end

end Pooler

end Pgpod
