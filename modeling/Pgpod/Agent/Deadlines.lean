import Pgpod.Agent.Holds

/-!
# What ends a hold

The pooler agent again, with a clock: a deadline wakes up once it has slept its budget.
A RESUME ends a hold before its time when it was already on its way as the pause
returned, the generation having been checked before it was bumped; or when a deadline
of the newest generation is earlier than that of a hold which still stands.
-/

namespace Pgpod

open Effect

namespace Pooler

/-! ## The clock -/

/-- A timer, and when it has slept its budget, in milliseconds. -/
structure Hold where
  timer : Timer
  due : Nat
deriving DecidableEq

/-- What a task was spawned for: a request, the `n`th to arrive, or a deadline. -/
inductive Errand
  | request (n : Nat) (r : Request)
  | deadline (h : Hold)
deriving DecidableEq

def Errand.origin : Errand → Origin
  | request _ r => .request r
  | deadline h => .timer h.timer.cluster

/-- The agent's state and the time.  Of each errand, the hold that it armed; and the holds of
the pauses that returned `Ok` and whose cluster no Resume request has arrived for since. -/
structure Timed where
  pools : String → PoolState
  holds : String → Nat
  sleeping : List Hold
  now : Nat
  requests : Nat
  armed : Errand → Option Hold
  held : List Hold

def Timed.pooler (s : Timed) : PoolerState := ⟨s.pools, s.holds, s.sleeping.map Hold.timer⟩

/-- What an operation of an errand leaves on record. -/
def Timed.record (s : Timed) (e : Errand) : ∀ ⦃β : Type⦄, PoolerOp β → Timed
  | _, .arm c g budget =>
    let hold : Hold := ⟨⟨c, g, budget⟩, s.now + budget.millis.toNat⟩
    { s with
      sleeping := hold :: s.sleeping
      armed := fun e' => if e' = e then some hold else s.armed e' }
  | _, .reply (.ok _) => { s with held := (s.armed e).toList ++ s.held }
  | _, _ => s

/-- Time passes, and pg_doorman changes pools on its own. -/
structure Passes (s t : Timed) : Prop where
  settles : Settles s.pooler t.pooler
  now : s.now ≤ t.now
  same : t = { s with pools := t.pools, now := t.now }

/-- A request ends the holds of the cluster it resumes; a deadline comes up when it is due. -/
inductive Comes (spec : PoolerSpec) : Timed → Timed → Thread PoolerOp Errand → Prop
  | request {s : Timed} (r : Request) : Comes spec s
      { s with
        requests := s.requests + 1
        held := s.held.filter fun h => r ≠ .resume h.timer.cluster }
      ⟨.request s.requests r, handle spec r⟩
  | deadline {s : Timed} {before after : List Hold} {hold : Hold} :
      s.sleeping = before ++ hold :: after → hold.due ≤ s.now →
      Comes spec s { s with sleeping := before ++ after }
        ⟨.deadline hold,
          (expire spec hold.timer.cluster hold.timer.generation).run.bind fun _ => .ret ()⟩

/-- The pooler agent under a clock. -/
def timed (D : Doorman) (spec : PoolerSpec) : System PoolerOp Timed Errand where
  step th _ op s b t := Effects D op s.pooler b t.pooler ∧
    t = { s.record th.role op with pools := t.pools, holds := t.holds }
  drift := Passes
  start := Comes spec

/-- The configuration without its clock. -/
def untimed (c : Config PoolerOp Timed Errand) : Config PoolerOp PoolerState Origin :=
  ⟨c.state.pooler, c.threads.map fun th => ⟨th.role.origin, th.prog⟩⟩

/-- **The clock adds no step** to the agent. -/
theorem timed_step {D : Doorman} {spec : PoolerSpec} {c d : Config PoolerOp Timed Errand}
    (h : (timed D spec).Step c d) : (agent D spec).Step (untimed c) (untimed d) := by
  cases h with
  | act h =>
    simp only [untimed, List.map_append, List.map_cons]
    exact .act h.1
  | drift h => exact .drift h.settles
  | @start ths s t th h =>
    simp only [untimed, List.map_append, List.map_cons, List.map_nil]
    refine .start ?_
    cases h with
    | request r => exact .request r
    | @deadline before after hold hsplit _ =>
      have htimers : s.pooler.timers =
          before.map Hold.timer ++ hold.timer :: after.map Hold.timer := by
        rw [Timed.pooler, hsplit, List.map_append, List.map_cons]
      have harrives : Arrives spec s.pooler _ _ := .timer htimers
      rw [← List.map_append] at harrives
      exact harrives

/-! ## Releases -/

/-- The operation is no RESUME. -/
def Silent : ∀ ⦃β : Type⦄, PoolerOp β → Prop
  | _, .execute (.pool .resume _) => False
  | _, _ => True

def Errand.Releases (c : String) : Errand → Prop
  | request _ r => r = .resume c
  | deadline h => h.timer.cluster = c

/-- The next operation is to check the generation of the cluster. -/
def AtCheck (c : String) : Prog PoolerOp Unit → Prop
  | .call (.current c') _ => c' = c
  | _ => False

/-- The task may still send a RESUME to the cluster's pools, and no check of the generation is
before it. -/
def Releasing (c : String) (th : Thread PoolerOp Errand) : Prop :=
  th.role.Releases c ∧ ¬ th.prog.Calls Silent ∧ ¬ AtCheck c th.prog

/-- The hold's own budget is over, and the task is for a deadline that is no older. -/
def Over (h : Hold) (now : Nat) (e : Errand) : Prop :=
  h.due ≤ now ∧ ∃ h', e = .deadline h' ∧ h.timer.generation ≤ h'.timer.generation

/-- The deadline sleeps, or is awake and about to check the generation. -/
def Pending (c : Config PoolerOp Timed Errand) (h : Hold) : Prop :=
  h ∈ c.state.sleeping ∨
    ∃ th ∈ c.threads, th.role = .deadline h ∧ AtCheck h.timer.cluster th.prog

/-- The deadline is of the newest generation of the cluster. -/
def Hold.Newest (h : Hold) (s : Timed) (c : String) : Prop :=
  h.timer.cluster = c ∧ h.timer.generation = s.holds c

/-- When a pause returns `Ok`, no release of its cluster is under way and the newest deadline is
not before its own; and no newer deadline is armed that is before that of a hold which stands. -/
structure Orderly (c d : Config PoolerOp Timed Errand) : Prop where
  alone : ∀ h ∈ d.state.held, h ∉ c.state.held → ∀ th ∈ c.threads,
    Releasing h.timer.cluster th → Over h c.state.now th.role
  lasts : ∀ h ∈ d.state.held, h ∉ c.state.held → ∀ h', Pending c h' →
    h'.Newest c.state h.timer.cluster → h.due ≤ h'.due
  outlasts : ∀ h' ∈ d.state.sleeping, h' ∉ c.state.sleeping → ∀ h ∈ c.state.held,
    h'.Newest c.state h.timer.cluster → h.due ≤ h'.due

/-! ## What a task may still do -/

/-- Neither a RESUME nor the arming of a deadline, nor the check of one. -/
def Calm : ∀ ⦃β : Type⦄, PoolerOp β → Prop
  | _, .execute (.pool .resume _) | _, .arm .. | _, .current _ => False
  | _, _ => True

/-- A RESUME of a pool of the cluster, or what is calm. -/
def Resumes (spec : PoolerSpec) (c : String) : ∀ ⦃β : Type⦄, PoolerOp β → Prop
  | _, .execute (.pool .resume x) => x ∈ spec.poolsFor c
  | _, .arm .. | _, .current _ => False
  | _, _ => True

/-- What a pause may do next: arm a generation of its cluster that has been made. -/
def Early (c : String) (newest : Nat) : ∀ ⦃β : Type⦄, PoolerOp β → Prop
  | _, .execute (.pool .resume _) | _, .current _ => False
  | _, .arm c' g _ => c' = c ∧ g ≤ newest
  | _, _ => True

/-- The rest of a pause: it arms no generation beyond `newest`, but one it has yet to make. -/
inductive Pausing (c : String) (newest : Nat) : Prog PoolerOp Unit → Prop
  | calm {p : Prog PoolerOp Unit} : p.Calls Calm → Pausing c newest p
  | pausing {p : Prog PoolerOp (Except AdminError (List String))}
      {K : Except AdminError (List String) → Prog PoolerOp Unit} : p.Calls Calm →
      (∀ e, (K (.error e)).Calls Calm) →
      (∀ paused, ∃ budget rest, rest.Calls Calm ∧
        K (.ok paused) = .call (.bump c) fun g => .call (.arm c g budget) fun _ => rest) →
      Pausing c newest (p.bind K)
  | bump {budget : HumanDuration} {rest : Prog PoolerOp Unit} : rest.Calls Calm →
      Pausing c newest (.call (.bump c) fun g => .call (.arm c g budget) fun _ => rest)
  | arm {g : Nat} {budget : HumanDuration} {rest : Prog PoolerOp Unit} : g ≤ newest →
      rest.Calls Calm → Pausing c newest (.call (.arm c g budget) fun _ => rest)

/-- The deadline is about to check its generation. -/
def Checking (spec : PoolerSpec) (h : Hold) : Prog PoolerOp Unit → Prop
  | .call (.current c) next => c = h.timer.cluster ∧
    (next h.timer.generation).Calls (Resumes spec h.timer.cluster) ∧
    ∀ g, g ≠ h.timer.generation → next g = .ret ()
  | _ => False

/-- What a task may still do, by its errand. -/
def Does (spec : PoolerSpec) (holds : String → Nat) : Errand → Prog PoolerOp Unit → Prop
  | .request _ (.pause c _), p => Pausing c (holds c) p
  | .request _ (.resume c), p => p.Calls (Resumes spec c)
  | .request .., p => p.Calls Calm
  | .deadline h, p => Checking spec h p ∨ p.Calls (Resumes spec h.timer.cluster)

section

variable {D : Doorman} {spec : PoolerSpec} {c : String} {e : Errand} {β : Type} {op : PoolerOp β}
  {b : β} {next : β → Prog PoolerOp Unit}

/-- Generations only grow. -/
theorem Effects.holds_le {s t : PoolerState} (h : Effects D op s b t) (c : String) :
    s.holds c ≤ t.holds c := by
  cases op with
  | bump c' =>
    obtain ⟨-, rfl⟩ := h
    by_cases hc : c = c'
    · subst hc
      simp
    · simp [hc]
  | execute cmd =>
    obtain ⟨pools, -, rfl⟩ := h
    exact le_rfl
  | current c' =>
    obtain ⟨-, rfl⟩ := h
    exact le_rfl
  | arm c' g budget =>
    obtain rfl := h
    exact le_rfl
  | connect | close | reply =>
    obtain rfl := h
    exact le_rfl

theorem Pausing.mono {n m : Nat} (hle : n ≤ m) {p : Prog PoolerOp Unit} (h : Pausing c n p) :
    Pausing c m p := by
  cases h with
  | calm hcalm => exact .calm hcalm
  | pausing hcalm herror hok => exact .pausing hcalm herror hok
  | bump hrest => exact .bump hrest
  | arm hg hrest => exact .arm (hg.trans hle) hrest

theorem Pausing.step {s t : PoolerState} (h : Pausing c (s.holds c) (.call op next))
    (heff : Effects D op s b t) : Pausing c (t.holds c) (next b) := by
  generalize hp : Prog.call op next = p at h
  cases h with
  | calm hcalm =>
    subst hp
    exact .calm (hcalm.2 b)
  | @pausing q K hcalm herror hok =>
    cases q with
    | ret r =>
      cases r with
      | error e =>
        have hrest := herror e
        rw [Prog.ret_bind] at hp
        rw [← hp] at hrest
        exact .calm (hrest.2 b)
      | ok paused =>
        obtain ⟨budget, rest, hrest, hK⟩ := hok paused
        rw [Prog.ret_bind, hK] at hp
        cases hp
        obtain ⟨rfl, rfl⟩ := heff
        exact .arm (by simp) hrest
    | call op' next' =>
      cases hp
      exact .pausing (hcalm.2 b) herror hok
  | bump hrest =>
    cases hp
    obtain ⟨rfl, rfl⟩ := heff
    exact .arm (by simp) hrest
  | arm hg hrest =>
    cases hp
    exact .calm hrest

theorem Calm.early {n : Nat} (h : Calm op) : Early c n op := by
  cases op with
  | execute cmd =>
    cases cmd with
    | pool verb x =>
      cases verb with
      | resume => exact h
      | pause | reconnect => trivial
    | showPools | reload => trivial
  | arm | current => exact h.elim
  | connect | close | bump | reply => trivial

theorem Pausing.early {n : Nat} (h : Pausing c n (.call op next)) : Early c n op := by
  generalize hp : Prog.call op next = p at h
  cases h with
  | calm hcalm =>
    subst hp
    exact hcalm.1.early
  | @pausing q K hcalm herror hok =>
    cases q with
    | ret r =>
      cases r with
      | error e =>
        have hrest := herror e
        rw [Prog.ret_bind] at hp
        rw [← hp] at hrest
        exact hrest.1.early
      | ok paused =>
        obtain ⟨budget, rest, hrest, hK⟩ := hok paused
        rw [Prog.ret_bind, hK] at hp
        cases hp
        trivial
    | call op' next' =>
      cases hp
      exact hcalm.1.early
  | bump hrest =>
    cases hp
    trivial
  | arm hg hrest =>
    cases hp
    exact ⟨rfl, hg⟩

theorem Does.mono {holds holds' : String → Nat} (hle : ∀ c, holds c ≤ holds' c)
    {p : Prog PoolerOp Unit} (h : Does spec holds e p) : Does spec holds' e p := by
  cases e with
  | request n r =>
    cases r with
    | pause c hold => exact Pausing.mono (hle c) h
    | resume | reconnect | pools | reload => exact h
  | deadline hold => exact h

/-- A deadline that takes a step is past its check. -/
theorem Does.past {s t : PoolerState} {h : Hold}
    (hdoes : Does spec s.holds (.deadline h) (.call op next)) (heff : Effects D op s b t) :
    (next b).Calls (Resumes spec h.timer.cluster) := by
  rcases hdoes with hcheck | hcalls
  · cases op with
    | current c =>
      obtain ⟨rfl, hnewest, hstale⟩ := hcheck
      obtain ⟨rfl, -⟩ := heff
      by_cases hg : s.holds h.timer.cluster = h.timer.generation
      · rw [hg]
        exact hnewest
      · rw [hstale _ hg]
        trivial
    | _ => exact hcheck.elim
  · exact hcalls.2 b

theorem Does.step {s t : PoolerState} (h : Does spec s.holds e (.call op next))
    (heff : Effects D op s b t) : Does spec t.holds e (next b) := by
  cases e with
  | request n r =>
    cases r with
    | pause c hold => exact Pausing.step h heff
    | resume | reconnect | pools | reload => exact h.2 b
  | deadline hold => exact .inr (Does.past h heff)

/-- Only a pause arms, and a generation that has been made. -/
theorem Does.arm {holds : String → Nat} {g : Nat} {budget : HumanDuration}
    {next : Unit → Prog PoolerOp Unit} (h : Does spec holds e (.call (.arm c g budget) next)) :
    g ≤ holds c := by
  cases e with
  | request n r =>
    cases r with
    | pause c' hold =>
      obtain ⟨rfl, hg⟩ := Pausing.early h
      exact hg
    | resume | reconnect | pools | reload => exact h.1.elim
  | deadline hold =>
    rcases h with hcheck | h
    · exact hcheck.elim
    · exact h.1.elim

/-- Only what releases a cluster sends a RESUME, and to its pools. -/
theorem Does.resume {holds : String → Nat} {x : String}
    {next : Except AdminError QueryResult → Prog PoolerOp Unit}
    (h : Does spec holds e (.call (.execute (.pool .resume x)) next)) :
    ∃ c, e.Releases c ∧ x ∈ spec.poolsFor c := by
  cases e with
  | request n r =>
    cases r with
    | pause c' hold => exact (Pausing.early h).elim
    | resume c => exact ⟨c, rfl, h.1⟩
    | reconnect | pools | reload => exact h.1.elim
  | deadline hold =>
    rcases h with hcheck | h
    · exact hcheck.elim
    · exact ⟨_, rfl, h.1⟩

/-- Only a deadline checks the generation. -/
theorem Does.current {holds : String → Nat} {next : Nat → Prog PoolerOp Unit}
    (h : Does spec holds e (.call (.current c) next)) :
    ∃ hold, e = .deadline hold ∧ c = hold.timer.cluster ∧
      ∀ g, g ≠ hold.timer.generation → next g = .ret () := by
  cases e with
  | request n r =>
    cases r with
    | pause c' hold => exact (Pausing.early h).elim
    | resume | reconnect | pools | reload => exact h.1.elim
  | deadline hold =>
    rcases h with ⟨hc, -, hstale⟩ | h
    · exact ⟨hold, rfl, hc, hstale⟩
    · exact h.1.elim

end

/-! ## Every interleaving -/

/-- What holds of the deadlines and the releases, as long as the steps are orderly. -/
structure Kept (spec : PoolerSpec) (c : Config PoolerOp Timed Errand) : Prop where
  does : ∀ th ∈ c.threads, Does spec c.state.holds th.role th.prog
  due : ∀ th ∈ c.threads, ∀ h, th.role = .deadline h → h.due ≤ c.state.now
  made : ∀ h, Pending c h ∨ h ∈ c.state.held ∨ (∃ e, c.state.armed e = some h) →
    h.timer.generation ≤ c.state.holds h.timer.cluster
  lasts : ∀ h ∈ c.state.held, ∀ h', Pending c h' → h'.Newest c.state h.timer.cluster →
    h.due ≤ h'.due
  ended : ∀ h ∈ c.state.held, ∀ th ∈ c.threads, Releasing h.timer.cluster th →
    Over h c.state.now th.role

section

variable {D : Doorman} {spec : PoolerSpec} {pre post : List (Thread PoolerOp Errand)}
  {role : Errand} {β : Type} {op : PoolerOp β} {next : β → Prog PoolerOp Unit} {s t : Timed} {b : β}

/-- What is new on record was armed just now, or had been armed when its pause returned. -/
theorem record_made (hdoes : Does spec s.holds role (.call op next)) :
    (∀ h ∈ (s.record role op).sleeping, h ∈ s.sleeping ∨
      h.timer.generation ≤ s.holds h.timer.cluster) ∧
    (∀ e h, (s.record role op).armed e = some h → s.armed e = some h ∨
      h.timer.generation ≤ s.holds h.timer.cluster) ∧
    (∀ h ∈ (s.record role op).held, h ∈ s.held ∨ ∃ e, s.armed e = some h) := by
  cases op with
  | arm c g budget =>
    have hg := hdoes.arm
    refine ⟨fun h hh => ?_, fun e h he => ?_, fun h hh => .inl hh⟩
    · rcases List.mem_cons.mp hh with rfl | hh
      · exact .inr hg
      · exact .inl hh
    · simp only [Timed.record] at he
      split at he
      · obtain rfl := Option.some.inj he
        exact .inr hg
      · exact .inl he
  | reply r =>
    cases r with
    | ok pools =>
      refine ⟨fun h hh => .inl hh, fun e h he => .inl he, fun h hh => ?_⟩
      rcases List.mem_append.mp hh with hnew | hold
      · exact .inr ⟨role, Option.mem_toList.mp hnew⟩
      · exact .inl hold
    | pools | error => exact ⟨fun h hh => .inl hh, fun e h he => .inl he, fun h hh => .inl hh⟩
  | connect | execute | close | bump | current =>
    exact ⟨fun h hh => .inl hh, fun e h he => .inl he, fun h hh => .inl hh⟩

/-- One operation arms, or lets a pause return. -/
theorem record_held_or_sleeping (s : Timed) (e : Errand) (op : PoolerOp β) :
    (s.record e op).held = s.held ∨ (s.record e op).sleeping = s.sleeping := by
  cases op with
  | reply r => cases r <;> exact .inr rfl
  | _ => exact .inl rfl

theorem record_now (s : Timed) (e : Errand) (op : PoolerOp β) : (s.record e op).now = s.now := by
  cases op with
  | reply r => cases r <;> rfl
  | _ => rfl

/-- A deadline that is pending after a step was pending, or is armed by it. -/
theorem Pending.back {c d : Config PoolerOp Timed Errand}
    (hc : c = ⟨s, pre ++ ⟨role, .call op next⟩ :: post⟩)
    (hd : d = ⟨t, pre ++ ⟨role, next b⟩ :: post⟩)
    (hdoes : Does spec s.holds role (.call op next)) (heff : Effects D op s.pooler b t.pooler)
    {h : Hold} (hpending : Pending d h) :
    Pending c h ∨ h ∈ t.sleeping ∧ h ∉ s.sleeping := by
  subst hc hd
  rcases hpending with hsleeps | ⟨th, hth, hrole, hcheck⟩
  · by_cases hold : h ∈ s.sleeping
    · exact .inl (.inl hold)
    · exact .inr ⟨hsleeps, hold⟩
  · have hmem : th = ⟨role, next b⟩ ∨ th ∈ pre ++ ⟨role, .call op next⟩ :: post := mem_replace hth
    rcases hmem with rfl | hmem
    · -- the task that steps is past its check
      obtain rfl := hrole
      have hpast := Does.past (s := s.pooler) hdoes heff
      cases hnext : next b with
      | ret u =>
        rw [hnext] at hcheck
        exact hcheck.elim
      | call op' next' =>
        simp only [hnext] at hcheck hpast
        cases op' with
        | current => exact hpast.1.elim
        | _ => exact hcheck.elim
    · exact .inl (.inr ⟨th, hmem, hrole, hcheck⟩)

theorem Kept.act (hinv : Kept spec ⟨s, pre ++ ⟨role, .call op next⟩ :: post⟩)
    (heff : Effects D op s.pooler b t.pooler)
    (ht : t = { s.record role op with pools := t.pools, holds := t.holds })
    (hord : Orderly ⟨s, pre ++ ⟨role, .call op next⟩ :: post⟩ ⟨t, pre ++ ⟨role, next b⟩ :: post⟩) :
    Kept spec ⟨t, pre ++ ⟨role, next b⟩ :: post⟩ := by
  have hdoes := hinv.does ⟨role, .call op next⟩ (by simp)
  obtain ⟨hsleeping, harmed, hheld⟩ := record_made hdoes
  have hle : ∀ c, s.holds c ≤ t.holds c := Effects.holds_le (s := s.pooler) heff
  have hnow : t.now = s.now := by
    rw [ht]
    exact record_now s role op
  have htsleeping : t.sleeping = (s.record role op).sleeping := by rw [ht]
  have htarmed : t.armed = (s.record role op).armed := by rw [ht]
  have htheld : t.held = (s.record role op).held := by rw [ht]
  have hpending : ∀ h, Pending ⟨t, pre ++ ⟨role, next b⟩ :: post⟩ h →
      Pending ⟨s, pre ++ ⟨role, .call op next⟩ :: post⟩ h ∨ h ∈ t.sleeping ∧ h ∉ s.sleeping :=
    fun h hpending => hpending.back rfl rfl hdoes heff
  have hmade : ∀ h, Pending ⟨t, pre ++ ⟨role, next b⟩ :: post⟩ h ∨ h ∈ t.held ∨
      (∃ e, t.armed e = some h) → h.timer.generation ≤ s.holds h.timer.cluster := by
    rintro h (hp | hh | ⟨e, he⟩)
    · rcases hpending h hp with hold | ⟨hnew, hfresh⟩
      · exact hinv.made h (.inl hold)
      · rw [htsleeping] at hnew
        exact (hsleeping h hnew).resolve_left hfresh
    · rw [htheld] at hh
      exact hinv.made h (.inr (hheld h hh))
    · rw [htarmed] at he
      rcases harmed e h he with hold | hg
      · exact hinv.made h (.inr (.inr ⟨e, hold⟩))
      · exact hg
  have hlasts : ∀ h ∈ t.held, ∀ h', Pending ⟨s, pre ++ ⟨role, .call op next⟩ :: post⟩ h' →
      h'.Newest s h.timer.cluster → h.due ≤ h'.due := by
    intro h hh h' hp hnewest
    by_cases hold : h ∈ s.held
    · exact hinv.lasts h hold h' hp hnewest
    · exact hord.lasts h hh hold h' hp hnewest
  have hover : ∀ h ∈ t.held, ∀ th ∈ pre ++ ⟨role, .call op next⟩ :: post,
      Releasing h.timer.cluster th → Over h t.now th.role := by
    intro h hh th hth hreleasing
    rw [hnow]
    by_cases hold : h ∈ s.held
    · exact hinv.ended h hold th hth hreleasing
    · exact hord.alone h hh hold th hth hreleasing
  refine ⟨fun th hth => ?_, fun th hth h hrole => ?_, fun h hh => ?_, fun h hh h' hp hnewest => ?_,
    fun h hh th hth hreleasing => ?_⟩
  · have hmem : th = ⟨role, next b⟩ ∨ th ∈ pre ++ ⟨role, .call op next⟩ :: post := mem_replace hth
    rcases hmem with rfl | hmem
    · exact Does.step (s := s.pooler) hdoes heff
    · exact (hinv.does th hmem).mono hle
  · have hmem : th = ⟨role, next b⟩ ∨ th ∈ pre ++ ⟨role, .call op next⟩ :: post := mem_replace hth
    simp only [hnow]
    rcases hmem with rfl | hmem
    · exact hinv.due ⟨role, .call op next⟩ (by simp) h hrole
    · exact hinv.due th hmem h hrole
  · exact (hmade h hh).trans (hle _)
  · obtain ⟨hcluster, hgeneration⟩ := hnewest
    have hnewest : h'.Newest s h.timer.cluster := by
      refine ⟨hcluster, le_antisymm ?_ ?_⟩
      · rw [← hcluster]
        exact hmade h' (.inl hp)
      · exact (hle _).trans_eq hgeneration.symm
    rcases hpending h' hp with hold | ⟨hnew, hfresh⟩
    · exact hlasts h hh h' hold hnewest
    · have hstands : h ∈ s.held := by
        rcases record_held_or_sleeping s role op with heq | heq
        · rwa [htheld, heq] at hh
        · rw [htsleeping, heq] at hnew
          exact absurd hnew hfresh
      exact hord.outlasts h' hnew hfresh h hstands hnewest
  · have hmem : th = ⟨role, next b⟩ ∨ th ∈ pre ++ ⟨role, .call op next⟩ :: post := mem_replace hth
    rcases hmem with rfl | hmem
    · obtain ⟨hreleases, hnext, -⟩ := hreleasing
      have hsends : ¬ (Prog.call op next).Calls Silent := fun hsilent => hnext (hsilent.2 b)
      by_cases hcheck : AtCheck h.timer.cluster (.call op next)
      · -- the check that has just been passed
        cases op with
        | current c =>
          obtain ⟨hold, rfl, rfl, hstale⟩ := hdoes.current
          obtain ⟨rfl, -⟩ := heff
          have hgeneration : hold.timer.generation = s.holds hold.timer.cluster := by
            by_contra hne
            refine hnext ?_
            change (next (s.holds hold.timer.cluster)).Calls Silent
            rw [hstale _ (Ne.symm hne)]
            trivial
          let awake : Thread PoolerOp Errand :=
            ⟨.deadline hold, .call (.current hold.timer.cluster) next⟩
          have hawake : Pending ⟨s, pre ++ awake :: post⟩ hold :=
            .inr ⟨awake, by simp, rfl, rfl⟩
          refine ⟨?_, hold, rfl, ?_⟩
          · have hdue := hinv.due awake (by simp [awake]) hold rfl
            rw [hnow]
            exact (hlasts h hh hold hawake ⟨hcheck, hcheck ▸ hgeneration⟩).trans hdue
          · have hg := hmade h (.inr (.inl hh))
            rw [← hcheck] at hg
            exact hg.trans_eq hgeneration.symm
        | _ => exact hcheck.elim
      · exact hover h hh ⟨role, .call op next⟩ (by simp) ⟨hreleases, hsends, hcheck⟩
    · exact hover h hh th hmem hreleasing

theorem Kept.passes {ths : List (Thread PoolerOp Errand)} (hinv : Kept spec ⟨s, ths⟩)
    (h : Passes s t) : Kept spec ⟨t, ths⟩ := by
  have hnow := h.now
  have hsame := h.same
  have hholds : t.holds = s.holds := by rw [hsame]
  have hsleeping : t.sleeping = s.sleeping := by rw [hsame]
  have harmed : t.armed = s.armed := by rw [hsame]
  have hheld : t.held = s.held := by rw [hsame]
  have hpending : ∀ h, Pending ⟨t, ths⟩ h → Pending ⟨s, ths⟩ h := by
    intro h hp
    simpa only [Pending, hsleeping] using hp
  refine ⟨fun th hth => ?_, fun th hth h hrole => ?_, fun h hh => ?_, fun h hh h' hp hnewest => ?_,
    fun h hh th hth hreleasing => ?_⟩
  · simpa only [hholds] using hinv.does th hth
  · exact (hinv.due th hth h hrole).trans hnow
  · rw [hheld, harmed] at hh
    rw [hholds]
    exact hinv.made h (hh.imp_left (hpending h))
  · rw [hheld] at hh
    rw [Hold.Newest, hholds] at hnewest
    exact hinv.lasts h hh h' (hpending h' hp) hnewest
  · rw [hheld] at hh
    obtain ⟨hdue, hnewer⟩ := hinv.ended h hh th hth hreleasing
    exact ⟨hdue.trans hnow, hnewer⟩

end

/-! ## What a new task may do -/

section

variable {spec : PoolerSpec} {c : String}

theorem resume_resumes : (resume spec c).run.Calls (Resumes spec c) :=
  Task.calls_bind (Task.calls_perform trivial) fun _ =>
    forEachPool_calls trivial trivial fun _ hx => hx

theorem handle_does (holds : String → Nat) (n : Nat) (r : Request) :
    Does spec holds (.request n r) (handle spec r) := by
  have hanswer : ∀ r, (answer r).Calls Calm := answer_calls fun _ => trivial
  cases r with
  | pause c hold =>
    have hhandle : handle spec (.pause c hold) = (forEachPool spec c .pause).run.bind _ :=
      Prog.bind_assoc _ _ _
    change Pausing c (holds c) (handle spec (.pause c hold))
    rw [hhandle]
    refine .pausing (forEachPool_calls trivial trivial fun _ _ => trivial) (fun e => hanswer _)
      fun paused => ?_
    exact ⟨hold.getD spec.maxHold, answer (.ok (.ok paused)), hanswer _, rfl⟩
  | resume c =>
    refine Prog.Calls.bind (P := Resumes spec c) ?_ (answer_calls fun _ => trivial)
    exact Task.calls_bind resume_resumes fun _ => Task.calls_pure _
  | reconnect c =>
    refine Prog.Calls.bind (P := Calm) ?_ hanswer
    exact Task.calls_bind (forEachPool_calls trivial trivial fun _ _ => trivial) fun _ =>
      Task.calls_pure _
  | pools => exact Prog.Calls.bind (P := Calm) (pools_calls trivial trivial trivial) hanswer
  | reload => exact Prog.Calls.bind (P := Calm) (reload_calls trivial trivial trivial) hanswer

theorem expire_checks (h : Hold) : Checking spec h
    ((expire spec h.timer.cluster h.timer.generation).run.bind fun _ => .ret ()) := by
  rw [expire_eq]
  refine ⟨rfl, ?_, fun g hg => if_pos hg⟩
  beta_reduce
  rw [if_neg (not_not.mpr rfl)]
  exact Prog.Calls.bind resume_resumes fun _ => trivial

theorem Checking.atCheck {h : Hold} {p : Prog PoolerOp Unit} (hp : Checking spec h p) :
    AtCheck h.timer.cluster p := by
  cases p with
  | ret u => exact hp
  | call op next =>
    cases op with
    | current => exact hp.1
    | _ => exact hp

theorem Kept.comes {s t : Timed} {ths : List (Thread PoolerOp Errand)}
    {th : Thread PoolerOp Errand} (hinv : Kept spec ⟨s, ths⟩) (h : Comes spec s t th) :
    Kept spec ⟨t, ths ++ [th]⟩ := by
  cases h with
  | request r =>
    have hdoes : Does spec s.holds _ _ := handle_does s.holds s.requests r
    have hheld : ∀ h ∈ s.held.filter (fun h => r ≠ .resume h.timer.cluster),
        h ∈ s.held ∧ r ≠ .resume h.timer.cluster := by
      intro h hh
      simpa using List.mem_filter.mp hh
    have hpending : ∀ h, Pending ⟨{ s with
          requests := s.requests + 1
          held := s.held.filter fun h => r ≠ .resume h.timer.cluster },
        ths ++ [⟨.request s.requests r, handle spec r⟩]⟩ h → Pending ⟨s, ths⟩ h := by
      rintro h (hsleeps | ⟨th, hth, hrole, hcheck⟩)
      · exact .inl hsleeps
      · rcases List.mem_append.mp hth with hold | hnew
        · exact .inr ⟨th, hold, hrole, hcheck⟩
        · obtain rfl := List.mem_singleton.mp hnew
          cases hrole
    refine ⟨fun th hth => ?_, fun th hth h hrole => ?_, fun h hh => ?_,
      fun h hh h' hp hnewest => ?_, fun h hh th hth hreleasing => ?_⟩
    · rcases List.mem_append.mp hth with hold | hnew
      · exact hinv.does th hold
      · obtain rfl := List.mem_singleton.mp hnew
        exact hdoes
    · rcases List.mem_append.mp hth with hold | hnew
      · exact hinv.due th hold h hrole
      · obtain rfl := List.mem_singleton.mp hnew
        cases hrole
    · exact hinv.made h (hh.imp (hpending h) (.imp_left fun hh => (hheld h hh).1))
    · exact hinv.lasts h (hheld h hh).1 h' (hpending h' hp) hnewest
    · rcases List.mem_append.mp hth with hold | hnew
      · exact hinv.ended h (hheld h hh).1 th hold hreleasing
      · obtain rfl := List.mem_singleton.mp hnew
        exact absurd hreleasing.1 (hheld h hh).2
  | @deadline before after hold hsplit hdue =>
    have hsleeping : ∀ h ∈ before ++ after, h ∈ s.sleeping := by
      intro h hh
      rw [hsplit]
      rcases List.mem_append.mp hh with hb | ha
      · exact List.mem_append_left _ hb
      · exact List.mem_append_right _ (List.mem_cons_of_mem _ ha)
    have hpending : ∀ h, Pending ⟨{ s with sleeping := before ++ after }, ths ++ [⟨.deadline hold,
        (expire spec hold.timer.cluster hold.timer.generation).run.bind fun _ => .ret ()⟩]⟩ h →
        Pending ⟨s, ths⟩ h := by
      rintro h (hsleeps | ⟨th, hth, hrole, hcheck⟩)
      · exact .inl (hsleeping h hsleeps)
      · rcases List.mem_append.mp hth with hold' | hnew
        · exact .inr ⟨th, hold', hrole, hcheck⟩
        · obtain rfl := List.mem_singleton.mp hnew
          cases hrole
          exact .inl (by rw [hsplit]; simp)
    refine ⟨fun th hth => ?_, fun th hth h hrole => ?_, fun h hh => ?_,
      fun h hh h' hp hnewest => ?_, fun h hh th hth hreleasing => ?_⟩
    · rcases List.mem_append.mp hth with hold' | hnew
      · exact hinv.does th hold'
      · obtain rfl := List.mem_singleton.mp hnew
        exact .inl (expire_checks hold)
    · rcases List.mem_append.mp hth with hold' | hnew
      · exact hinv.due th hold' h hrole
      · obtain rfl := List.mem_singleton.mp hnew
        cases hrole
        exact hdue
    · exact hinv.made h (hh.imp_left (hpending h))
    · exact hinv.lasts h hh h' (hpending h' hp) hnewest
    · rcases List.mem_append.mp hth with hold' | hnew
      · exact hinv.ended h hh th hold' hreleasing
      · obtain rfl := List.mem_singleton.mp hnew
        obtain ⟨hcluster, -, hunchecked⟩ := hreleasing
        have hcluster : hold.timer.cluster = h.timer.cluster := hcluster
        rw [← hcluster] at hunchecked
        exact absurd (expire_checks hold).atCheck hunchecked

/-- Nothing runs yet and no deadline is armed. -/
structure Begins (c : Config PoolerOp Timed Errand) : Prop where
  threads : c.threads = []
  sleeping : c.state.sleeping = []
  armed : ∀ e, c.state.armed e = none
  held : c.state.held = []

theorem Begins.kept {c : Config PoolerOp Timed Errand} (h : Begins c) : Kept spec c where
  does th hth := by simp [h.threads] at hth
  due th hth := by simp [h.threads] at hth
  made hold hh := by simp [Pending, h.threads, h.sleeping, h.armed, h.held] at hh
  lasts hold hh := by simp [h.held] at hh
  ended hold hh := by simp [h.held] at hh

end

/-- A run of orderly steps. -/
def OrderlySteps (D : Doorman) (spec : PoolerSpec) :
    Config PoolerOp Timed Errand → Config PoolerOp Timed Errand → Prop :=
  Relation.ReflTransGen fun c d => (timed D spec).Step c d ∧ Orderly c d

theorem OrderlySteps.kept {D : Doorman} {spec : PoolerSpec} {c₀ c : Config PoolerOp Timed Errand}
    (hrun : OrderlySteps D spec c₀ c) (hbegins : Begins c₀) : Kept spec c := by
  induction hrun with
  | refl => exact hbegins.kept
  | tail _ hstep ih =>
    obtain ⟨hstep, hord⟩ := hstep
    cases hstep with
    | act h => exact ih.act h.1 h.2 hord
    | drift h => exact ih.passes h
    | start h => exact ih.comes h

/-- **A hold stands for its budget**: in a run of orderly steps, whatever sends a RESUME to a pool
of the cluster of a pause that has returned `Ok`, and that no Resume request has come for since,
is a deadline no older than that pause's, and the pause's own budget is over. -/
theorem hold_stands (D : Doorman) (spec : AcceptedPoolerSpec)
    (c₀ c : Config PoolerOp Timed Errand) (hbegins : Begins c₀)
    (hrun : OrderlySteps D spec.toPoolerSpec c₀ c)
    (th : Thread PoolerOp Errand) (hth : th ∈ c.threads) (x : String)
    (next : Except AdminError QueryResult → Prog PoolerOp Unit)
    (hsends : th.prog = .call (.execute (.pool .resume x)) next)
    (h : Hold) (hheld : h ∈ c.state.held) (hx : x ∈ spec.poolsFor h.timer.cluster) :
    Over h c.state.now th.role := by
  have hinv := hrun.kept hbegins
  have hdoes := hinv.does th hth
  rw [hsends] at hdoes
  obtain ⟨cluster, hreleases, hpool⟩ := hdoes.resume
  obtain rfl := PoolerSpec.poolsFor_unique spec.accepted hpool hx
  refine hinv.ended h hheld th hth ⟨hreleases, ?_, ?_⟩
  · rw [hsends]
    exact fun hsilent => hsilent.1
  · rw [hsends]
    exact id

/-! ## A deadline that has just been checked -/

namespace HoldSample

/-- A pooler that fronts one pool. -/
def spec : AcceptedPoolerSpec where
  pooler := ⟨"front", front_valid⟩
  pools := [{ name := "app", cluster := "mydb", serverHost := "pgpod-mydb-1", database := "app"
              lookupRole := "pgpod_pooler", lookupSecretIndex := 0 }]
  accepted := by decide

def begun : Timed where
  pools := fun _ => .running
  holds := fun _ => 0
  sleeping := []
  now := 0
  requests := 0
  armed := fun _ => none
  held := []

/-- The hold that a pause makes next. -/
def holdOf (s : Timed) (budget : HumanDuration) : Hold :=
  ⟨⟨"mydb", s.holds "mydb" + 1, budget⟩, s.now + budget.millis.toNat⟩

def errandOf (s : Timed) (budget : HumanDuration) : Errand :=
  .request s.requests (.pause "mydb" (some budget))

/-- The pause has armed its deadline. -/
def armed (s : Timed) (budget : HumanDuration) : Timed where
  pools := Verb.pause.on "app" s.pools
  holds := fun c => if c = "mydb" then s.holds "mydb" + 1 else s.holds c
  sleeping := holdOf s budget :: s.sleeping
  now := s.now
  requests := s.requests + 1
  armed := fun e => if e = errandOf s budget then some (holdOf s budget) else s.armed e
  held := s.held

/-- The pause has returned. -/
def paused (s : Timed) (budget : HumanDuration) : Timed :=
  { armed s budget with held := holdOf s budget :: s.held }

section

variable (meets : Config PoolerOp Timed Errand → Config PoolerOp Timed Errand → Prop)
  (s : Timed) (ths : List (Thread PoolerOp Errand)) (budget : HumanDuration)

/-- A pause that goes through, next to any other tasks. -/
theorem pause_steps (hsame : ∀ c d, c.state.held = s.held → d.state.held = s.held → meets c d)
    (hreturn : meets
      ⟨armed s budget, ths ++ [⟨errandOf s budget, .call (.reply (.ok ["app"])) .ret⟩]⟩
      ⟨paused s budget, ths ++ [⟨errandOf s budget, .ret ()⟩]⟩) :
    Relation.ReflTransGen (fun c d => (timed .plain spec.toPoolerSpec).Step c d ∧ meets c d) ⟨s, ths⟩
      ⟨paused s budget, ths ++ [⟨errandOf s budget, .ret ()⟩]⟩ := by
  obtain ⟨K, hhandle, hok⟩ : ∃ K : Except AdminError (List String) → Prog PoolerOp Unit,
      handle spec.toPoolerSpec (.pause "mydb" (some budget)) =
        (forEachPool spec.toPoolerSpec "mydb" .pause).run.bind K ∧
      ∀ pools, K (.ok pools) = .call (.bump "mydb") fun g =>
        .call (.arm "mydb" g budget) fun _ => .call (.reply (.ok pools)) .ret :=
    ⟨_, Prog.bind_assoc _ _ _, fun _ => rfl⟩
  let request := errandOf s budget
  let arrived : Timed := { s with requests := s.requests + 1 }
  let stopped : Timed :=
    { arrived with pools := Verb.pause.on "app" s.pools }
  let bumped : Timed :=
    { stopped with holds := fun c => if c = "mydb" then s.holds "mydb" + 1 else s.holds c }
  have hcomes : Comes spec.toPoolerSpec s arrived
      ⟨request, handle spec.toPoolerSpec (.pause "mydb" (some budget))⟩ := by
    have hfilter : s.held.filter
        (fun h => Request.pause "mydb" (some budget) ≠ .resume h.timer.cluster) = s.held := by
      simp
    have hrequest : Comes spec.toPoolerSpec s _ _ := .request (.pause "mydb" (some budget))
    rw [hfilter] at hrequest
    exact hrequest
  rw [hhandle] at hcomes
  have hconnect : (timed .plain spec.toPoolerSpec).Step
      ⟨arrived, ths ++ [⟨request, (forEachPool spec.toPoolerSpec "mydb" .pause).run.bind K⟩]⟩
      ⟨arrived, ths ++ [⟨request, eachProg .pause [] ["app"] K⟩]⟩ := by
    rw [forEachPool_eq rfl]
    exact .act (b := Except.ok ()) ⟨rfl, rfl⟩
  have happ : ReadsAs "app" "app" := Words.lone_self (by decide) (by decide)
  have hpause : (timed .plain spec.toPoolerSpec).Step
      ⟨arrived, ths ++ [⟨request, eachProg .pause [] ["app"] K⟩]⟩
      ⟨stopped, ths ++ [⟨request, eachProg .pause ["app"] [] K⟩]⟩ := by
    rw [eachProg_cons]
    exact .act (b := Except.ok (Except.ok [])) ⟨⟨_, .done_named happ _, rfl⟩, rfl⟩
  have hclose : (timed .plain spec.toPoolerSpec).Step
      ⟨stopped, ths ++ [⟨request, eachProg .pause ["app"] [] K⟩]⟩
      ⟨stopped, ths ++ [⟨request, .call (.bump "mydb") fun g =>
        .call (.arm "mydb" g budget) fun _ => .call (.reply (.ok ["app"])) .ret⟩]⟩ := by
    rw [eachProg_nil, ← hok]
    exact .act (b := ()) ⟨rfl, rfl⟩
  have hbump : (timed .plain spec.toPoolerSpec).Step
      ⟨stopped, ths ++ [⟨request, .call (.bump "mydb") fun g =>
        .call (.arm "mydb" g budget) fun _ => .call (.reply (.ok ["app"])) .ret⟩]⟩
      ⟨bumped, ths ++ [⟨request, .call (.arm "mydb" (s.holds "mydb" + 1) budget) fun _ =>
        .call (.reply (.ok ["app"])) .ret⟩]⟩ :=
    .act (b := s.holds "mydb" + 1) ⟨⟨rfl, rfl⟩, rfl⟩
  have harm : (timed .plain spec.toPoolerSpec).Step
      ⟨bumped, ths ++ [⟨request, .call (.arm "mydb" (s.holds "mydb" + 1) budget) fun _ =>
        .call (.reply (.ok ["app"])) .ret⟩]⟩
      ⟨armed s budget, ths ++ [⟨request, .call (.reply (.ok ["app"])) .ret⟩]⟩ :=
    .act (b := ()) ⟨rfl, rfl⟩
  have hreply : (timed .plain spec.toPoolerSpec).Step
      ⟨armed s budget, ths ++ [⟨request, .call (.reply (.ok ["app"])) .ret⟩]⟩
      ⟨paused s budget, ths ++ [⟨request, .ret ()⟩]⟩ := by
    refine .act (b := ()) ⟨rfl, ?_⟩
    simp [Timed.record, paused, armed, request]
  have hquiet : ∀ c d, c.state.held = s.held → d.state.held = s.held →
      (timed .plain spec.toPoolerSpec).Step c d → (timed .plain spec.toPoolerSpec).Step c d ∧ meets c d :=
    fun c d hc hd hstep => ⟨hstep, hsame c d hc hd⟩
  exact .tail (.tail (.tail (.tail (.tail (.tail (.single (hquiet _ _ rfl rfl (.start hcomes)))
    (hquiet _ _ rfl rfl hconnect)) (hquiet _ _ rfl rfl hpause)) (hquiet _ _ rfl rfl hclose))
    (hquiet _ _ rfl rfl hbump)) (hquiet _ _ rfl rfl harm)) ⟨hreply, hreturn⟩

/-- What a deadline does once it has passed its check. -/
def release : Prog PoolerOp Unit := (resume spec.toPoolerSpec "mydb").run.bind fun _ => .ret ()

/-- About to send the RESUME. -/
def sending : Prog PoolerOp Unit := eachProg .resume [] ["app"] fun _ => .ret ()

/-- The one deadline that sleeps is due, and passes its check. -/
theorem wake_steps (h : Hold) (hs : s.sleeping = [h]) (hc : h.timer.cluster = "mydb")
    (hg : s.holds "mydb" = h.timer.generation) (hdue : s.now ≤ h.due)
    (hquiet : ∀ c d, d.state.held = s.held → c.state.held = s.held →
      d.state.sleeping ⊆ c.state.sleeping → meets c d) :
    Relation.ReflTransGen (fun c d => (timed .plain spec.toPoolerSpec).Step c d ∧ meets c d) ⟨s, ths⟩
      ⟨{ s with now := h.due, sleeping := [] }, ths ++ [⟨.deadline h, release⟩]⟩ := by
  let later : Timed := { s with now := h.due }
  let awake : Timed := { later with sleeping := [] }
  have hpasses : (timed .plain spec.toPoolerSpec).Step ⟨s, ths⟩ ⟨later, ths⟩ :=
    .drift ⟨⟨rfl, rfl, fun _ => id⟩, hdue, rfl⟩
  have hwakes : (timed .plain spec.toPoolerSpec).Step ⟨later, ths⟩
      ⟨awake, ths ++ [⟨.deadline h,
        (expire spec.toPoolerSpec h.timer.cluster h.timer.generation).run.bind fun _ => .ret ()⟩]⟩ :=
    .start (.deadline (show later.sleeping = [] ++ h :: [] from hs) le_rfl)
  rw [expire_eq, hc] at hwakes
  have hchecks : (timed .plain spec.toPoolerSpec).Step
      ⟨awake, ths ++ [⟨.deadline h, .call (.current "mydb") fun current =>
        if current ≠ h.timer.generation then .ret ()
        else (resume spec.toPoolerSpec "mydb").run.bind fun _ => .ret ()⟩]⟩
      ⟨awake, ths ++ [⟨.deadline h, release⟩]⟩ := by
    have hrelease : release = if s.holds "mydb" ≠ h.timer.generation then .ret () else release :=
      (if_neg (not_not.mpr hg)).symm
    rw [hrelease]
    exact .act (b := s.holds "mydb") ⟨⟨rfl, rfl⟩, rfl⟩
  exact .tail (.tail (.single ⟨hpasses, hquiet _ _ rfl rfl (List.Subset.refl _)⟩)
    ⟨hwakes, hquiet _ _ rfl rfl (List.nil_subset _)⟩)
    ⟨hchecks, hquiet _ _ rfl rfl (List.Subset.refl _)⟩

/-- The generation is bumped and the console connected to. -/
theorem release_steps (e : Errand) (post : List (Thread PoolerOp Errand))
    (hquiet : ∀ c d, d.state.held = s.held → c.state.held = s.held →
      d.state.sleeping ⊆ c.state.sleeping → meets c d) :
    Relation.ReflTransGen (fun c d => (timed .plain spec.toPoolerSpec).Step c d ∧ meets c d)
      ⟨s, ths ++ ⟨e, release⟩ :: post⟩
      ⟨{ s with holds := fun c => if c = "mydb" then s.holds "mydb" + 1 else s.holds c },
        ths ++ ⟨e, sending⟩ :: post⟩ := by
  let bumped : Timed :=
    { s with holds := fun c => if c = "mydb" then s.holds "mydb" + 1 else s.holds c }
  have hbump : (timed .plain spec.toPoolerSpec).Step ⟨s, ths ++ ⟨e, release⟩ :: post⟩
      ⟨bumped, ths ++ ⟨e, (forEachPool spec.toPoolerSpec "mydb" .resume).run.bind fun _ =>
        .ret ()⟩ :: post⟩ := by
    rw [release, resume_eq]
    exact .act (b := s.holds "mydb" + 1) ⟨⟨rfl, rfl⟩, rfl⟩
  have hconnect : (timed .plain spec.toPoolerSpec).Step
      ⟨bumped, ths ++ ⟨e, (forEachPool spec.toPoolerSpec "mydb" .resume).run.bind fun _ =>
        .ret ()⟩ :: post⟩ ⟨bumped, ths ++ ⟨e, sending⟩ :: post⟩ := by
    rw [forEachPool_eq rfl]
    exact .act (b := Except.ok ()) ⟨rfl, rfl⟩
  exact .tail (.single ⟨hbump, hquiet _ _ rfl rfl (List.Subset.refl _)⟩)
    ⟨hconnect, hquiet _ _ rfl rfl (List.Subset.refl _)⟩

end

/-- A second's hold, and the minute's hold after it. -/
def second : HumanDuration := ⟨1000⟩

def minute : HumanDuration := ⟨60000⟩

/-- The state in which the second is over and its deadline has been checked. -/
def checked : Timed := { paused begun second with now := 1000, sleeping := [] }

/-- **An old deadline ends a new hold**: it had checked the generation when the minute's pause
came and returned `Ok`, and is about to send the RESUME before that minute has begun to pass. -/
theorem newer_hold_ended : ∃ (c : Config PoolerOp Timed Errand) (th : Thread PoolerOp Errand),
    (timed .plain spec.toPoolerSpec).Steps ⟨begun, []⟩ c ∧ Begins ⟨begun, []⟩ ∧ th ∈ c.threads ∧
      (∃ next, th.prog = .call (.execute (.pool .resume "app")) next) ∧
      ∃ h ∈ c.state.held, "app" ∈ spec.poolsFor h.timer.cluster ∧ c.state.now < h.due ∧
        ∃ h₀, th.role = .deadline h₀ ∧ h₀.timer.generation < h.timer.generation := by
  let old : Hold := holdOf begun second
  let done : Thread PoolerOp Errand := ⟨errandOf begun second, .ret ()⟩
  have hfirst := pause_steps (fun _ _ => True) begun [] second (fun _ _ _ _ => trivial) trivial
  have hwake := wake_steps (fun _ _ => True) (paused begun second) [done] old rfl rfl rfl
    (by decide) fun _ _ _ _ _ => trivial
  have hsecond := pause_steps (fun _ _ => True) checked [done, ⟨.deadline old, release⟩] minute
    (fun _ _ _ _ => trivial) trivial
  have hrelease := release_steps (fun _ _ => True) (paused checked minute) [done] (.deadline old)
    [⟨errandOf checked minute, .ret ()⟩] fun _ _ _ _ _ => trivial
  have hrun := (hfirst.trans hwake).trans (hsecond.trans hrelease)
  let released : Timed := { paused checked minute with
    holds := fun c => if c = "mydb" then (paused checked minute).holds "mydb" + 1
      else (paused checked minute).holds c }
  let sender : Thread PoolerOp Errand := ⟨.deadline old, sending⟩
  have hplain : (timed .plain spec.toPoolerSpec).Steps ⟨begun, []⟩
      ⟨released, [done, sender, ⟨errandOf checked minute, .ret ()⟩]⟩ :=
    Relation.ReflTransGen.mono (fun _ _ h => h.1) _ _ hrun
  exact ⟨_, sender, hplain,
    ⟨rfl, rfl, fun _ => rfl, rfl⟩, by simp, ⟨_, eachProg_cons⟩, holdOf checked minute,
    List.mem_cons_self, by decide, by decide, old, rfl, by decide⟩

/-- A deadline ends its own hold when the second is over. -/
theorem hold_stands_second : ∃ (c : Config PoolerOp Timed Errand) (th : Thread PoolerOp Errand),
    OrderlySteps .plain spec.toPoolerSpec ⟨begun, []⟩ c ∧ th ∈ c.threads ∧
      (∃ next, th.prog = .call (.execute (.pool .resume "app")) next) ∧
      holdOf begun second ∈ c.state.held ∧ Over (holdOf begun second) c.state.now th.role := by
  let old : Hold := holdOf begun second
  let done : Thread PoolerOp Errand := ⟨errandOf begun second, .ret ()⟩
  have hsame : ∀ c d : Config PoolerOp Timed Errand, c.state.held = [] → d.state.held = [] →
      Orderly c d := by
    intro c d hc hd
    exact ⟨by simp [hd], by simp [hd], by simp [hc]⟩
  have hquiet : ∀ c d : Config PoolerOp Timed Errand, d.state.held = (paused begun second).held →
      c.state.held = (paused begun second).held → d.state.sleeping ⊆ c.state.sleeping →
      Orderly c d := by
    intro c d hd hc hsleeping
    have hheld : d.state.held = c.state.held := hd.trans hc.symm
    refine ⟨fun h hh hnew => ?_, fun h hh hnew => ?_, fun h' hh' hnew => ?_⟩
    · exact absurd (hheld ▸ hh) hnew
    · exact absurd (hheld ▸ hh) hnew
    · exact absurd (hsleeping hh') hnew
  have hreturn : Orderly
      ⟨armed begun second, [⟨errandOf begun second, .call (.reply (.ok ["app"])) .ret⟩]⟩
      ⟨paused begun second, [done]⟩ := by
    refine ⟨fun h hh _ th hth hreleasing => ?_, fun h hh _ h' hp _ => ?_, fun h' hh' hnew => ?_⟩
    · obtain rfl := List.mem_singleton.mp hth
      exact absurd hreleasing.1 (by simp [Errand.Releases, errandOf])
    · obtain rfl := List.mem_singleton.mp hh
      rcases hp with hsleeps | ⟨th, hth, hrole, -⟩
      · obtain rfl := List.mem_singleton.mp hsleeps
        exact le_rfl
      · obtain rfl := List.mem_singleton.mp hth
        cases hrole
    · exact absurd hh' hnew
  have hfirst := pause_steps Orderly begun [] second hsame hreturn
  have hwake := wake_steps Orderly (paused begun second) [done] old rfl rfl rfl (by decide) hquiet
  let awake : Timed := { paused begun second with now := old.due, sleeping := [] }
  have hrelease := release_steps Orderly awake [done] (.deadline old) [] hquiet
  have hrun := (hfirst.trans hwake).trans hrelease
  let released : Timed := { awake with
    holds := fun c => if c = "mydb" then awake.holds "mydb" + 1 else awake.holds c }
  let sender : Thread PoolerOp Errand := ⟨.deadline old, sending⟩
  refine ⟨⟨released, [done, sender]⟩, sender, hrun, by simp, ⟨_, eachProg_cons⟩,
    List.mem_singleton.mpr rfl, ?_⟩
  exact hold_stands .plain spec ⟨begun, []⟩ ⟨released, [done, sender]⟩ ⟨rfl, rfl, fun _ => rfl, rfl⟩ hrun
    sender (by simp) "app" _ eachProg_cons old (List.mem_singleton.mpr rfl) (by decide)

end HoldSample

end Pooler

end Pgpod
