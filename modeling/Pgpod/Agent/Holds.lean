import Pgpod.Agent.Pooler

/-!
# Every held pool has a deadline

A paused pool is accounted for by a timer of the current generation, or by a task
that will arm one or will resume the pool.  A task that gives up part way takes
its account with it: the timer is armed only once every pool is paused, and a
resume has made the old timer stale before it sends its first command.
-/

namespace Pgpod

open Effect

namespace Pooler

/-! ## What a task still has to do -/

/-- The operation pauses nothing, changes no generation and arms nothing; and the name it sends, if
it sends one, is read as that name. -/
def Harmless : ∀ ⦃β : Type⦄, PoolerOp β → Prop
  | _, .execute (.pool verb x) => verb ≠ .pause ∧ ReadsAs x x
  | _, .bump _ | _, .arm .. => False
  | _, _ => True

/-- The rest of a task inside the loop over the pools. -/
def eachProg (verb : Verb) (applied todo : List String)
    (K : Except AdminError (List String) → Prog PoolerOp Unit) : Prog PoolerOp Unit :=
  ((applyEach verb applied todo >>= finishEach).run).bind K

section

variable {K : Except AdminError (List String) → Prog PoolerOp Unit} {verb : Verb}
  {applied rest : List String}

theorem eachProg_nil :
    eachProg verb applied [] K = .call .close fun _ => K (.ok applied) := rfl

theorem eachProg_cons {x : String} :
    eachProg verb applied (x :: rest) K = .call (.execute (.pool verb x)) fun
      | .ok _ => eachProg verb (applied ++ [x]) rest K
      | .error e => if isMissingPool e then eachProg verb applied rest K
          else .call .close fun _ => K (.error e) := by
  refine congrArg (Prog.call _) (funext fun r => ?_)
  cases r with
  | ok q => rfl
  | error e =>
    change ((ite (isMissingPool e = true) (applyEach verb applied rest)
      (pure (applied, some e)) >>= finishEach).run).bind K = _
    by_cases he : isMissingPool e = true
    · simp only [he, if_true]
      rfl
    · simp only [he]
      rfl

theorem forEachPool_eq {spec : PoolerSpec} {cluster : String}
    (h : (spec.poolsFor cluster).isEmpty = false) :
    (forEachPool spec cluster verb).run.bind K = .call .connect fun
      | .ok _ => eachProg verb [] (spec.poolsFor cluster) K
      | .error e => K (.error e) := by
  simp only [forEachPool, h]
  refine congrArg (Prog.call _) (funext fun r => ?_)
  cases r with
  | ok _ => rfl
  | error e => rfl

theorem expire_eq {spec : PoolerSpec} {cluster : String} {generation : Nat}
    {K : Except AdminError Unit → Prog PoolerOp Unit} :
    (expire spec cluster generation).run.bind K = .call (.current cluster) fun current =>
      if current ≠ generation then K (.ok ())
      else (resume spec cluster).run.bind fun _ => K (.ok ()) := by
  refine congrArg (Prog.call _) (funext fun current => ?_)
  change ((ite (current ≠ generation) (pure () : PoolerTask Unit) _).run).bind K = _
  by_cases h : current ≠ generation
  · simp only [if_pos h]
    rfl
  · simp only [if_neg h]
    change ((Task.attempt (δ := AdminError) (resume spec cluster) >>= fun _ => pure ()).run).bind K
      = _
    rw [Task.run_attempt_bind, Prog.bind_assoc]
    rfl

theorem resume_eq {spec : PoolerSpec} {cluster : String} :
    (resume spec cluster).run.bind K = .call (.bump cluster) fun _ =>
      (forEachPool spec cluster .resume).run.bind K := rfl

end

/-- What a task is in the middle of: nothing that matters, pausing with these pools done,
holding a generation it has just made or was armed with, or with these pools left to resume. -/
inductive Mode
  | idle
  | pausing (done : List String)
  | bumped (generation : Nat)
  | expired (generation : Nat)
  | releasing (todo : List String)

/-- The task accounts for the pool: it will arm a timer, or resume the pool. -/
def Mode.Covers (now : Nat) (x : String) : Mode → Prop
  | idle => False
  | pausing done => x ∈ done
  | bumped g | expired g => g = now
  | releasing todo => x ∈ todo

/-- The task resumes the cluster's pools. -/
def Origin.Releases (c : String) (o : Origin) : Prop :=
  o = .request (.resume c) ∨ o = .timer c

instance (c : String) (o : Origin) : Decidable (o.Releases c) := by
  unfold Origin.Releases
  infer_instance

/-- After its loop, a pause bumps the generation and arms a timer with it. -/
def PauseTail (c : String) (K : Except AdminError (List String) → Prog PoolerOp Unit) : Prop :=
  (∀ e, (K (.error e)).Calls Harmless) ∧ ∀ paused, ∃ budget K', K'.Calls Harmless ∧
    K (.ok paused) = .call (.bump c) fun g => .call (.arm c g budget) fun _ => K'

/-- The rest of a task of cluster `c`, and its mode. -/
inductive Doing (spec : PoolerSpec) (c : String) (o : Origin) : Prog PoolerOp Unit → Mode → Prop
  | idle {p : Prog PoolerOp Unit} : p.Calls Harmless → Doing spec c o p .idle
  | pauseConnect {K : Except AdminError (List String) → Prog PoolerOp Unit} :
      (spec.poolsFor c).isEmpty = false → PauseTail c K →
      Doing spec c o ((forEachPool spec c .pause).run.bind K) (.pausing [])
  | pauseEach {K : Except AdminError (List String) → Prog PoolerOp Unit}
      {applied done todo : List String} : done ++ todo = spec.poolsFor c → PauseTail c K →
      Doing spec c o (eachProg .pause applied todo K) (.pausing done)
  | pauseBump {K' : Prog PoolerOp Unit} {budget : HumanDuration} {done : List String} :
      K'.Calls Harmless →
      Doing spec c o (.call (.bump c) fun g => .call (.arm c g budget) fun _ => K') (.pausing done)
  | pauseArm {K' : Prog PoolerOp Unit} {budget : HumanDuration} {g : Nat} : K'.Calls Harmless →
      Doing spec c o (.call (.arm c g budget) fun _ => K') (.bumped g)
  | expired {K : Except AdminError Unit → Prog PoolerOp Unit} {g : Nat} : o.Releases c →
      (∀ r, (K r).Calls Harmless) → Doing spec c o ((expire spec c g).run.bind K) (.expired g)
  | resumeBump {K : Except AdminError (List String) → Prog PoolerOp Unit} : o.Releases c →
      (∀ r, (K r).Calls Harmless) →
      Doing spec c o ((resume spec c).run.bind K) (.releasing (spec.poolsFor c))
  | resumeConnect {K : Except AdminError (List String) → Prog PoolerOp Unit} : o.Releases c →
      (spec.poolsFor c).isEmpty = false → (∀ r, (K r).Calls Harmless) →
      Doing spec c o ((forEachPool spec c .resume).run.bind K) (.releasing (spec.poolsFor c))
  | resumeEach {K : Except AdminError (List String) → Prog PoolerOp Unit}
      {applied done todo : List String} : done ++ todo = spec.poolsFor c →
      (∀ r, (K r).Calls Harmless) → Doing spec c o (eachProg .resume applied todo K) (.releasing todo)

/-! ## Giving up -/

/-- The operation failed in a way that ends the task. -/
def Fails : ∀ ⦃β : Type⦄, PoolerOp β → β → Prop
  | _, .connect, r => ∃ e, r = .error e
  | _, .execute _, r => ∃ e, r = .error e ∧ isMissingPool e = false
  | _, _, _ => False

/-- The pools a task of the cluster has in hand when the operation fails: those it has paused so
far, or those it has still to resume. -/
def inHand (spec : PoolerSpec) (c : String) (o : Origin) : ∀ ⦃β : Type⦄, PoolerOp β → List String
  | _, .execute (.pool .pause x) => (spec.poolsFor c).takeWhile (· ≠ x) ++ [x]
  | _, .execute (.pool .resume x) => (spec.poolsFor c).dropWhile (· ≠ x)
  | _, .connect => if o.Releases c then spec.poolsFor c else []
  | _, _ => []

/-- A timer of the cluster's current generation still sleeps. -/
def LiveDeadline (c : String) (s : PoolerState) : Prop :=
  ∃ t ∈ s.timers, t.cluster = c ∧ t.generation = s.holds c

/-- What one step of a task does to the account of the paused pools. -/
structure Accounts (spec : PoolerSpec) (c : String) (o : Origin) {β : Type} (op : PoolerOp β)
    (b : β) (s : PoolerState) (m : Mode) (t : PoolerState) (m' : Mode) : Prop where
  mine : ∀ x ∈ spec.poolsFor c, t.pools x = .paused →
    (s.pools x = .paused → m.Covers (s.holds c) x) →
    m'.Covers (t.holds c) x ∨ LiveDeadline c t ∨ Fails op b ∧ x ∈ inHand spec c o op
  others : t.holds c = s.holds c ∨ ∀ x ∈ spec.poolsFor c, m'.Covers (t.holds c) x
  timers : s.timers ⊆ t.timers
  elsewhere : ∀ c', c' ≠ c → t.holds c' = s.holds c' ∧
    ∀ x ∈ spec.poolsFor c', t.pools x = .paused → s.pools x = .paused

section

variable {D : Doorman} {spec : PoolerSpec} {c : String} {o : Origin} {β : Type} {op : PoolerOp β}
  {b : β} {s t : PoolerState} {m m' : Mode}

/-- A step that pauses nothing and changes neither generations nor timers. -/
theorem Accounts.calm (hpools : ∀ x, t.pools x = .paused → s.pools x = .paused)
    (hholds : t.holds = s.holds) (htimers : t.timers = s.timers)
    (hcovers : ∀ x ∈ spec.poolsFor c, t.pools x = .paused → m.Covers (s.holds c) x →
      m'.Covers (s.holds c) x ∨ Fails op b ∧ x ∈ inHand spec c o op) :
    Accounts spec c o op b s m t m' where
  mine x hx ht hs := by
    rw [hholds]
    exact (hcovers x hx ht (hs (hpools x ht))).imp_right .inr
  others := .inl (by rw [hholds])
  timers := by rw [htimers]; exact List.Subset.refl _
  elsewhere _ _ := ⟨by rw [hholds], fun x _ => hpools x⟩

/-- Only a PAUSE pauses. -/
theorem Acted.paused {verb : Verb} {name : String} {r : Except AdminError QueryResult}
    {pools pools' : String → PoolState} (h : Acted verb name pools r pools') (x : String)
    (hverb : verb = .pause → x ≠ name) (hx : pools' x = .paused) : pools x = .paused := by
  have happly : verb.on name pools x = .paused → pools x = .paused := by
    intro hpaused
    by_cases hname : x = name
    · subst hname
      simp only [Verb.on, if_true] at hpaused
      cases verb with
      | pause => exact absurd rfl (hverb rfl)
      | resume => cases hp : pools x <;> simp [hp, Verb.applyTo] at hpaused
      | reconnect => cases hp : pools x <;> simp [hp, Verb.applyTo] at hpaused ⊢
    · simpa [Verb.on, hname] using hpaused
  cases h with
  | done q => exact happly hx
  | noPool _ _ => exact hx
  | failed took hmissing =>
    cases took with
    | true => exact happly hx
    | false => exact hx

/-- A harmless operation leaves the account as it is. -/
theorem Effects.harmless (hop : Harmless op) (h : Effects D op s b t) :
    (∀ x, t.pools x = .paused → s.pools x = .paused) ∧ t.holds = s.holds ∧
      t.timers = s.timers := by
  cases op with
  | execute cmd =>
    obtain ⟨pools, hconsole, rfl⟩ := h
    refine ⟨fun x hx => ?_, rfl, rfl⟩
    cases cmd with
    | pool verb name =>
      exact (hconsole.acted hop.2).paused x (fun hverb => absurd hverb hop.1) hx
    | showPools => rwa [hconsole.kept (.inl rfl)] at hx
    | reload => rwa [hconsole.kept (.inr rfl)] at hx
  | bump | arm => exact hop.elim
  | current c' =>
    obtain ⟨-, rfl⟩ := h
    exact ⟨fun _ => id, rfl, rfl⟩
  | connect | close | reply =>
    obtain rfl := h
    exact ⟨fun _ => id, rfl, rfl⟩

/-! ## One step of a task -/

theorem takeWhile_ne {done rest : List String} {x : String} (h : x ∉ done) :
    (done ++ x :: rest).takeWhile (· ≠ x) = done := by
  rw [List.takeWhile_append_of_pos (by simpa using fun y hy (heq : y = x) => h (heq ▸ hy))]
  simp

theorem dropWhile_ne {done rest : List String} {x : String} (h : x ∉ done) :
    (done ++ x :: rest).dropWhile (· ≠ x) = x :: rest := by
  rw [List.dropWhile_append_of_pos (by simpa using fun y hy (heq : y = x) => h (heq ▸ hy))]
  simp

theorem mem_middle_not_mem {done rest pools : List String} {x : String}
    (hsplit : done ++ x :: rest = pools) (hnodup : pools.Nodup) : x ∉ done := by
  rw [← hsplit] at hnodup
  exact fun hx => (List.nodup_append.mp hnodup).2.2 x hx x (by simp) rfl

theorem inHand_pause {done rest : List String} {x : String}
    (hsplit : done ++ x :: rest = spec.poolsFor c) (hx : x ∉ done) :
    inHand spec c o (.execute (.pool .pause x)) = done ++ [x] := by
  change (spec.poolsFor c).takeWhile (· ≠ x) ++ [x] = done ++ [x]
  rw [← hsplit, takeWhile_ne hx]

theorem inHand_resume {done rest : List String} {x : String}
    (hsplit : done ++ x :: rest = spec.poolsFor c) (hx : x ∉ done) :
    inHand spec c o (.execute (.pool .resume x)) = x :: rest := by
  change (spec.poolsFor c).dropWhile (· ≠ x) = x :: rest
  rw [← hsplit, dropWhile_ne hx]

theorem poolsFor_nodup (hspec : spec.validate = .ok ()) : (spec.poolsFor c).Nodup :=
  (PoolerSpec.validate_nodup hspec).sublist (List.filter_sublist.map _)

/-- The step of a pause that sends one command. -/
theorem pauseEach_step (hspec : spec.validate = .ok ()) (hplain : PlainNames spec)
    {K : Except AdminError (List String) → Prog PoolerOp Unit} (hK : PauseTail c K)
    {applied done rest : List String} {x : String} (hsplit : done ++ x :: rest = spec.poolsFor c)
    {r : Except AdminError QueryResult} (h : Effects D (.execute (.pool .pause x)) s r t) :
    ∃ m', Doing spec c o (match r with
        | .ok _ => eachProg .pause (applied ++ [x]) rest K
        | .error e => if isMissingPool e then eachProg .pause applied rest K
            else .call .close fun _ => K (.error e)) m' ∧
      Accounts spec c o (.execute (.pool .pause x)) r s (.pausing done) t m' := by
  obtain ⟨pools, hconsole, rfl⟩ := h
  have hx : x ∉ done := mem_middle_not_mem hsplit (poolsFor_nodup hspec)
  have hmem : x ∈ spec.poolsFor c := by simp [← hsplit]
  have hacted := hconsole.acted (hplain.poolsFor hmem)
  have hsplit' : (done ++ [x]) ++ rest = spec.poolsFor c := by rw [← hsplit]; simp
  have hothers : ∀ y, y ≠ x → pools y = .paused → s.pools y = .paused :=
    fun y hy => hacted.paused y fun _ => hy
  have hset : ∀ {m' : Mode}, (∀ y ∈ spec.poolsFor c, pools y = .paused →
      (s.pools y = .paused → y ∈ done) → m'.Covers (s.holds c) y ∨
        Fails (.execute (.pool .pause x)) r ∧ y ∈ done ++ [x]) →
      Accounts spec c o (.execute (.pool .pause x)) r s (.pausing done) { s with pools } m' := by
    intro m' hmine
    refine ⟨fun y hy ht hs => ?_, .inl rfl, List.Subset.refl _, fun c' hc' => ⟨rfl, ?_⟩⟩
    · rw [inHand_pause hsplit hx]
      exact (hmine y hy ht hs).imp_right .inr
    · exact fun y hy => hothers y fun heq =>
        hc' (PoolerSpec.poolsFor_unique hspec hy (heq ▸ hmem))
  have hdone : ∀ y, pools y = .paused → (s.pools y = .paused → y ∈ done) → y ∈ done ++ [x] := by
    intro y ht hs
    by_cases hy : y = x
    · simp [hy]
    · exact List.mem_append_left _ (hs (hothers y hy ht))
  have hgoes : Accounts spec c o (.execute (.pool .pause x)) r s (.pausing done) { s with pools }
      (.pausing (done ++ [x])) :=
    hset fun y _ ht hs => .inl (hdone y ht hs)
  cases r with
  | ok q => exact ⟨_, .pauseEach hsplit' hK, hgoes⟩
  | error e =>
    cases hmissing : isMissingPool e with
    | true =>
      simp only [hmissing, if_true]
      exact ⟨_, .pauseEach hsplit' hK, hgoes⟩
    | false =>
      simp only [hmissing, Bool.false_eq_true, if_false]
      refine ⟨.idle, .idle ⟨trivial, fun _ => hK.1 e⟩, hset fun y _ ht hs => .inr ?_⟩
      exact ⟨⟨e, rfl, hmissing⟩, hdone y ht hs⟩

/-- The step of a resume that sends one command. -/
theorem resumeEach_step (hspec : spec.validate = .ok ()) (hplain : PlainNames spec)
    {K : Except AdminError (List String) → Prog PoolerOp Unit} (hK : ∀ r, (K r).Calls Harmless)
    {applied done rest : List String} {x : String} (hsplit : done ++ x :: rest = spec.poolsFor c)
    {r : Except AdminError QueryResult} (h : Effects D (.execute (.pool .resume x)) s r t) :
    ∃ m', Doing spec c o (match r with
        | .ok _ => eachProg .resume (applied ++ [x]) rest K
        | .error e => if isMissingPool e then eachProg .resume applied rest K
            else .call .close fun _ => K (.error e)) m' ∧
      Accounts spec c o (.execute (.pool .resume x)) r s (.releasing (x :: rest)) t m' := by
  obtain ⟨pools, hconsole, rfl⟩ := h
  have hx : x ∉ done := mem_middle_not_mem hsplit (poolsFor_nodup hspec)
  have hacted := hconsole.acted (hplain.poolsFor (c := c) (by simp [← hsplit]))
  have hsplit' : (done ++ [x]) ++ rest = spec.poolsFor c := by rw [← hsplit]; simp
  have hpools : ∀ y, pools y = .paused → s.pools y = .paused :=
    fun y => hacted.paused y nofun
  have hrest : ∀ y, y ∈ x :: rest → y ≠ x → y ∈ rest := by
    intro y hy hne
    simpa [hne] using hy
  have hgoes : pools x ≠ .paused →
      Accounts spec c o (.execute (.pool .resume x)) r s (.releasing (x :: rest)) { s with pools }
        (.releasing rest) := by
    intro hreleased
    refine .calm hpools rfl rfl fun y _ ht hcovers => .inl (hrest y hcovers ?_)
    rintro rfl
    exact hreleased ht
  cases hacted with
  | done q =>
    refine ⟨_, .resumeEach hsplit' hK, hgoes ?_⟩
    cases hp : s.pools x <;> simp [Verb.on, hp, Verb.applyTo]
  | noPool hmissing he =>
    rename_i e
    simp only [he, if_true]
    exact ⟨_, .resumeEach hsplit' hK, hgoes (by rw [hmissing]; decide)⟩
  | failed took he =>
    rename_i e
    simp only [he, Bool.false_eq_true, if_false]
    refine ⟨.idle, .idle ⟨trivial, fun _ => hK _⟩, .calm hpools rfl rfl fun y _ _ hcovers => .inr ?_⟩
    rw [inHand_resume hsplit hx]
    exact ⟨⟨e, rfl, he⟩, hcovers⟩

theorem Accounts.same (hs : t = s) (hcovers : ∀ x ∈ spec.poolsFor c, m.Covers (s.holds c) x →
      m'.Covers (s.holds c) x ∨ Fails op b ∧ x ∈ inHand spec c o op) :
    Accounts spec c o op b s m t m' := by
  subst hs
  exact .calm (fun _ => id) rfl rfl fun x hx _ => hcovers x hx

/-- The generation is bumped by a task that from now on accounts for every pool. -/
theorem Accounts.bump {g : Nat} (h : Effects D (.bump c) s g t)
    (hcovers : ∀ x ∈ spec.poolsFor c, m'.Covers g x) : Accounts spec c o (.bump c) g s m t m' := by
  obtain ⟨rfl, rfl⟩ := h
  have hnow : ∀ x ∈ spec.poolsFor c,
      m'.Covers (if c = c then s.holds c + 1 else s.holds c) x := by
    rw [if_pos rfl]
    exact hcovers
  exact ⟨fun x hx _ _ => .inl (hnow x hx), .inr hnow, List.Subset.refl _,
    fun c' hc' => ⟨if_neg hc', fun _ _ => id⟩⟩

theorem resumeConnect_or_idle {K : Except AdminError (List String) → Prog PoolerOp Unit}
    (ho : o.Releases c) (hK : ∀ r, (K r).Calls Harmless) :
    ∃ m', Doing spec c o ((forEachPool spec c .resume).run.bind K) m' ∧
      ∀ g, ∀ x ∈ spec.poolsFor c, m'.Covers g x := by
  cases hempty : (spec.poolsFor c).isEmpty with
  | true =>
    refine ⟨.idle, .idle ?_, fun g x hx => ?_⟩
    · simp only [forEachPool, hempty, if_true]
      exact hK _
    · rw [List.isEmpty_iff.mp hempty] at hx
      exact absurd hx (by simp)
  | false => exact ⟨_, .resumeConnect ho hempty hK, fun g x hx => hx⟩

/-- **One step of a task**, from what it is doing to what it does next. -/
theorem Doing.step (hspec : spec.validate = .ok ()) (hplain : PlainNames spec)
    {next : β → Prog PoolerOp Unit} (h : Doing spec c o (.call op next) m)
    (heff : Effects D op s b t) :
    ∃ m', Doing spec c o (next b) m' ∧ Accounts spec c o op b s m t m' := by
  generalize hp : Prog.call op next = p at h
  cases h with
  | idle hcalls =>
    subst hp
    obtain ⟨hpools, hholds, htimers⟩ := heff.harmless hcalls.1
    exact ⟨.idle, .idle (hcalls.2 b), .calm hpools hholds htimers fun _ _ _ => .inl⟩
  | pauseConnect hsome hK =>
    rw [forEachPool_eq hsome] at hp
    cases hp
    cases b with
    | ok _ => exact ⟨_, .pauseEach (List.nil_append _) hK, .same heff fun _ _ => .inl⟩
    | error e => exact ⟨.idle, .idle (hK.1 e), .same heff fun _ _ h => absurd h (by simp [Mode.Covers])⟩
  | pauseEach hsplit hK =>
    rename_i todo
    cases todo with
    | nil =>
      rw [eachProg_nil] at hp
      cases hp
      obtain ⟨budget, K', hK', hnext⟩ := hK.2 _
      rw [hnext]
      exact ⟨_, .pauseBump hK', .same heff fun _ _ => .inl⟩
    | cons x rest =>
      rw [eachProg_cons] at hp
      cases hp
      exact pauseEach_step hspec hplain hK hsplit heff
  | pauseBump hK' =>
    cases hp
    exact ⟨_, .pauseArm hK', .bump heff fun _ _ => rfl⟩
  | pauseArm hK' =>
    rename_i K' budget g
    cases hp
    refine ⟨.idle, .idle hK', ?_⟩
    obtain rfl := heff
    refine ⟨fun x _ ht hs => .inr (.inl ?_), .inl rfl, List.subset_cons_self _ _,
      fun _ _ => ⟨rfl, fun _ _ => id⟩⟩
    exact ⟨⟨c, g, budget⟩, by simp, rfl, hs ht⟩
  | expired ho hK =>
    rw [expire_eq] at hp
    cases hp
    obtain ⟨rfl, rfl⟩ := heff
    simp only
    split
    · rename_i hstale
      exact ⟨.idle, .idle (hK _), .same rfl fun _ _ h => absurd h.symm hstale⟩
    · exact ⟨_, .resumeBump ho fun r => hK _, .same rfl fun x hx _ => .inl hx⟩
  | resumeBump ho hK =>
    rw [resume_eq] at hp
    cases hp
    obtain ⟨m', hdoing, hcovers⟩ := resumeConnect_or_idle ho hK
    exact ⟨m', hdoing, .bump heff (hcovers b)⟩
  | resumeConnect ho hsome hK =>
    rw [forEachPool_eq hsome] at hp
    cases hp
    cases b with
    | ok _ => exact ⟨_, .resumeEach (List.nil_append _) hK, .same heff fun _ _ => .inl⟩
    | error e =>
      refine ⟨.idle, .idle (hK _), .same heff fun x hx _ => .inr ⟨⟨e, rfl⟩, ?_⟩⟩
      change x ∈ if o.Releases c then spec.poolsFor c else []
      rwa [if_pos ho]
  | resumeEach hsplit hK =>
    rename_i todo
    cases todo with
    | nil =>
      rw [eachProg_nil] at hp
      cases hp
      exact ⟨.idle, .idle (hK _), .same heff fun _ _ h => absurd h (by simp [Mode.Covers])⟩
    | cons x rest =>
      rw [eachProg_cons] at hp
      cases hp
      exact resumeEach_step hspec hplain hK hsplit heff

end

/-! ## What a new task is doing -/

section

variable {spec : PoolerSpec} {c : String} {P : ∀ ⦃β : Type⦄, PoolerOp β → Prop} {verb : Verb}

/-- What the commands for the pools of a cluster call. -/
theorem forEachPool_calls (hconnect : P .connect) (hclose : P .close)
    (hverb : ∀ x ∈ spec.poolsFor c, P (.execute (.pool verb x))) :
    (forEachPool spec c verb).run.Calls P := by
  have heach : ∀ names applied, (∀ x ∈ names, P (.execute (.pool verb x))) →
      (applyEach verb applied names).run.Calls P := by
    intro names
    induction names with
    | nil => exact fun _ _ => Task.calls_pure _
    | cons x rest ih =>
      intro applied hnames
      have hrest : ∀ y ∈ rest, P (.execute (.pool verb y)) :=
        fun y hy => hnames y (List.mem_cons_of_mem x hy)
      refine Task.calls_bind
        (Task.calls_attempt (Task.calls_ask (hnames x List.mem_cons_self))) fun r => ?_
      cases r with
      | ok q => exact ih _ hrest
      | error e =>
        simp only
        split
        · exact ih _ hrest
        · exact Task.calls_pure _
  have hfinish : ∀ outcome, (finishEach outcome).run.Calls P := by
    rintro ⟨applied, failure⟩
    refine Task.calls_bind (Task.calls_perform hclose) fun _ => ?_
    cases failure with
    | none => exact Task.calls_pure _
    | some e => exact Task.calls_throw _
  unfold forEachPool
  simp only
  split
  · exact Task.calls_throw _
  · exact Task.calls_bind (Task.calls_ask hconnect) fun _ =>
      Task.calls_bind (heach _ _ hverb) hfinish

theorem answer_calls (hreply : ∀ r, P (.reply r)) (r : Except AdminError Response) :
    (answer r).Calls P := by
  cases r with
  | ok response => exact ⟨hreply _, fun _ => trivial⟩
  | error e => exact ⟨hreply _, fun _ => trivial⟩

theorem pools_calls (hconnect : P .connect) (hshow : P (.execute .showPools)) (hclose : P .close) :
    pools.run.Calls P :=
  Task.calls_bind (Task.calls_ask hconnect) fun _ =>
    Task.calls_bind (Task.calls_attempt (Task.calls_ask hshow)) fun _ =>
    Task.calls_bind (Task.calls_perform hclose) fun _ =>
    Task.calls_bind (Task.calls_ofExcept _) fun _ => Task.calls_ofExcept _

theorem reload_calls (hconnect : P .connect) (hreload : P (.execute .reload)) (hclose : P .close) :
    reload.run.Calls P :=
  Task.calls_bind (Task.calls_ask hconnect) fun _ =>
    Task.calls_bind (Task.calls_attempt (Task.calls_ask hreload)) fun _ =>
    Task.calls_bind (Task.calls_perform hclose) fun _ =>
    Task.calls_bind (Task.calls_ofExcept _) fun _ => Task.calls_pure _

theorem answer_harmless (r : Except AdminError Response) : (answer r).Calls Harmless :=
  answer_calls (fun _ => trivial) r

theorem pause_tail (spec : PoolerSpec) (c : String) (hold : Option HumanDuration) :
    ∃ K, (pause spec c hold).run.bind answer = (forEachPool spec c .pause).run.bind K ∧
      PauseTail c K := by
  refine ⟨_, Prog.bind_assoc _ _ _, fun e => answer_harmless _, fun paused => ?_⟩
  exact ⟨hold.getD spec.maxHold, answer (.ok (.ok paused)), answer_harmless _, rfl⟩

/-- Whatever brought it up, a task of a cluster starts with nothing on its account. -/
theorem Arrives.doing (hplain : PlainNames spec) {s t : PoolerState} {th : Thread PoolerOp Origin}
    (h : Arrives spec s t th) (hc : th.role.cluster = some c) :
    ∃ m, Doing spec c th.role th.prog m := by
  cases h with
  | request r =>
    cases r with
    | pause cluster hold =>
      obtain rfl : cluster = c := Option.some.inj hc
      obtain ⟨K, hK, htail⟩ := pause_tail spec cluster hold
      cases hempty : (spec.poolsFor cluster).isEmpty with
      | true =>
        refine ⟨.idle, .idle ?_⟩
        change ((pause spec cluster hold).run.bind answer).Calls Harmless
        rw [hK]
        simp only [forEachPool, hempty, if_true]
        exact htail.1 _
      | false =>
        refine ⟨.pausing [], ?_⟩
        change Doing spec cluster _ ((pause spec cluster hold).run.bind answer) _
        rw [hK]
        exact .pauseConnect hempty htail
    | resume cluster =>
      obtain rfl : cluster = c := Option.some.inj hc
      refine ⟨.releasing (spec.poolsFor cluster), ?_⟩
      change Doing spec cluster _ (((resume spec cluster).run.bind _).bind answer) _
      rw [Prog.bind_assoc]
      refine .resumeBump (.inl rfl) fun r => ?_
      cases r with
      | ok _ => exact answer_harmless _
      | error _ => exact answer_harmless _
    | reconnect cluster =>
      obtain rfl : cluster = c := Option.some.inj hc
      refine ⟨.idle, .idle (Prog.Calls.bind ?_ answer_harmless)⟩
      exact Task.calls_bind (forEachPool_calls trivial trivial fun x hx =>
        ⟨by decide, hplain.poolsFor hx⟩) fun _ => Task.calls_pure _
    | pools | reload => cases hc
  | timer hsplit =>
    obtain rfl : _ = c := Option.some.inj hc
    exact ⟨_, .expired (.inr rfl) fun _ => trivial⟩

theorem Arrives.harmless {s t : PoolerState} {th : Thread PoolerOp Origin}
    (h : Arrives spec s t th) (hc : th.role.cluster = none) : th.prog.Calls Harmless := by
  cases h with
  | request r =>
    refine Prog.Calls.bind ?_ answer_harmless
    cases r with
    | pause | resume | reconnect => cases hc
    | pools => exact pools_calls trivial trivial trivial
    | reload => exact reload_calls trivial trivial trivial
  | timer hsplit => cases hc

end

/-! ## Every interleaving -/

/-- A paused pool is accounted for: by a live timer, or by a task of its cluster. -/
def Covered (spec : PoolerSpec) (c x : String) (cfg : Config PoolerOp PoolerState Origin) : Prop :=
  LiveDeadline c cfg.state ∨ ∃ th ∈ cfg.threads, th.role.cluster = some c ∧
    ∃ m, Doing spec c th.role th.prog m ∧ m.Covers (cfg.state.holds c) x

structure AccountedFor (spec : PoolerSpec) (cfg : Config PoolerOp PoolerState Origin) : Prop where
  doing : ∀ th ∈ cfg.threads, ∀ c, th.role.cluster = some c →
    ∃ m, Doing spec c th.role th.prog m
  harmless : ∀ th ∈ cfg.threads, th.role.cluster = none → th.prog.Calls Harmless
  covered : ∀ c, ∀ x ∈ spec.poolsFor c, cfg.state.pools x = .paused → Covered spec c x cfg

/-- A task of a cluster whose console fails has no paused pool in hand, or leaves a live timer. -/
def GivesUpCovered (spec : PoolerSpec) (th : Thread PoolerOp Origin) ⦃β : Type⦄ (op : PoolerOp β)
    (_ : PoolerState) (b : β) (t : PoolerState) : Prop :=
  Fails op b → ∀ c, th.role.cluster = some c →
    LiveDeadline c t ∨ ∀ x ∈ inHand spec c th.role op, t.pools x ≠ .paused

section

variable {D : Doorman} {spec : PoolerSpec} {pre post : List (Thread PoolerOp Origin)}
  {role : Origin} {β : Type} {op : PoolerOp β} {next : β → Prog PoolerOp Unit} {s t : PoolerState}
  {b : β}

theorem LiveDeadline.mono {c : String} (h : LiveDeadline c s) (hholds : t.holds c = s.holds c)
    (htimers : s.timers ⊆ t.timers) : LiveDeadline c t := by
  obtain ⟨timer, hmem, hcluster, hgeneration⟩ := h
  exact ⟨timer, htimers hmem, hcluster, by rw [hholds, hgeneration]⟩

theorem mem_replace {α : Type 1} {pre post : List α} {old new th : α}
    (h : th ∈ pre ++ old :: post) : th = old ∨ th ∈ pre ++ new :: post := by
  simp only [List.mem_append, List.mem_cons] at h ⊢
  tauto

/-- A pool that was accounted for by anyone but the task that steps still is. -/
theorem Covered.keep {c x : String}
    (h : Covered spec c x ⟨s, pre ++ ⟨role, .call op next⟩ :: post⟩)
    (hholds : t.holds c = s.holds c) (htimers : s.timers ⊆ t.timers) :
    Covered spec c x ⟨t, pre ++ ⟨role, next b⟩ :: post⟩ ∨
      role.cluster = some c ∧ ∃ m, Doing spec c role (.call op next) m ∧ m.Covers (s.holds c) x := by
  rcases h with hlive | ⟨th, hth, hcluster, m, hdoing, hcovers⟩
  · exact .inl (.inl (hlive.mono hholds htimers))
  have hmem : th = ⟨role, .call op next⟩ ∨ th ∈ pre ++ ⟨role, next b⟩ :: post := mem_replace hth
  rcases hmem with rfl | hth'
  · exact .inr ⟨hcluster, m, hdoing, hcovers⟩
  · refine .inl (.inr ⟨th, hth', hcluster, m, hdoing, ?_⟩)
    simpa only [hholds] using hcovers

/-- The account after a step of a task of the pool's own cluster. -/
theorem covered_own (hspec : spec.validate = .ok ()) (hplain : PlainNames spec) {c x : String}
    (hc : role.cluster = some c) (hx : x ∈ spec.poolsFor c)
    (hinv : AccountedFor spec ⟨s, pre ++ ⟨role, .call op next⟩ :: post⟩)
    (heff : Effects D op s b t) (hgives : GivesUpCovered spec ⟨role, .call op next⟩ op s b t)
    (hpaused : t.pools x = .paused) :
    Covered spec c x ⟨t, pre ++ ⟨role, next b⟩ :: post⟩ := by
  have hmem : (⟨role, next b⟩ : Thread PoolerOp Origin) ∈ pre ++ ⟨role, next b⟩ :: post := by simp
  -- what the task does now and next, its own account of `x` being `hm`
  have hstep : ∀ m, Doing spec c role (.call op next) m →
      (s.pools x = .paused → m.Covers (s.holds c) x) →
      Covered spec c x ⟨t, pre ++ ⟨role, next b⟩ :: post⟩ := by
    intro m hdoing hm
    obtain ⟨m', hdoing', hacc⟩ := hdoing.step hspec hplain heff
    rcases hacc.mine x hx hpaused hm with hcovers | hlive | ⟨hfails, hin⟩
    · exact .inr ⟨_, hmem, hc, m', hdoing', hcovers⟩
    · exact .inl hlive
    · rcases hgives hfails c hc with hlive | hnone
      · exact .inl hlive
      · exact absurd hpaused (hnone x hin)
  obtain ⟨m, hdoing⟩ := hinv.doing ⟨role, .call op next⟩ (by simp) c hc
  by_cases hs : s.pools x = .paused
  · obtain ⟨m', hdoing', hacc⟩ := hdoing.step hspec hplain heff
    rcases hacc.others with hholds | hall
    · rcases (hinv.covered c x hx hs).keep (b := b) hholds hacc.timers with h | ⟨-, m₀, hm₀, hcovers⟩
      · exact h
      · exact hstep m₀ hm₀ fun _ => hcovers
    · exact .inr ⟨_, hmem, hc, m', hdoing', hall x hx⟩
  · exact hstep m hdoing fun h => absurd h hs

theorem AccountedFor.act (hspec : spec.validate = .ok ()) (hplain : PlainNames spec)
    (hinv : AccountedFor spec ⟨s, pre ++ ⟨role, .call op next⟩ :: post⟩)
    (heff : Effects D op s b t) (hgives : GivesUpCovered spec ⟨role, .call op next⟩ op s b t) :
    AccountedFor spec ⟨t, pre ++ ⟨role, next b⟩ :: post⟩ := by
  have hback : ∀ th ∈ pre ++ ⟨role, next b⟩ :: post,
      th = ⟨role, next b⟩ ∨ th ∈ pre ++ ⟨role, .call op next⟩ :: post :=
    fun th hth => mem_replace hth
  refine ⟨fun th hth c hc => ?_, fun th hth hc => ?_, fun c x hx hpaused => ?_⟩
  · rcases hback th hth with rfl | hold
    · obtain ⟨m, hdoing⟩ := hinv.doing ⟨role, .call op next⟩ (by simp) c hc
      obtain ⟨m', hdoing', -⟩ := hdoing.step hspec hplain heff
      exact ⟨m', hdoing'⟩
    · exact hinv.doing th hold c hc
  · rcases hback th hth with rfl | hold
    · exact (hinv.harmless ⟨role, .call op next⟩ (by simp) hc).2 b
    · exact hinv.harmless th hold hc
  cases hrole : role.cluster with
  | none =>
    have hcalls := hinv.harmless ⟨role, .call op next⟩ (by simp) hrole
    obtain ⟨hpools, hholds, htimers⟩ := heff.harmless hcalls.1
    rcases (hinv.covered c x hx (hpools x hpaused)).keep (b := b) (congrFun hholds c)
      (by rw [htimers]; exact List.Subset.refl _) with h | ⟨hc, -⟩
    · exact h
    · rw [hrole] at hc
      cases hc
  | some c' =>
    by_cases hcc : c = c'
    · subst hcc
      exact covered_own hspec hplain hrole hx hinv heff hgives hpaused
    · obtain ⟨m, hdoing⟩ := hinv.doing ⟨role, .call op next⟩ (by simp) c' hrole
      obtain ⟨m', -, hacc⟩ := hdoing.step hspec hplain heff
      obtain ⟨hholds, hpools⟩ := hacc.elsewhere c hcc
      rcases (hinv.covered c x hx (hpools x hx hpaused)).keep (b := b) hholds hacc.timers
        with h | ⟨hc, -⟩
      · exact h
      · rw [hrole] at hc
        exact absurd (Option.some.inj hc).symm hcc

theorem AccountedFor.drift {ths : List (Thread PoolerOp Origin)} (hinv : AccountedFor spec ⟨s, ths⟩)
    (h : Settles s t) : AccountedFor spec ⟨t, ths⟩ := by
  obtain ⟨hholds, htimers, hpools⟩ := h
  refine ⟨hinv.doing, hinv.harmless, fun c x hx hpaused => ?_⟩
  rcases hinv.covered c x hx (hpools x hpaused) with hlive | ⟨th, hth, hc, m, hdoing, hcovers⟩
  · exact .inl (hlive.mono (congrFun hholds c) (by rw [htimers]; exact List.Subset.refl _))
  · exact .inr ⟨th, hth, hc, m, hdoing, by simpa only [hholds] using hcovers⟩

theorem AccountedFor.start (hplain : PlainNames spec) {ths : List (Thread PoolerOp Origin)}
    {th : Thread PoolerOp Origin}
    (hinv : AccountedFor spec ⟨s, ths⟩) (h : Arrives spec s t th) :
    AccountedFor spec ⟨t, ths ++ [th]⟩ := by
  refine ⟨fun th' hth' c hc => ?_, fun th' hth' hc => ?_, fun c x hx hpaused => ?_⟩
  · rcases List.mem_append.mp hth' with hold | hnew
    · exact hinv.doing th' hold c hc
    · obtain rfl := List.mem_singleton.mp hnew
      exact h.doing hplain hc
  · rcases List.mem_append.mp hth' with hold | hnew
    · exact hinv.harmless th' hold hc
    · obtain rfl := List.mem_singleton.mp hnew
      exact h.harmless hc
  have hlater : ∀ {th' : Thread PoolerOp Origin}, th' ∈ ths → th' ∈ ths ++ [th] :=
    fun hth' => List.mem_append_left _ hth'
  cases h with
  | request r =>
    rcases hinv.covered c x hx hpaused with hlive | ⟨th', hth', hrest⟩
    · exact .inl hlive
    · exact .inr ⟨th', hlater hth', hrest⟩
  | timer hsplit =>
    rename_i before after timer
    rcases hinv.covered c x hx hpaused with ⟨live, hmem, hc, hg⟩ | ⟨th', hth', hrest⟩
    · rw [hsplit] at hmem
      rcases List.mem_append.mp hmem with hbefore | hafter
      · exact .inl ⟨live, List.mem_append_left _ hbefore, hc, hg⟩
      · rcases List.mem_cons.mp hafter with rfl | hafter
        · -- the timer that wakes up carries the account on
          subst hc
          have hnew : Doing spec live.cluster (.timer live.cluster)
              ((expire spec live.cluster live.generation).run.bind fun _ => .ret ())
              (.expired live.generation) := .expired (.inr rfl) fun _ => trivial
          exact .inr ⟨_, List.mem_append_right _ (List.mem_singleton.mpr rfl), rfl, _, hnew, hg⟩
        · exact .inl ⟨live, List.mem_append_right _ hafter, hc, hg⟩
    · exact .inr ⟨th', hlater hth', hrest⟩

end

/-- pg_doorman has just started: nothing is paused, and no task runs. -/
def Fresh (cfg : Config PoolerOp PoolerState Origin) : Prop :=
  (∀ x, cfg.state.pools x ≠ .paused) ∧ cfg.threads = []

/-- No request and no timer is in the middle of executing for the cluster. -/
def Quiescent (c : String) (cfg : Config PoolerOp PoolerState Origin) : Prop :=
  ∀ th ∈ cfg.threads, th.role.cluster = some c → th.prog = .ret ()

/-- A task that has returned accounts for nothing. -/
theorem Doing.returned {spec : PoolerSpec} {c : String} {o : Origin} {m : Mode}
    (h : Doing spec c o (.ret ()) m) : m = .idle := by
  generalize hp : (Prog.ret () : Prog PoolerOp Unit) = p at h
  cases h with
  | idle _ => rfl
  | pauseConnect hsome _ | resumeConnect _ hsome _ =>
    rw [forEachPool_eq hsome] at hp
    cases hp
  | pauseEach hsplit htail =>
    rename_i todo
    cases todo with
    | nil => rw [eachProg_nil] at hp; cases hp
    | cons x rest => rw [eachProg_cons] at hp; cases hp
  | resumeEach hsplit htail =>
    rename_i todo
    cases todo with
    | nil => rw [eachProg_nil] at hp; cases hp
    | cons x rest => rw [eachProg_cons] at hp; cases hp
  | pauseBump _ | pauseArm _ => cases hp
  | expired _ _ => rw [expire_eq] at hp; cases hp
  | resumeBump _ _ => rw [resume_eq] at hp; cases hp

/-- **Every held pool has a deadline**: where the names of the pools are plain, whatever requests,
timers and failures interleave, as long as no task of a cluster gives up with a paused pool in hand
and no live timer, a pool that is paused while nothing executes for its cluster has a timer of the
current generation. -/
theorem paused_pool_has_deadline (D : Doorman) (spec : AcceptedPoolerSpec)
    (hplain : PlainNames spec.toPoolerSpec) (c₀ c : Config PoolerOp PoolerState Origin)
    (hfresh : Fresh c₀)
    (hrun : ((agent D spec.toPoolerSpec).restrict (GivesUpCovered spec.toPoolerSpec)).Steps c₀ c)
    (cluster : String) (hquiet : Quiescent cluster c) (x : String)
    (hx : x ∈ spec.poolsFor cluster) (hpaused : c.state.pools x = .paused) :
    LiveDeadline cluster c.state := by
  have hinit : AccountedFor spec.toPoolerSpec c₀ := by
    refine ⟨?_, ?_, fun _ x _ hp => absurd hp (hfresh.1 x)⟩ <;> simp [hfresh.2]
  have hinv : AccountedFor spec.toPoolerSpec c := by
    refine hrun.invariant hinit fun c d hstep hinv => ?_
    cases hstep with
    | act h => exact hinv.act spec.accepted hplain h.1 h.2
    | drift h => exact hinv.drift h
    | start h => exact hinv.start hplain h
  rcases hinv.covered cluster x hx hpaused with hlive | ⟨th, hth, hc, m, hdoing, hcovers⟩
  · exact hlive
  · rw [hquiet th hth hc] at hdoing
    rw [hdoing.returned] at hcovers
    exact hcovers.elim

/-! ## A pause that fails at its second pool -/

namespace Sample

/-- A pooler that fronts two pools of one cluster. -/
def spec : AcceptedPoolerSpec where
  pooler := ⟨"front", front_valid⟩
  pools := [{ name := "app", cluster := "mydb", serverHost := "pgpod-mydb-1", database := "app"
              lookupRole := "pgpod_pooler", lookupSecretIndex := 0 },
            { name := "shop", cluster := "mydb", serverHost := "pgpod-mydb-1", database := "shop"
              lookupRole := "pgpod_pooler", lookupSecretIndex := 0 }]
  accepted := by decide

theorem spec_plain : PlainNames spec.toPoolerSpec := by
  have happ : ReadsAs "app" "app" := Words.lone_self (by decide) (by decide)
  have hshop : ReadsAs "shop" "shop" := Words.lone_self (by decide) (by decide)
  exact List.forall_mem_cons.mpr ⟨happ, List.forall_mem_singleton.mpr hshop⟩

/-- Both pools have clients, and nothing has been held yet. -/
def idle : PoolerState where
  pools := fun _ => .running
  holds := fun _ => 0
  timers := []

def broken : AdminError := .io "the admin console stopped responding"

/-- **A failed pause strands a pool**: `app` is paused, the request has been answered with an
error, and no timer was armed. -/
theorem failed_pause_strands_pool :
    ∃ c : Config PoolerOp PoolerState Origin, (agent .plain spec.toPoolerSpec).Steps ⟨idle, []⟩ c ∧
      Fresh ⟨idle, []⟩ ∧ Quiescent "mydb" c ∧ "app" ∈ spec.poolsFor "mydb" ∧
      c.state.pools "app" = .paused ∧ ¬ LiveDeadline "mydb" c.state := by
  obtain ⟨K, hhandle, herror⟩ : ∃ K : Except AdminError (List String) → Prog PoolerOp Unit,
      handle spec.toPoolerSpec (.pause "mydb" none) =
        (forEachPool spec.toPoolerSpec "mydb" .pause).run.bind K ∧
      ∀ e, K (.error e) = .call (.reply (.error e.toString)) .ret :=
    ⟨_, Prog.bind_assoc _ _ _, fun _ => rfl⟩
  let request : Origin := .request (.pause "mydb" none)
  let held : PoolerState :=
    { idle with pools := Verb.pause.on "app" idle.pools }
  have hstart : (agent .plain spec.toPoolerSpec).Step ⟨idle, []⟩
      ⟨idle, [⟨request, handle spec.toPoolerSpec (.pause "mydb" none)⟩]⟩ := .start (.request _)
  rw [hhandle, forEachPool_eq rfl] at hstart
  have hconnect : (agent .plain spec.toPoolerSpec).Step ⟨idle, [⟨request, .call .connect fun
        | .ok _ => eachProg .pause [] ["app", "shop"] K
        | .error e => K (.error e)⟩]⟩ ⟨idle, [⟨request, eachProg .pause [] ["app", "shop"] K⟩]⟩ :=
    System.Step.alone _ (b := Except.ok ()) rfl
  have happ : (agent .plain spec.toPoolerSpec).Step
      ⟨idle, [⟨request, eachProg .pause [] ["app", "shop"] K⟩]⟩
      ⟨held, [⟨request, eachProg .pause ["app"] ["shop"] K⟩]⟩ := by
    rw [eachProg_cons]
    exact System.Step.alone _ (b := Except.ok (Except.ok []))
      ⟨_, .done_named (spec_plain.poolsFor (c := "mydb") (by decide)) _, rfl⟩
  have hshop : (agent .plain spec.toPoolerSpec).Step
      ⟨held, [⟨request, eachProg .pause ["app"] ["shop"] K⟩]⟩
      ⟨held, [⟨request, .call .close fun _ => K (.error broken)⟩]⟩ := by
    rw [eachProg_cons]
    exact System.Step.alone _ (b := Except.error broken)
      ⟨_, .broken (List.nil_append _).symm .nil (by decide +kernel), rfl⟩
  have hclose : (agent .plain spec.toPoolerSpec).Step
      ⟨held, [⟨request, .call .close fun _ => K (.error broken)⟩]⟩
      ⟨held, [⟨request, .call (.reply (.error broken.toString)) .ret⟩]⟩ := by
    rw [← herror]
    exact System.Step.alone _ (b := ()) rfl
  have hreply : (agent .plain spec.toPoolerSpec).Step
      ⟨held, [⟨request, .call (.reply (.error broken.toString)) .ret⟩]⟩
      ⟨held, [⟨request, .ret ()⟩]⟩ := System.Step.alone _ (b := ()) rfl
  refine ⟨⟨held, [⟨request, .ret ()⟩]⟩, ?_, ⟨fun x => by simp [idle], rfl⟩, ?_, by decide, by decide,
    ?_⟩
  · exact .tail (.tail (.tail (.tail (.tail (.single hstart) hconnect) happ) hshop) hclose) hreply
  · intro th hth _
    obtain rfl := List.mem_singleton.mp hth
    rfl
  · rintro ⟨timer, hmem, -⟩
    exact absurd hmem (by simp [held, idle])

/-- A pause that goes through, from its request to its reply: the pool is held, under a timer. -/
theorem paused_pool_has_deadline_held :
    ∃ c : Config PoolerOp PoolerState Origin, Quiescent "mydb" c ∧
      c.state.pools "app" = .paused ∧ LiveDeadline "mydb" c.state := by
  obtain ⟨K, hhandle, hok⟩ : ∃ K : Except AdminError (List String) → Prog PoolerOp Unit,
      handle spec.toPoolerSpec (.pause "mydb" none) =
        (forEachPool spec.toPoolerSpec "mydb" .pause).run.bind K ∧
      ∀ paused, K (.ok paused) = .call (.bump "mydb") fun g =>
        .call (.arm "mydb" g ⟨60000⟩) fun _ => .call (.reply (.ok paused)) .ret :=
    ⟨_, Prog.bind_assoc _ _ _, fun _ => rfl⟩
  let request : Origin := .request (.pause "mydb" none)
  let both : List String := ["app", "shop"]
  let app : PoolerState := { idle with pools := Verb.pause.on "app" idle.pools }
  let held : PoolerState := { app with pools := Verb.pause.on "shop" app.pools }
  let bumped : PoolerState := { held with holds := fun c => if c = "mydb" then 1 else 0 }
  let armed : PoolerState := { bumped with timers := [⟨"mydb", 1, ⟨60000⟩⟩] }
  let Y := (agent .plain spec.toPoolerSpec).restrict (GivesUpCovered spec.toPoolerSpec)
  have hstart : Y.Step ⟨idle, []⟩
      ⟨idle, [⟨request, handle spec.toPoolerSpec (.pause "mydb" none)⟩]⟩ := .start (.request _)
  rw [hhandle, forEachPool_eq rfl] at hstart
  have hconnect : Y.Step ⟨idle, [⟨request, .call .connect fun
        | .ok _ => eachProg .pause [] both K
        | .error e => K (.error e)⟩]⟩ ⟨idle, [⟨request, eachProg .pause [] both K⟩]⟩ :=
    System.Step.alone _ (b := Except.ok ()) ⟨rfl, by rintro ⟨e, he⟩; cases he⟩
  have happ : Y.Step ⟨idle, [⟨request, eachProg .pause [] both K⟩]⟩
      ⟨app, [⟨request, eachProg .pause ["app"] ["shop"] K⟩]⟩ := by
    rw [eachProg_cons]
    exact System.Step.alone _ (b := Except.ok (Except.ok []))
      ⟨⟨_, .done_named (spec_plain.poolsFor (c := "mydb") (by decide)) _, rfl⟩,
        by rintro ⟨e, he, -⟩; cases he⟩
  have hshop : Y.Step ⟨app, [⟨request, eachProg .pause ["app"] ["shop"] K⟩]⟩
      ⟨held, [⟨request, eachProg .pause both [] K⟩]⟩ := by
    rw [eachProg_cons]
    exact System.Step.alone _ (b := Except.ok (Except.ok []))
      ⟨⟨_, .done_named (spec_plain.poolsFor (c := "mydb") (by decide)) _, rfl⟩,
        by rintro ⟨e, he, -⟩; cases he⟩
  have hclose : Y.Step ⟨held, [⟨request, eachProg .pause both [] K⟩]⟩
      ⟨held, [⟨request, .call (.bump "mydb") fun g =>
        .call (.arm "mydb" g ⟨60000⟩) fun _ => .call (.reply (.ok both)) .ret⟩]⟩ := by
    rw [eachProg_nil, ← hok]
    exact System.Step.alone _ (b := ()) ⟨rfl, nofun⟩
  have hbump : Y.Step ⟨held, [⟨request, .call (.bump "mydb") fun g =>
        .call (.arm "mydb" g ⟨60000⟩) fun _ => .call (.reply (.ok both)) .ret⟩]⟩
      ⟨bumped, [⟨request, .call (.arm "mydb" 1 ⟨60000⟩) fun _ => .call (.reply (.ok both)) .ret⟩]⟩ :=
    System.Step.alone _ (b := 1) ⟨⟨rfl, rfl⟩, nofun⟩
  have harm : Y.Step
      ⟨bumped, [⟨request, .call (.arm "mydb" 1 ⟨60000⟩) fun _ => .call (.reply (.ok both)) .ret⟩]⟩
      ⟨armed, [⟨request, .call (.reply (.ok both)) .ret⟩]⟩ :=
    System.Step.alone _ (b := ()) ⟨rfl, nofun⟩
  have hreply : Y.Step ⟨armed, [⟨request, .call (.reply (.ok both)) .ret⟩]⟩
      ⟨armed, [⟨request, .ret ()⟩]⟩ := System.Step.alone _ (b := ()) ⟨rfl, nofun⟩
  have hquiet : Quiescent "mydb" ⟨armed, [⟨request, .ret ()⟩]⟩ := by
    intro th hth _
    obtain rfl := List.mem_singleton.mp hth
    rfl
  have hpaused : armed.pools "app" = .paused := by decide
  refine ⟨⟨armed, [⟨request, .ret ()⟩]⟩, hquiet, hpaused, ?_⟩
  exact paused_pool_has_deadline .plain spec spec_plain ⟨idle, []⟩ ⟨armed, [⟨request, .ret ()⟩]⟩
    ⟨fun x => by simp [idle], rfl⟩
    (.tail (.tail (.tail (.tail (.tail (.tail (.tail (.single hstart) hconnect) happ) hshop) hclose)
      hbump) harm) hreply)
    "mydb" hquiet "app" (by decide) hpaused

end Sample

end Pooler

end Pgpod
