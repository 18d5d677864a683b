import Pgpod.Control.Instances
import Pgpod.Effect.Machine
import Pgpod.Registry.Rows

/-!
# Every pooler that was paused is resumed

A hold pauses the poolers in front of a cluster one by one, and is finished by
`release` or by `releaseAfterRecreate`.  The record of a run is what was sent to the
poolers and how it was answered; from it one can tell exactly when every pause was
followed by a resume.
-/

namespace Pgpod

open Effect

namespace Control

/-! ## The record of a run -/

inductive HoldEvent
  /-- The registry's answer to which poolers front the cluster. -/
  | listed (names : List String)
  /-- A control verb sent to the container of a pooler, and whether it was carried out. -/
  | sent (verb container : String) (args : List String) (carriedOut : Bool)
  | recorded (written : Bool)
deriving DecidableEq

/-- Whether a call gave a value. -/
def succeeded {α : Type} : Except Error α → Bool
  | .ok _ => true
  | .error _ => false

/-- Whether a command ran and was content. -/
def carriedOut : Except Error ExecOutput → Bool
  | .ok out => out.success
  | .error _ => false

def HoldEvent.record : ∀ ⦃β : Type⦄, CtlOp β → β → List HoldEvent → List HoldEvent
  | _, .registry (.poolersForCluster _), .ok records, log =>
    log ++ [.listed (records.map PoolerRecord.name)]
  | _, .registry (.recordEvent ..), b, log => log ++ [.recorded (succeeded b)]
  | _, .podman (.exec container (.poolerControl verb args)), b, log =>
    log ++ [.sent verb container args (carriedOut b)]
  | _, _, _, log => log

theorem HoldEvent.prefix_record {β : Type} (op : CtlOp β) (b : β) (log : List HoldEvent) :
    log <+: HoldEvent.record op b log := by
  cases op with
  | registry op =>
    cases op with
    | poolersForCluster c =>
      cases b with
      | ok records => exact List.prefix_append _ _
      | error e => exact List.prefix_rfl
    | recordEvent cluster ordinal level message => exact List.prefix_append _ _
    | _ => exact List.prefix_rfl
  | podman op =>
    cases op with
    | exec ref cmd =>
      cases cmd with
      | poolerControl verb args => exact List.prefix_append _ _
      | _ => exact List.prefix_rfl
    | _ => exact List.prefix_rfl
  | host op => exact List.prefix_rfl

abbrev holdMachine : Machine CtlOp (List HoldEvent) := .answering HoldEvent.record

/-- How a hold is finished. -/
inductive Finish
  | release
  | releaseAfterRecreate
deriving DecidableEq

namespace PoolerHold

/-- A hold from its first pause to its end. -/
def hold (cluster : ClusterId) (finish : Finish) : CtlTask Unit := do
  let held ← acquire cluster
  match finish with
  | .release => release cluster held
  | .releaseAfterRecreate => releaseAfterRecreate cluster held

end PoolerHold

/-- The record only grows. -/
theorem log_grows {α : Type} {p q : Prog CtlOp α} {log log' : List HoldEvent}
    (h : holdMachine.Reach p log q log') : log <+: log' := by
  induction h with
  | refl => exact List.prefix_rfl
  | drift _ hd _ => exact hd.elim
  | call _ hstep ih =>
    obtain rfl := hstep
    exact ih.trans (HoldEvent.prefix_record _ _ _)

/-! ## One command -/

section Commands

variable {id : PoolerId} {cluster : ClusterId} {verb : String} {args : List String}
  {log log' : List HoldEvent}

theorem poolerControl_run {r : Except Error String}
    (h : holdMachine.Reach (poolerControl id verb args).run log (.ret r) log') :
    log' = log ++ [.sent verb id.containerName args (succeeded r)] := by
  unfold poolerControl podman at h
  rcases Machine.answering_ask.mp h with ⟨out, h⟩ | ⟨e, rfl, rfl⟩
  · by_cases hout : out.success = true
    · rw [if_pos hout] at h
      obtain ⟨rfl, rfl⟩ := Machine.answering_pure.mp h
      simp [HoldEvent.record, carriedOut, succeeded, hout]
    · rw [if_neg hout] at h
      obtain ⟨rfl, rfl⟩ := Machine.answering_throw.mp h
      simp [HoldEvent.record, carriedOut, succeeded, hout]
  · rfl

theorem silent_run {r : Except Error Unit}
    (h : holdMachine.Reach (do let _ ← poolerControl id verb args; pure () : CtlTask Unit).run log
      (.ret r) log') :
    log' = log ++ [.sent verb id.containerName args (succeeded r)] := by
  rcases Machine.answering_bind h with ⟨out, w, hctl, h⟩ | ⟨e, hctl, rfl⟩
  · obtain ⟨rfl, rfl⟩ := Machine.answering_pure.mp h
    exact poolerControl_run hctl
  · exact poolerControl_run hctl

end Commands

/-- The command `verb` for the cluster, sent to the pooler. -/
def HoldEvent.to (cluster : ClusterId) (verb : String) (id : PoolerId) (ok : Bool) : HoldEvent :=
  .sent verb id.containerName [cluster.asStr] ok

theorem containerName_inj {p q : PoolerId} (h : p.containerName = q.containerName) : p = q := by
  have hchars := congrArg String.toList h
  have hname : p.name = q.name :=
    String.toList_injective (by simpa [PoolerId.containerName] using hchars)
  cases p; cases q; cases hname; rfl

@[simp] theorem HoldEvent.to_inj {cluster : ClusterId} {verb verb' : String} {p q : PoolerId}
    {ok ok' : Bool} : HoldEvent.to cluster verb p ok = HoldEvent.to cluster verb' q ok' ↔
      verb = verb' ∧ p = q ∧ ok = ok' := by
  simp only [HoldEvent.to, HoldEvent.sent.injEq, true_and]
  constructor
  · rintro ⟨hverb, hname, hok⟩
    exact ⟨hverb, containerName_inj hname, hok⟩
  · rintro ⟨rfl, rfl, rfl⟩
    exact ⟨rfl, rfl, rfl⟩

section Hold

variable {cluster : ClusterId} {log log' : List HoldEvent}

theorem poolerPause_run {id : PoolerId} {r : Except Error Unit}
    (h : holdMachine.Reach (poolerPause id cluster).run log (.ret r) log') :
    log' = log ++ [.to cluster "pause" id (succeeded r)] := silent_run h

theorem poolerResume_run {id : PoolerId} {r : Except Error Unit}
    (h : holdMachine.Reach (poolerResume id cluster).run log (.ret r) log') :
    log' = log ++ [.to cluster "resume" id (succeeded r)] := silent_run h

/-- Only resumes for the poolers given, and one for each of them. -/
structure Resumes (cluster : ClusterId) (held : List PoolerId) (evs : List HoldEvent) : Prop where
  all : ∀ id ∈ held, ∃ ok, .to cluster "resume" id ok ∈ evs
  only : ∀ e ∈ evs, ∃ id ∈ held, ∃ ok, e = .to cluster "resume" id ok

/-- The release resumes every pooler held, whatever the answers. -/
theorem release_run {held : List PoolerId} {r : Except Error Unit}
    (h : holdMachine.Reach (PoolerHold.release cluster held).run log (.ret r) log') :
    r = .ok () ∧ ∃ evs, log' = log ++ evs ∧ Resumes cluster held evs := by
  induction held generalizing log with
  | nil =>
    obtain ⟨rfl, rfl⟩ := Machine.answering_pure.mp h
    exact ⟨rfl, [], by simp, ⟨by simp, by simp⟩⟩
  | cons id rest ih =>
    rcases Machine.answering_bind h with ⟨u, w, hone, h⟩ | ⟨e, hone, -⟩
    · obtain ⟨b, w', hresume, hone⟩ := Machine.answering_attempt_task hone
      obtain ⟨-, rfl⟩ := Machine.answering_pure.mp hone
      obtain ⟨rfl, evs, rfl, hevs⟩ := ih h
      rw [poolerResume_run hresume]
      refine ⟨rfl, .to cluster "resume" id (succeeded b) :: evs, by simp, ?_, ?_⟩
      · intro id' hid'
        rcases List.mem_cons.mp hid' with rfl | hmem
        · exact ⟨_, List.mem_cons_self⟩
        · obtain ⟨ok, hok⟩ := hevs.all id' hmem
          exact ⟨ok, List.mem_cons_of_mem _ hok⟩
      · intro e he
        rcases List.mem_cons.mp he with rfl | hmem
        · exact ⟨id, List.mem_cons_self, _, rfl⟩
        · obtain ⟨id', hid', ok, rfl⟩ := hevs.only e hmem
          exact ⟨id', List.mem_cons_of_mem _ hid', ok, rfl⟩
    · obtain ⟨b, w', hresume, hone⟩ := Machine.answering_attempt_task hone
      exact nomatch (Machine.answering_pure.mp hone).1

theorem poolerId_new_name (id : PoolerId) : PoolerId.new id.name = .ok id := by
  unfold PoolerId.new
  exact dif_pos id.valid

/-- Either every pooler is paused, or one of them fails, and the ones before it are resumed. -/
theorem pauseEach_run {records : List PoolerRecord} {ids held : List PoolerId}
    {r : Except Error (List PoolerId)}
    (hids : records.map PoolerRecord.name = ids.map PoolerId.name)
    (h : holdMachine.Reach (PoolerHold.pauseEach cluster records held).run log (.ret r) log') :
    (r = .ok (held ++ ids) ∧ log' = log ++ ids.map (HoldEvent.to cluster "pause" · true)) ∨
      ∃ pre id post evs, ids = pre ++ id :: post ∧ (∃ e, r = .error e) ∧
        Resumes cluster (held ++ pre) evs ∧
        log' = log ++ (pre.map (HoldEvent.to cluster "pause" · true) ++
          .to cluster "pause" id false :: evs) := by
  induction records generalizing ids held log with
  | nil =>
    obtain rfl : ids = [] := by simpa using hids.symm
    obtain ⟨rfl, rfl⟩ := Machine.answering_pure.mp h
    exact .inl ⟨by simp, by simp⟩
  | cons record records ih =>
    cases ids with
    | nil => simp at hids
    | cons id ids =>
      obtain ⟨hname, hids⟩ := List.cons.inj hids
      unfold PoolerHold.pauseEach at h
      rw [hname, poolerId_new_name] at h
      obtain ⟨b, w, hpause, h⟩ := Machine.answering_attempt_task h
      rw [poolerPause_run hpause] at h
      cases b with
      | ok u =>
        rcases ih hids h with ⟨rfl, rfl⟩ | ⟨pre, id', post, evs, rfl, he, hevs, rfl⟩
        · exact .inl ⟨by simp, by simp [succeeded]⟩
        · refine .inr ⟨id :: pre, id', post, evs, rfl, he, ?_, by simp [succeeded]⟩
          simpa using hevs
      | error e =>
        rcases Machine.answering_bind h with ⟨u, w', hrelease, h⟩ | ⟨e', hrelease, -⟩
        · obtain ⟨-, evs, rfl, hevs⟩ := release_run hrelease
          obtain ⟨rfl, rfl⟩ := Machine.answering_throw.mp h
          exact .inr ⟨[], id, ids, evs, rfl, ⟨_, rfl⟩, by simpa using hevs,
            by simp [succeeded]⟩
        · exact nomatch (release_run hrelease).1

/-- Nothing went wrong that ends a release after a recreate early. -/
structure Calm (cluster : ClusterId) (held : List PoolerId) (evs : List HoldEvent) : Prop where
  reconnect : ∀ id, .to cluster "reconnect" id false ∉ evs
  resume : ∀ id, .to cluster "resume" id false ∈ evs → held.getLast? = some id

/-- The release after a recreate resumes every pooler exactly when nothing goes wrong before the
last resume. -/
theorem releaseAfterRecreate_run {held : List PoolerId} {r : Except Error Unit}
    (hnodup : held.Nodup)
    (h : holdMachine.Reach (PoolerHold.releaseAfterRecreate cluster held).run log (.ret r) log') :
    ∃ evs, log' = log ++ evs ∧
      (∀ e ∈ evs, ∃ id ∈ held, ∃ ok, e = .to cluster "reconnect" id ok ∨
        e = .to cluster "resume" id ok) ∧
      ((∀ id ∈ held, ∃ ok, .to cluster "resume" id ok ∈ evs) ↔ Calm cluster held evs) := by
  induction held generalizing log with
  | nil =>
    obtain ⟨rfl, rfl⟩ := Machine.answering_pure.mp h
    exact ⟨[], by simp, by simp, ⟨fun _ => ⟨by simp, by simp⟩, by simp⟩⟩
  | cons id rest ih =>
    obtain ⟨hid, hrest⟩ := List.nodup_cons.mp hnodup
    rcases Machine.answering_bind h with ⟨out, w, hreconnect, h⟩ | ⟨e, hreconnect, -⟩
    · rw [poolerControl_run hreconnect] at h
      rcases Machine.answering_bind h with ⟨u, w', hresume, h⟩ | ⟨e, hresume, -⟩
      · -- both commands are carried out, and the rest of the poolers decide
        rw [poolerResume_run hresume] at h
        obtain ⟨evs, rfl, honly, hiff⟩ := ih hrest h
        refine ⟨.to cluster "reconnect" id true :: .to cluster "resume" id true :: evs,
          by simp [HoldEvent.to, succeeded], ?_, ?_⟩
        · intro e he
          rcases List.mem_cons.mp he with rfl | he
          · exact ⟨id, List.mem_cons_self, true, .inl rfl⟩
          rcases List.mem_cons.mp he with rfl | he
          · exact ⟨id, List.mem_cons_self, true, .inr rfl⟩
          obtain ⟨id', hid', ok, hev⟩ := honly e he
          exact ⟨id', List.mem_cons_of_mem _ hid', ok, hev⟩
        · have hresumed : (∀ id' ∈ id :: rest, ∃ ok, HoldEvent.to cluster "resume" id' ok ∈
              .to cluster "reconnect" id true :: .to cluster "resume" id true :: evs) ↔
              ∀ id' ∈ rest, ∃ ok, .to cluster "resume" id' ok ∈ evs := by
            rw [List.forall_mem_cons]
            constructor
            · rintro ⟨-, hall⟩ id' hid'
              obtain ⟨ok, hok⟩ := hall id' hid'
              have hne : id' ≠ id := fun heq => hid (heq ▸ hid')
              exact ⟨ok, by simpa [hne] using hok⟩
            · intro hall
              refine ⟨⟨true, by simp⟩, fun id' hid' => ?_⟩
              obtain ⟨ok, hok⟩ := hall id' hid'
              exact ⟨ok, by simp [hok]⟩
          rw [hresumed, hiff]
          have hlast {id' : PoolerId} (hid' : .to cluster "resume" id' false ∈ evs) :
              (id :: rest).getLast? = rest.getLast? := by
            obtain ⟨x, hx, -⟩ := honly _ hid'
            cases rest with
            | nil => simp at hx
            | cons y ys => rfl
          constructor
          · rintro ⟨hreconnects, hresumes⟩
            refine ⟨fun id' => by simpa using hreconnects id', fun id' hid' => ?_⟩
            have hmem : .to cluster "resume" id' false ∈ evs := by simpa using hid'
            rw [hlast hmem]
            exact hresumes id' hmem
          · rintro ⟨hreconnects, hresumes⟩
            refine ⟨fun id' hid' => hreconnects id' (by simp [hid']), fun id' hid' => ?_⟩
            rw [← hlast hid']
            exact hresumes id' (by simp [hid'])
      · -- the resume is sent, and it is the last of the run
        rw [poolerResume_run hresume]
        refine ⟨[.to cluster "reconnect" id true, .to cluster "resume" id false],
          by simp [HoldEvent.to, succeeded], ?_, ?_⟩
        · intro e he
          simp only [List.mem_cons, List.not_mem_nil, or_false] at he
          rcases he with rfl | rfl
          · exact ⟨id, List.mem_cons_self, true, .inl rfl⟩
          · exact ⟨id, List.mem_cons_self, false, .inr rfl⟩
        · cases rest with
          | nil => exact ⟨fun _ => ⟨by simp, by simp⟩, fun _ => by simp⟩
          | cons id' rest =>
            have hne : id' ≠ id := fun heq => hid (heq ▸ List.mem_cons_self)
            refine iff_of_false (fun hall => ?_) (fun hcalm => ?_)
            · obtain ⟨ok, hok⟩ := hall id' (by simp)
              simp [hne] at hok
            · have hlast := hcalm.resume id (by simp)
              rw [List.getLast?_cons_cons] at hlast
              exact hid (List.mem_of_getLast? hlast)
    · -- nothing more is sent
      rw [poolerControl_run hreconnect]
      refine ⟨[.to cluster "reconnect" id false], rfl, ?_, ?_⟩
      · intro e he
        rw [List.mem_singleton] at he
        exact ⟨id, List.mem_cons_self, false, .inl he⟩
      · refine iff_of_false (fun hall => ?_) (fun hcalm => hcalm.reconnect id (by simp))
        obtain ⟨ok, hok⟩ := hall id List.mem_cons_self
        simp at hok

theorem exists_ids {names : List String} (h : ∀ n ∈ names, validClusterName n = true) :
    ∃ ids : List PoolerId, names = ids.map PoolerId.name := by
  induction names with
  | nil => exact ⟨[], rfl⟩
  | cons n names ih =>
    rw [List.forall_mem_cons] at h
    obtain ⟨ids, rfl⟩ := ih h.2
    exact ⟨⟨n, h.1⟩ :: ids, rfl⟩

/-- How the acquisition of a hold ends. -/
inductive Acquired (cluster : ClusterId) : Except Error (List PoolerId) → List HoldEvent → Prop
  | unlisted (e : Error) : Acquired cluster (.error e) []
  | unpaused {names : List String} {pre post : List PoolerId} {id : PoolerId}
      {evs : List HoldEvent} (e : Error) (hnames : names = (pre ++ id :: post).map PoolerId.name)
      (hevs : Resumes cluster pre evs) :
      Acquired cluster (.error e) (.listed names ::
        (pre.map (HoldEvent.to cluster "pause" · true) ++ .to cluster "pause" id false :: evs))
  | unrecorded {ids : List PoolerId} (e : Error) :
      Acquired cluster (.error e) (.listed (ids.map PoolerId.name) ::
        (ids.map (HoldEvent.to cluster "pause" · true) ++ [.recorded false]))
  | held {ids : List PoolerId} :
      Acquired cluster (.ok ids) (.listed (ids.map PoolerId.name) ::
        (ids.map (HoldEvent.to cluster "pause" · true) ++ [.recorded true]))

theorem acquire_run {r : Except Error (List PoolerId)}
    (h : holdMachine.Reach (PoolerHold.acquire cluster).run [] (.ret r) log')
    (hlisted : ∀ names, .listed names ∈ log' → ∀ n ∈ names, validClusterName n = true) :
    Acquired cluster r log' := by
  unfold PoolerHold.acquire registry at h
  rcases Machine.answering_ask.mp h with ⟨records, h⟩ | ⟨e, rfl, rfl⟩
  swap
  · exact .unlisted e
  have hgrows : [.listed (records.map PoolerRecord.name)] <+: log' := log_grows h
  obtain ⟨ids, hids⟩ := exists_ids (hlisted _ (hgrows.subset List.mem_cons_self))
  rcases Machine.answering_bind h with ⟨held, w, hpause, h⟩ | ⟨e, hpause, rfl⟩
  · rcases pauseEach_run hids hpause with ⟨hheld, rfl⟩ | ⟨pre, id, post, evs, -, ⟨e, he⟩, -⟩
    · cases hheld
      have hheld := @Acquired.held cluster ids
      have hunrecorded := @Acquired.unrecorded cluster ids
      rw [← hids] at hheld hunrecorded
      unfold recordEvent registry at h
      rcases Machine.answering_ask.mp h with ⟨u, h⟩ | ⟨e, rfl, rfl⟩
      · obtain ⟨rfl, rfl⟩ := Machine.answering_pure.mp h
        exact hheld
      · exact hunrecorded e
    · exact nomatch he
  · rcases pauseEach_run hids hpause with ⟨hheld, -⟩ | ⟨pre, id, post, evs, rfl, -, hevs, rfl⟩
    · exact nomatch hheld
    · exact .unpaused e hids hevs

end Hold

/-! ## The whole hold -/

/-- Every pooler that was sent a pause has been sent a resume for the same cluster. -/
def AllResumed (log : List HoldEvent) : Prop :=
  ∀ container args ok, .sent "pause" container args ok ∈ log →
    ∃ ok', .sent "resume" container args ok' ∈ log

/-- What has to go well: every pause; the event after them, if there was a pooler to pause; and
after a recreate every reconnect and every resume but the last pooler's. -/
structure Undisturbed (finish : Finish) (log : List HoldEvent) : Prop where
  pauses : ∀ container args, .sent "pause" container args false ∉ log
  event : .recorded false ∈ log → ∀ names, .listed names ∈ log → names = []
  reconnects : ∀ container args, .sent "reconnect" container args false ∉ log
  resumes : finish = .releaseAfterRecreate → ∀ container args,
    .sent "resume" container args false ∈ log → ∀ names, .listed names ∈ log →
      names.getLast?.map ("pgpod-pooler-" ++ ·) = some container

section Whole

variable {cluster : ClusterId} {finish : Finish} {names : List String} {pre post ids : List PoolerId}
  {id : PoolerId} {evs : List HoldEvent}

/-- The record of a hold that was taken, and what came after it. -/
def heldLog (cluster : ClusterId) (ids : List PoolerId) (evs : List HoldEvent) : List HoldEvent :=
  .listed (ids.map PoolerId.name) ::
    (ids.map (HoldEvent.to cluster "pause" · true) ++ [.recorded true]) ++ evs

theorem pause_mem_heldLog {container : String} {args : List String} {ok : Bool}
    (hevs : ∀ e ∈ evs, ∃ id verb ok, e = .to cluster verb id ok ∧ verb ≠ "pause") :
    .sent "pause" container args ok ∈ heldLog cluster ids evs ↔
      ∃ id ∈ ids, id.containerName = container ∧ [cluster.asStr] = args ∧ true = ok := by
  have hnot : HoldEvent.sent "pause" container args ok ∉ evs := by
    intro hmem
    obtain ⟨id, verb, ok', heq, hverb⟩ := hevs _ hmem
    simp only [HoldEvent.to, HoldEvent.sent.injEq] at heq
    exact hverb heq.1.symm
  simp [heldLog, hnot, HoldEvent.to]

theorem other_mem_heldLog {verb container : String} {args : List String} {ok : Bool}
    (hverb : verb ≠ "pause") :
    .sent verb container args ok ∈ heldLog cluster ids evs ↔
      .sent verb container args ok ∈ evs := by
  simp [heldLog, HoldEvent.to, Ne.symm hverb]

/-- After a hold that was taken, it is the resumes among what follows that count. -/
theorem allResumed_heldLog
    (hevs : ∀ e ∈ evs, ∃ id verb ok, e = .to cluster verb id ok ∧ verb ≠ "pause") :
    AllResumed (heldLog cluster ids evs) ↔
      ∀ id ∈ ids, ∃ ok, .to cluster "resume" id ok ∈ evs := by
  constructor
  · intro hall id hid
    obtain ⟨ok, hok⟩ := hall id.containerName [cluster.asStr] true
      ((pause_mem_heldLog hevs).2 ⟨id, hid, rfl, rfl, rfl⟩)
    exact ⟨ok, (other_mem_heldLog (by decide)).1 hok⟩
  · intro hall container args ok hpause
    obtain ⟨id, hid, rfl, rfl, -⟩ := (pause_mem_heldLog hevs).1 hpause
    obtain ⟨ok', hok'⟩ := hall id hid
    exact ⟨ok', (other_mem_heldLog (by decide)).2 hok'⟩

/-- A pooler whose pause fails is left as it is. -/
theorem unpaused_iff (hnodup : (pre ++ id :: post).Nodup) (hevs : Resumes cluster pre evs) :
    AllResumed (.listed names :: (pre.map (HoldEvent.to cluster "pause" · true) ++
        .to cluster "pause" id false :: evs)) ↔
      Undisturbed finish (.listed names :: (pre.map (HoldEvent.to cluster "pause" · true) ++
        .to cluster "pause" id false :: evs)) := by
  refine iff_of_false (fun hall => ?_) (fun hcalm => ?_)
  · obtain ⟨ok, hok⟩ := hall id.containerName [cluster.asStr] false (by simp [HoldEvent.to])
    have hmem : .to cluster "resume" id ok ∈ evs := by
      change HoldEvent.to cluster "resume" id ok ∈ _ at hok
      simpa [HoldEvent.to] using hok
    obtain ⟨id', hid', ok', hev⟩ := hevs.only _ hmem
    obtain ⟨-, rfl, -⟩ := HoldEvent.to_inj.mp hev
    exact (List.nodup_append.mp hnodup).2.2 id hid' id List.mem_cons_self rfl
  · exact hcalm.pauses id.containerName [cluster.asStr] (by simp [HoldEvent.to])

/-- Without the event, no pooler is resumed. -/
theorem unrecorded_iff :
    AllResumed (.listed (ids.map PoolerId.name) ::
        (ids.map (HoldEvent.to cluster "pause" · true) ++ [.recorded false])) ↔
      Undisturbed finish (.listed (ids.map PoolerId.name) ::
        (ids.map (HoldEvent.to cluster "pause" · true) ++ [.recorded false])) := by
  cases ids with
  | nil => exact iff_of_true (by simp [AllResumed]) ⟨by simp, by simp, by simp, by simp⟩
  | cons id ids =>
    refine iff_of_false (fun hall => ?_) (fun hcalm => ?_)
    · obtain ⟨ok, hok⟩ := hall id.containerName [cluster.asStr] true (by simp [HoldEvent.to])
      simp [HoldEvent.to] at hok
    · exact nomatch hcalm.event (by simp) _ List.mem_cons_self

theorem recorded_mem_heldLog
    (hevs : ∀ e ∈ evs, ∃ id verb ok, e = .to cluster verb id ok ∧ verb ≠ "pause") :
    .recorded false ∉ heldLog cluster ids evs := by
  have hnot : HoldEvent.recorded false ∉ evs := by
    intro hmem
    obtain ⟨id, verb, ok, heq, -⟩ := hevs _ hmem
    cases heq
  simp [heldLog, hnot, HoldEvent.to]

theorem listed_mem_heldLog
    (hevs : ∀ e ∈ evs, ∃ id verb ok, e = .to cluster verb id ok ∧ verb ≠ "pause") :
    .listed names ∈ heldLog cluster ids evs ↔ names = ids.map PoolerId.name := by
  have hnot : HoldEvent.listed names ∉ evs := by
    intro hmem
    obtain ⟨id, verb, ok, heq, -⟩ := hevs _ hmem
    cases heq
  simp [heldLog, hnot, HoldEvent.to]

/-- A released hold leaves nobody paused. -/
theorem released_iff (hevs : Resumes cluster ids evs) :
    AllResumed (heldLog cluster ids evs) ↔ Undisturbed .release (heldLog cluster ids evs) := by
  have hverbs : ∀ e ∈ evs, ∃ id verb ok, e = .to cluster verb id ok ∧ verb ≠ "pause" := by
    intro e he
    obtain ⟨id, -, ok, heq⟩ := hevs.only e he
    exact ⟨id, "resume", ok, heq, by decide⟩
  refine iff_of_true ((allResumed_heldLog hverbs).2 hevs.all) ⟨?_, ?_, ?_, nofun⟩
  · intro container args hpause
    obtain ⟨id, -, -, -, hok⟩ := (pause_mem_heldLog hverbs).1 hpause
    cases hok
  · intro hevent
    exact absurd hevent (recorded_mem_heldLog hverbs)
  · intro container args hreconnect
    obtain ⟨id, -, ok, heq⟩ := hevs.only _ ((other_mem_heldLog (by decide)).1 hreconnect)
    simp [HoldEvent.to] at heq

/-- After a recreate, the reconnects and the resumes decide. -/
theorem recreated_iff
    (honly : ∀ e ∈ evs, ∃ id ∈ ids, ∃ ok, e = .to cluster "reconnect" id ok ∨
      e = .to cluster "resume" id ok)
    (hiff : (∀ id ∈ ids, ∃ ok, .to cluster "resume" id ok ∈ evs) ↔ Calm cluster ids evs) :
    AllResumed (heldLog cluster ids evs) ↔
      Undisturbed .releaseAfterRecreate (heldLog cluster ids evs) := by
  have hverbs : ∀ e ∈ evs, ∃ id verb ok, e = .to cluster verb id ok ∧ verb ≠ "pause" := by
    intro e he
    obtain ⟨id, -, ok, heq | heq⟩ := honly e he
    · exact ⟨id, "reconnect", ok, heq, by decide⟩
    · exact ⟨id, "resume", ok, heq, by decide⟩
  have hto {verb container : String} {args : List String} {ok : Bool}
      (hmem : .sent verb container args ok ∈ evs) :
      ∃ id, id.containerName = container ∧ .to cluster verb id ok ∈ evs := by
    obtain ⟨id, verb', ok', heq, -⟩ := hverbs _ hmem
    simp only [HoldEvent.to, HoldEvent.sent.injEq] at heq
    obtain ⟨rfl, rfl, rfl, rfl⟩ := heq
    exact ⟨id, rfl, hmem⟩
  rw [allResumed_heldLog hverbs, hiff]
  constructor
  · rintro ⟨hreconnects, hresumes⟩
    refine ⟨?_, ?_, ?_, ?_⟩
    · intro container args hpause
      obtain ⟨id, -, -, -, hok⟩ := (pause_mem_heldLog hverbs).1 hpause
      cases hok
    · intro hevent
      exact absurd hevent (recorded_mem_heldLog hverbs)
    · intro container args hreconnect
      obtain ⟨id, -, hmem⟩ := hto ((other_mem_heldLog (by decide)).1 hreconnect)
      exact hreconnects id hmem
    · intro _ container args hresume names hnames
      obtain ⟨id, rfl, hmem⟩ := hto ((other_mem_heldLog (by decide)).1 hresume)
      rw [(listed_mem_heldLog hverbs).1 hnames, List.getLast?_map, hresumes id hmem]
      rfl
  · rintro ⟨-, -, hreconnects, hresumes⟩
    refine ⟨fun id hmem => ?_, fun id hmem => ?_⟩
    · exact hreconnects _ _ ((other_mem_heldLog (by decide)).2 hmem)
    · have hlast := hresumes rfl _ _ ((other_mem_heldLog (by decide)).2 hmem) _
        ((listed_mem_heldLog hverbs).2 rfl)
      rw [List.getLast?_map] at hlast
      cases hids : ids.getLast? with
      | none => simp [hids] at hlast
      | some x =>
        rw [hids] at hlast
        have hname : x.containerName = id.containerName := Option.some.inj hlast
        rw [containerName_inj hname]

end Whole

/-! ## What the registry lists -/

/-- The poolers in front of a cluster are listed from tables of the registry. -/
def ListedFrom (json : StoredJson) : ∀ ⦃β : Type⦄, CtlOp β → β → Prop
  | _, .registry (.poolersForCluster c), .ok records =>
    ∃ T : Tables, T.poolersForCluster json c = .ok records
  | _, _, _ => True

/-- Each pooler is listed once, under a valid name. -/
def ListedOnce (log : List HoldEvent) : Prop :=
  ∀ names, .listed names ∈ log → names.Nodup ∧ ∀ n ∈ names, validClusterName n = true

theorem ListedOnce.record {json : StoredJson} {β : Type} {op : CtlOp β} {b : β}
    {log : List HoldEvent} (h : ListedOnce log) (hlisted : ListedFrom json op b) :
    ListedOnce (HoldEvent.record op b log) := by
  have happend : ∀ e, (∀ names, e ≠ .listed names) → ListedOnce (log ++ [e]) := by
    intro e he names hmem
    rcases List.mem_append.mp hmem with hold | hnew
    · exact h names hold
    · exact absurd (List.mem_singleton.mp hnew).symm (he names)
  cases op with
  | registry op =>
    cases op with
    | poolersForCluster c =>
      cases b with
      | error e => exact h
      | ok records =>
        obtain ⟨T, hT⟩ := hlisted
        intro names hmem
        rcases List.mem_append.mp hmem with hold | hnew
        · exact h names hold
        · obtain rfl := HoldEvent.listed.inj (List.mem_singleton.mp hnew)
          exact Tables.names_of_poolersForCluster hT
    | recordEvent c ordinal level message => exact happend _ nofun
    | _ => exact h
  | podman op =>
    cases op with
    | exec ref cmd =>
      cases cmd with
      | poolerControl verb args => exact happend _ nofun
      | _ => exact h
    | _ => exact h
  | host op => exact h

/-- In every run over the registry's own tables, each pooler is listed once. -/
theorem listed_once {json : StoredJson} {α : Type} {p q : Prog CtlOp α} {log log' : List HoldEvent}
    (h : (holdMachine.restrict (fun _ op _ b _ => ListedFrom json op b) fun _ _ => True).Reach p log
      q log') (hlog : ListedOnce log) : ListedOnce log' := by
  induction h with
  | refl => exact hlog
  | drift _ hd _ => exact hd.1.elim
  | call _ hstep ih =>
    obtain ⟨rfl, hlisted⟩ := hstep
    exact ih.record hlisted

/-- **A hold leaves no pooler paused exactly when nothing disturbed it.** The registry names each
pooler once. -/
theorem hold_resumes_iff {cluster : ClusterId} {finish : Finish} {r : Except Error Unit}
    {log : List HoldEvent}
    (h : holdMachine.Reach (PoolerHold.hold cluster finish).run [] (.ret r) log)
    (hlisted : ∀ names, .listed names ∈ log →
      names.Nodup ∧ ∀ n ∈ names, validClusterName n = true) :
    AllResumed log ↔ Undisturbed finish log := by
  have hids {ids : List PoolerId} (hmem : .listed (ids.map PoolerId.name) ∈ log) : ids.Nodup :=
    (hlisted _ hmem).1.of_map _
  have hvalid {log₁ : List HoldEvent} (hpre : log₁ <+: log) : ∀ names, .listed names ∈ log₁ →
      ∀ n ∈ names, validClusterName n = true :=
    fun names hnames => (hlisted names (hpre.subset hnames)).2
  rcases Machine.answering_bind h with ⟨held, log₁, hacquire, h⟩ | ⟨e, hacquire, -⟩
  · cases acquire_run hacquire (hvalid (log_grows h)) with
    | @held ids =>
      have hnodup := hids ((log_grows h).subset List.mem_cons_self)
      cases finish with
      | release =>
        obtain ⟨-, evs, rfl, hevs⟩ := release_run h
        exact released_iff hevs
      | releaseAfterRecreate =>
        obtain ⟨evs, rfl, honly, hiff⟩ := releaseAfterRecreate_run hnodup h
        exact recreated_iff honly hiff
  · cases acquire_run hacquire (hvalid List.prefix_rfl) with
    | unlisted e => exact iff_of_true (by simp [AllResumed]) ⟨by simp, by simp, by simp, by simp⟩
    | @unpaused names pre post id evs _ hnames hevs =>
      subst hnames
      exact unpaused_iff (hids List.mem_cons_self) hevs
    | unrecorded e => exact unrecorded_iff

namespace Sample

def mydbCluster : ClusterId := ⟨"mydb", mydb_valid⟩

def frontingMydb (name : String) : PoolerRecord where
  name := name
  manifest :=
    { apiVersion := "pgpod/v1", kind := "Pooler", metadata := ⟨name⟩
      spec := { clusters := [{ cluster := "mydb", pools := [{ database := "app" }] }] } }
  generation := 1
  containerName := "pgpod-pooler-" ++ name
  containerId := some "f0"
  hostPort := 6432
  phase := "running"
  pools := [⟨"mydb", "app", "app"⟩]

def heldThenRefused : List HoldEvent :=
  [.listed ["app"], .sent "pause" "pgpod-pooler-app" ["mydb"] true, .recorded false]

/-- The pooler is paused, the event is not written, and the hold is given up with nobody resumed. -/
theorem refused_event_leaves_paused :
    (∃ r, holdMachine.Reach (PoolerHold.hold mydbCluster .release).run [] (.ret r)
      heldThenRefused) ∧ ¬ AllResumed heldThenRefused := by
  refine ⟨⟨.error (.registry "disk I/O error"), ?_⟩, fun hall => ?_⟩
  · apply Machine.Reach.head (b := .ok [frontingMydb "app"]) rfl
    apply Machine.Reach.head (b := .ok ⟨true, "", ""⟩) rfl
    apply Machine.Reach.head (b := .error (.registry "disk I/O error")) rfl
    exact .refl
  · obtain ⟨ok, hok⟩ := hall "pgpod-pooler-app" ["mydb"] true (by decide)
    simp [heldThenRefused] at hok

def calmRecreate : List HoldEvent :=
  [.listed ["app"], .sent "pause" "pgpod-pooler-app" ["mydb"] true, .recorded true,
   .sent "reconnect" "pgpod-pooler-app" ["mydb"] true,
   .sent "resume" "pgpod-pooler-app" ["mydb"] false]

/-- The resume of the last pooler may fail: it was sent. -/
theorem calmRecreate_resumed : AllResumed calmRecreate ↔
    Undisturbed .releaseAfterRecreate calmRecreate := by
  have hrun : holdMachine.Reach (PoolerHold.hold mydbCluster .releaseAfterRecreate).run []
      (.ret (.error (.invalid "pooler app:  busy"))) calmRecreate := by
    apply Machine.Reach.head (b := .ok [frontingMydb "app"]) rfl
    apply Machine.Reach.head (b := .ok ⟨true, "", ""⟩) rfl
    apply Machine.Reach.head (b := .ok ()) rfl
    apply Machine.Reach.head (b := .ok ⟨true, "", ""⟩) rfl
    apply Machine.Reach.head (b := .ok ⟨false, "", "busy"⟩) rfl
    exact .refl
  refine hold_resumes_iff hrun fun names hnames => ?_
  simp only [calmRecreate, List.mem_cons, HoldEvent.listed.injEq, reduceCtorEq, List.not_mem_nil,
    or_false] at hnames
  subst hnames
  exact ⟨by decide, by decide⟩

end Sample

end Control

end Pgpod
