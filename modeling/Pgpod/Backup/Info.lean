import Pgpod.Core.Text

/-!
# What a repository says of itself

The answer of `pgbackrest info`, as far as choosing the backup to restore needs
it.  A stop time that chrono cannot represent is read as the present, so the
choice is the right one, and free of the clock, only among times it can.
-/

namespace Pgpod

/-- The first and the last second of the years that chrono represents. -/
def MIN_TIMESTAMP : Int := -8334601228800
def MAX_TIMESTAMP : Int := 8210266876799

/-- An instant, in nanoseconds since the epoch. -/
structure DateTime where
  nanos : Int
  min_le : MIN_TIMESTAMP * 1000000000 ≤ nanos
  lt_max : nanos < (MAX_TIMESTAMP + 1) * 1000000000
deriving DecidableEq

namespace DateTime

instance : LE DateTime := ⟨fun a b => a.nanos ≤ b.nanos⟩

instance (a b : DateTime) : Decidable (a ≤ b) := inferInstanceAs (Decidable (a.nanos ≤ b.nanos))

theorem le_def {a b : DateTime} : a ≤ b ↔ a.nanos ≤ b.nanos := Iff.rfl

/-- `Utc.timestamp_opt`: the instant of a Unix time, where there is one. -/
def timestampOpt (secs : Int) : Option DateTime :=
  if h : MIN_TIMESTAMP ≤ secs ∧ secs ≤ MAX_TIMESTAMP then
    some ⟨secs * 1000000000, by omega, by omega⟩
  else none

end DateTime

/-- One backup, as far as choosing one to restore needs it. -/
structure Backup where
  label : String
  /-- When it ended, in seconds. -/
  stop : Int
  /-- The repository's id of the cluster version it belongs to. -/
  database : Int
deriving DecidableEq

/-- When the backup finished, or what the clock shows if that is no instant. -/
def Backup.endedAt (now : DateTime) (b : Backup) : DateTime :=
  (DateTime.timestampOpt b.stop).getD now

structure StanzaInfo where
  name : String
  backup : List Backup
  /-- The cluster versions the stanza has been through: id and major version. -/
  db : List (Int × String)
deriving DecidableEq

namespace StanzaInfo

/-- The sort is stable. -/
def backupsOldestFirst (s : StanzaInfo) : List Backup :=
  s.backup.mergeSort fun a b => decide (a.stop ≤ b.stop)

def versionOf (s : StanzaInfo) (b : Backup) : Option String :=
  ((s.db.find? fun d => d.1 = b.database).map Prod.snd).filter fun v => !v.isEmpty

/-- The version with the greatest id, the last of them on a tie. -/
def currentVersion (s : StanzaInfo) : Option String :=
  let newest := s.db.foldl (fun (best : Option (Int × String)) d =>
    if best.all fun b => b.1 ≤ d.1 then some d else best) none
  (newest.map Prod.snd).filter fun v => !v.isEmpty

/-- The first backup that had ended by the target.  The clock is read anew at each. -/
def findEnded (target : Option DateTime) : (Nat → DateTime) → List Backup → Option Backup
  | _, [] => none
  | clock, b :: rest =>
    if target.all fun t => decide (b.endedAt (clock 0) ≤ t) then some b
    else findEnded target (fun k => clock (k + 1)) rest

/-- The newest backup that had ended by the target. -/
def backupForTarget (s : StanzaInfo) (clock : Nat → DateTime) (target : Option DateTime) :
    Option Backup :=
  findEnded target clock s.backupsOldestFirst.reverse

/-! ## The choice as a repository's times determine it -/

/-- The backup's stop time is at or before the target; every time is, without one. -/
def StoppedBy (target : Option DateTime) (b : Backup) : Prop :=
  ∀ t, target = some t → b.stop * 1000000000 ≤ t.nanos

/-- The second target is not before the first; none is after all. -/
def NotBefore : Option DateTime → Option DateTime → Prop
  | _, none => True
  | none, some _ => False
  | some t, some u => t ≤ u

/-- The stop times of a list are those of another. -/
def SameStops (s s' : StanzaInfo) : Prop :=
  ∀ n, n ∈ s.backup.map Backup.stop ↔ n ∈ s'.backup.map Backup.stop

/-- The choice of a backup is right: what it finds, what it depends on, and its order. -/
structure Chooses (s : StanzaInfo) : Prop where
  none_iff : ∀ clock target, s.backupForTarget clock target = none ↔
    ∀ b ∈ s.backup, ¬ StoppedBy target b
  newest : ∀ clock target b, s.backupForTarget clock target = some b →
    b ∈ s.backup ∧ StoppedBy target b ∧ ∀ b' ∈ s.backup, StoppedBy target b' → b'.stop ≤ b.stop
  determined : ∀ s' clock clock' target, SameStops s s' →
    (s.backupForTarget clock target).map Backup.stop =
      (s'.backupForTarget clock' target).map Backup.stop
  monotone : ∀ clock clock' t u b, NotBefore t u → s.backupForTarget clock t = some b →
    ∃ b', s.backupForTarget clock' u = some b' ∧ b.stop ≤ b'.stop

/-- No stop time is beyond the last instant, and one before the first has another backup at the
first instant in front of it. -/
def Representable (backups : List Backup) : Prop :=
  ∀ b ∈ backups, b.stop ≤ MAX_TIMESTAMP ∧
    (MIN_TIMESTAMP ≤ b.stop ∨ ∃ b' ∈ backups, b'.stop = MIN_TIMESTAMP)

instance (target : Option DateTime) (b : Backup) : Decidable (StoppedBy target b) :=
  match target with
  | none => .isTrue fun _ h => nomatch h
  | some t => decidable_of_iff (b.stop * 1000000000 ≤ t.nanos)
      ⟨fun h _ ht => Option.some.inj ht ▸ h, fun h => h t rfl⟩

theorem stoppedBy_none (b : Backup) : StoppedBy none b := fun _ h => nomatch h

theorem stoppedBy_some {t : DateTime} {b : Backup} :
    StoppedBy (some t) b ↔ b.stop * 1000000000 ≤ t.nanos :=
  ⟨fun h => h t rfl, fun h _ ht => Option.some.inj ht ▸ h⟩

/-- The test, where the clock is not read. -/
theorem ended_iff {b : Backup} (hmin : MIN_TIMESTAMP ≤ b.stop) (hmax : b.stop ≤ MAX_TIMESTAMP)
    (now : DateTime) (target : Option DateTime) :
    (target.all fun t => decide (b.endedAt now ≤ t)) = true ↔ StoppedBy target b := by
  cases target with
  | none => simp [stoppedBy_none]
  | some t =>
    simp only [Option.all_some, decide_eq_true_eq, stoppedBy_some, Backup.endedAt,
      DateTime.timestampOpt, dif_pos (And.intro hmin hmax), Option.getD_some, DateTime.le_def]

/-- The test, where it is. -/
theorem ended_clock_iff {b : Backup} (h : ¬ (MIN_TIMESTAMP ≤ b.stop ∧ b.stop ≤ MAX_TIMESTAMP))
    (now t : DateTime) :
    ((some t).all fun t => decide (b.endedAt now ≤ t)) = true ↔ now ≤ t := by
  simp only [Option.all_some, decide_eq_true_eq, Backup.endedAt, DateTime.timestampOpt, dif_neg h,
    Option.getD_none]

theorem findEnded_mem {target : Option DateTime} {clock : Nat → DateTime} {l : List Backup}
    {b : Backup} (h : findEnded target clock l = some b) :
    b ∈ l ∧ ∃ k, (target.all fun t => decide (b.endedAt (clock k) ≤ t)) = true := by
  induction l generalizing clock with
  | nil => cases h
  | cons a rest ih =>
    unfold findEnded at h
    split at h
    · rename_i hended
      obtain rfl := Option.some.inj h
      exact ⟨List.mem_cons_self, 0, hended⟩
    · obtain ⟨hmem, k, hended⟩ := ih h
      exact ⟨List.mem_cons_of_mem _ hmem, k + 1, hended⟩

/-- Newest first, among representable times, the clock is never decisive. -/
theorem findEnded_eq_find {target : Option DateTime} {clock : Nat → DateTime} {l : List Backup}
    (hsorted : l.Pairwise fun a b => b.stop ≤ a.stop) (hrep : Representable l) :
    findEnded target clock l = l.find? fun b => decide (StoppedBy target b) := by
  induction l generalizing clock with
  | nil => rfl
  | cons b rest ih =>
    obtain ⟨hhead, htail⟩ := List.pairwise_cons.mp hsorted
    obtain ⟨hmax, hlow⟩ := hrep b List.mem_cons_self
    -- the earliest instant, if it is needed, is not behind the newest backup
    have hmin : MIN_TIMESTAMP ≤ b.stop := by
      rcases hlow with hmin | ⟨b', hmem, hstop⟩
      · exact hmin
      · rcases List.mem_cons.mp hmem with rfl | hmem
        · omega
        · have := hhead b' hmem
          omega
    have htest := ended_iff hmin hmax (clock 0) target
    unfold findEnded
    by_cases hstopped : StoppedBy target b
    · rw [if_pos (htest.mpr hstopped), List.find?_cons_of_pos (by simpa using hstopped)]
    · rw [if_neg (fun h => hstopped (htest.mp h)), List.find?_cons_of_neg (by simpa using hstopped)]
      refine ih htail fun c hc => ?_
      obtain ⟨hcmax, hclow⟩ := hrep c (List.mem_cons_of_mem _ hc)
      refine ⟨hcmax, hclow.imp_right ?_⟩
      rintro ⟨b', hmem, hstop⟩
      rcases List.mem_cons.mp hmem with rfl | hmem
      · -- a backup of the first instant has stopped by every target
        refine absurd (fun t _ => ?_) hstopped
        have := t.min_le
        omega
      · exact ⟨b', hmem, hstop⟩

theorem pairwise_oldestFirst (s : StanzaInfo) :
    s.backupsOldestFirst.Pairwise fun a b => a.stop ≤ b.stop := by
  have hsorted : s.backupsOldestFirst.Pairwise fun a b => decide (a.stop ≤ b.stop) = true :=
    List.pairwise_mergeSort (fun a b c hab hbc => by simp only [decide_eq_true_eq] at *; omega)
      (fun a b => by simp only [Bool.or_eq_true, decide_eq_true_eq]; omega) s.backup
  exact hsorted.imp fun h => by simpa using h

theorem mem_oldestFirst {s : StanzaInfo} {b : Backup} :
    b ∈ s.backupsOldestFirst.reverse ↔ b ∈ s.backup := by
  rw [List.mem_reverse, backupsOldestFirst, List.mem_mergeSort]

theorem newestFirst (s : StanzaInfo) :
    s.backupsOldestFirst.reverse.Pairwise fun a b => b.stop ≤ a.stop :=
  List.pairwise_reverse.mpr s.pairwise_oldestFirst

theorem representable_congr {l l' : List Backup} (h : ∀ b, b ∈ l ↔ b ∈ l') :
    Representable l ↔ Representable l' := by
  simp only [Representable, h]

theorem backupForTarget_eq {s : StanzaInfo} (hrep : Representable s.backup)
    (clock : Nat → DateTime) (target : Option DateTime) :
    s.backupForTarget clock target =
      s.backupsOldestFirst.reverse.find? fun b => decide (StoppedBy target b) :=
  findEnded_eq_find s.newestFirst ((representable_congr fun _ => mem_oldestFirst).mpr hrep)

/-- In a list newest first, what is found is the newest of its kind. -/
theorem find_newest {l : List Backup} {p : Backup → Bool} {b : Backup}
    (hsorted : l.Pairwise fun a b => b.stop ≤ a.stop) (h : l.find? p = some b) :
    ∀ b' ∈ l, p b' = true → b'.stop ≤ b.stop := by
  induction l with
  | nil => cases h
  | cons a rest ih =>
    obtain ⟨hhead, htail⟩ := List.pairwise_cons.mp hsorted
    by_cases hp : p a = true
    · rw [List.find?_cons_of_pos hp] at h
      obtain rfl := Option.some.inj h
      intro b' hmem _
      rcases List.mem_cons.mp hmem with rfl | hmem
      · exact Int.le_refl _
      · exact hhead b' hmem
    · rw [List.find?_cons_of_neg hp] at h
      intro b' hmem hb'
      rcases List.mem_cons.mp hmem with rfl | hmem
      · exact absurd hb' hp
      · exact ih htail h b' hmem hb'

section

variable {s : StanzaInfo}

theorem backupForTarget_none_iff (hrep : Representable s.backup) (clock : Nat → DateTime)
    (target : Option DateTime) :
    s.backupForTarget clock target = none ↔ ∀ b ∈ s.backup, ¬ StoppedBy target b := by
  rw [backupForTarget_eq hrep, List.find?_eq_none]
  simp only [mem_oldestFirst, decide_eq_true_eq]

theorem backupForTarget_newest (hrep : Representable s.backup) {clock : Nat → DateTime}
    {target : Option DateTime} {b : Backup} (h : s.backupForTarget clock target = some b) :
    b ∈ s.backup ∧ StoppedBy target b ∧ ∀ b' ∈ s.backup, StoppedBy target b' → b'.stop ≤ b.stop := by
  rw [backupForTarget_eq hrep] at h
  refine ⟨mem_oldestFirst.mp (List.mem_of_find?_eq_some h), by simpa using List.find?_some h, ?_⟩
  intro b' hmem hstopped
  exact find_newest s.newestFirst h b' (mem_oldestFirst.mpr hmem) (by simpa using hstopped)

/-- A backup that qualifies makes the choice find one that is no older. -/
theorem backupForTarget_finds (hrep : Representable s.backup) (clock : Nat → DateTime)
    {target : Option DateTime} {b : Backup} (hmem : b ∈ s.backup) (hb : StoppedBy target b) :
    ∃ b', s.backupForTarget clock target = some b' ∧ b.stop ≤ b'.stop := by
  cases hchosen : s.backupForTarget clock target with
  | none => exact absurd hb ((backupForTarget_none_iff hrep clock target).mp hchosen b hmem)
  | some b' => exact ⟨b', rfl, (backupForTarget_newest hrep hchosen).2.2 b hmem hb⟩

theorem NotBefore.stoppedBy {t u : Option DateTime} (h : NotBefore t u) {b : Backup}
    (hb : StoppedBy t b) : StoppedBy u b := by
  cases u with
  | none => exact stoppedBy_none b
  | some u =>
    cases t with
    | none => exact h.elim
    | some t => exact stoppedBy_some.mpr (Int.le_trans (stoppedBy_some.mp hb) h)

/-- Whether a time qualifies does not depend on whose it is. -/
theorem StoppedBy.of_stop {target : Option DateTime} {b b' : Backup} (h : StoppedBy target b)
    (hstop : b'.stop = b.stop) : StoppedBy target b' := by
  intro t ht
  rw [hstop]
  exact h t ht

theorem SameStops.symm {s' : StanzaInfo} (h : SameStops s s') : SameStops s' s :=
  fun n => (h n).symm

theorem SameStops.exists {s' : StanzaInfo} (h : SameStops s s') {b : Backup} (hb : b ∈ s.backup) :
    ∃ b' ∈ s'.backup, b'.stop = b.stop :=
  List.mem_map.mp ((h b.stop).mp (List.mem_map_of_mem hb))

theorem SameStops.representable {s' : StanzaInfo} (h : SameStops s s')
    (hrep : Representable s.backup) : Representable s'.backup := by
  intro b hb
  obtain ⟨a, ha, hstop⟩ := h.symm.exists hb
  obtain ⟨hmax, hlow⟩ := hrep a ha
  refine ⟨hstop ▸ hmax, ?_⟩
  rcases hlow with hmin | ⟨c, hc, hcstop⟩
  · exact .inl (hstop ▸ hmin)
  · obtain ⟨c', hc', hcstop'⟩ := h.exists hc
    exact .inr ⟨c', hc', hcstop'.trans hcstop⟩

/-- What one list of these stop times yields, another yields no older. -/
theorem SameStops.finds {s' : StanzaInfo} (h : SameStops s s') (hrep : Representable s.backup)
    {clock : Nat → DateTime} (clock' : Nat → DateTime) {target : Option DateTime} {b : Backup}
    (hb : s.backupForTarget clock target = some b) :
    ∃ b', s'.backupForTarget clock' target = some b' ∧ b.stop ≤ b'.stop := by
  obtain ⟨hmem, hstopped, -⟩ := backupForTarget_newest hrep hb
  obtain ⟨a, ha, hstop⟩ := h.exists hmem
  rw [← hstop]
  exact backupForTarget_finds (h.representable hrep) clock' ha (hstopped.of_stop hstop)

theorem chooses_of_representable (hrep : Representable s.backup) : Chooses s where
  none_iff := backupForTarget_none_iff hrep
  newest _ _ _ h := backupForTarget_newest hrep h
  determined s' clock clock' target hsame := by
    have hrep' := hsame.representable hrep
    cases hs : s.backupForTarget clock target with
    | none =>
      cases hs' : s'.backupForTarget clock' target with
      | none => rfl
      | some b' =>
        obtain ⟨b, hb, -⟩ := hsame.symm.finds hrep' clock hs'
        rw [hs] at hb
        cases hb
    | some b =>
      obtain ⟨b', hb', hle⟩ := hsame.finds hrep clock' hs
      obtain ⟨c, hc, hge⟩ := hsame.symm.finds hrep' clock hb'
      obtain rfl : b = c := Option.some.inj (hs.symm.trans hc)
      rw [hb', Option.map_some, Option.map_some, Int.le_antisymm hle hge]
  monotone clock clock' t u b hlater hb := by
    obtain ⟨hmem, hstopped, -⟩ := backupForTarget_newest hrep hb
    exact backupForTarget_finds hrep clock' hmem (hlater.stoppedBy hstopped)

/-- The first instant, and the one after it. -/
def firstInstant : DateTime := ⟨MIN_TIMESTAMP * 1000000000, by decide, by decide⟩

def secondInstant : DateTime := ⟨MIN_TIMESTAMP * 1000000000 + 1, by decide, by decide⟩

/-- A stop time past the last instant is chosen for every target that the clock has not passed. -/
theorem stop_le_of_chooses (h : Chooses s) {b : Backup} (hb : b ∈ s.backup) :
    b.stop ≤ MAX_TIMESTAMP := by
  by_contra hlate
  have hsorted := s.newestFirst
  cases hnewest : s.backupsOldestFirst.reverse with
  | nil =>
    have hmem := mem_oldestFirst.mpr hb
    rw [hnewest] at hmem
    cases hmem
  | cons a rest =>
    -- the newest is no older than `b`, so the clock speaks for it too
    have hle : b.stop ≤ a.stop := by
      have hmem := mem_oldestFirst.mpr hb
      rw [hnewest] at hmem hsorted
      rcases List.mem_cons.mp hmem with rfl | hmem
      · exact Int.le_refl _
      · exact (List.pairwise_cons.mp hsorted).1 b hmem
    have hended := (ended_clock_iff (b := a) (by omega) firstInstant firstInstant).mpr (Int.le_refl _)
    have hchosen : s.backupForTarget (fun _ => firstInstant) (some firstInstant) = some a := by
      rw [backupForTarget, hnewest, findEnded, if_pos hended]
    have hstopped := stoppedBy_some.mp (h.newest _ _ _ hchosen).2.1
    have hfirst : firstInstant.nanos = MIN_TIMESTAMP * 1000000000 := rfl
    have hrange : MIN_TIMESTAMP ≤ MAX_TIMESTAMP := by decide
    omega

/-- A stop time before the first instant is passed over while the clock is past the target. -/
theorem first_of_chooses (h : Chooses s) {b : Backup} (hb : b ∈ s.backup)
    (hearly : b.stop < MIN_TIMESTAMP) : ∃ b' ∈ s.backup, b'.stop = MIN_TIMESTAMP := by
  have hstopped : StoppedBy (some firstInstant) b := by
    have hfirst : firstInstant.nanos = MIN_TIMESTAMP * 1000000000 := rfl
    exact stoppedBy_some.mpr (by omega)
  cases hchosen : s.backupForTarget (fun _ => secondInstant) (some firstInstant) with
  | none => exact absurd hstopped ((h.none_iff _ _).mp hchosen b hb)
  | some c =>
    obtain ⟨hmem, hc, -⟩ := h.newest _ _ _ hchosen
    obtain ⟨-, k, hended⟩ := findEnded_mem hchosen
    have hfirst : firstInstant.nanos = MIN_TIMESTAMP * 1000000000 := rfl
    have hcle := stoppedBy_some.mp hc
    by_cases hlow : MIN_TIMESTAMP ≤ c.stop
    · exact ⟨c, hmem, by omega⟩
    · have hclock := (ended_clock_iff (by omega) secondInstant firstInstant).mp hended
      exact absurd hclock (by decide)

/-- **The choice is right exactly where the stop times are instants.** -/
theorem chooses_iff (s : StanzaInfo) : Chooses s ↔ Representable s.backup := by
  refine ⟨fun h b hb => ⟨stop_le_of_chooses h hb, ?_⟩, chooses_of_representable⟩
  by_cases hmin : MIN_TIMESTAMP ≤ b.stop
  · exact .inl hmin
  · exact .inr (first_of_chooses h hb (by omega))

end

/-- A backup whose stop time no instant has. -/
def beyond : StanzaInfo := ⟨"mydb", [⟨"20260101-000000F", 9000000000000, 1⟩], [(1, "18")]⟩

/-- The epoch, and one second later. -/
def epoch : DateTime := ⟨0, by decide, by decide⟩

/-- **A backup that stopped after the target is chosen for it** once the clock shows the target. -/
theorem later_backup_chosen : ¬ Chooses beyond ∧
    (beyond.backupForTarget (fun _ => epoch) (some epoch)).map Backup.stop = some 9000000000000 := by
  refine ⟨fun h => ?_, by decide +kernel⟩
  exact absurd (stop_le_of_chooses h List.mem_cons_self) (by decide)

end StanzaInfo

end Pgpod
