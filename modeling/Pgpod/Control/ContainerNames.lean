import Pgpod.Core.Ids
import Mathlib.Data.Set.Function

/-!
# The names of the containers

Every container pgpod creates is an instance, a pooler or a job, and all of them
live in one podman namespace.  A cluster's containers are told apart by reading
their names backwards, one `-`-separated word at a time: the ordinal, the job and
the stamp cannot be confused.  A pooler's name reads like that of a container of
a cluster called `pooler`, or `pooler-` and more, and there the names do collide.
-/

namespace Pgpod

namespace Control

/-! ## Stamps -/

/-- The clock's reading in UTC.  The clock does not go back beyond the Unix epoch. -/
structure UtcTime where
  year : Nat
  month : Nat
  day : Nat
  hour : Nat
  minute : Nat
  second : Nat
  year_ge : 1970 ≤ year
  month_le : month ≤ 12
  day_le : day ≤ 31
  hour_lt : hour < 24
  minute_lt : minute < 60
  second_le : second ≤ 60
deriving DecidableEq

/-- Two decimal digits. -/
def hundreds (n : Nat) : List Char := [(n / 10).digitChar, (n % 10).digitChar]

/-- `%Y`: four digits, and a sign before a year that needs more. -/
def yearText (year : Nat) : List Char :=
  if year ≤ 9999 then hundreds (year / 100) ++ hundreds (year % 100)
  else '+' :: Nat.toDigits 10 year

/-- `%Y%m%dt%H%M%S`. -/
def UtcTime.stampChars (t : UtcTime) : List Char :=
  yearText t.year ++ (hundreds t.month ++ hundreds t.day ++
    't' :: (hundreds t.hour ++ hundreds t.minute ++ hundreds t.second))

/-- A compact timestamp, for naming job containers. -/
def UtcTime.stamp (t : UtcTime) : String := String.ofList t.stampChars

theorem digitChar_inj : ∀ m < 10, ∀ n < 10, m.digitChar = n.digitChar → m = n := by decide

theorem hundreds_inj {m n : Nat} (hm : m < 100) (hn : n < 100) (h : hundreds m = hundreds n) :
    m = n := by
  simp only [hundreds, List.cons.injEq, and_true] at h
  obtain ⟨htens, hones⟩ := h
  have := digitChar_inj _ (by omega) _ (by omega) htens
  have := digitChar_inj _ (by omega) _ (by omega) hones
  omega

theorem yearText_inj {m n : Nat} (h : yearText m = yearText n) : m = n := by
  unfold yearText at h
  split at h
  · next hm =>
    split at h
    · next hn =>
      obtain ⟨hhigh, hlow⟩ := List.append_inj h rfl
      have := hundreds_inj (by omega) (by omega) hhigh
      have := hundreds_inj (by omega) (by omega) hlow
      omega
    · have hsign := (List.cons.inj h).1
      have hdigit : ((m / 100) / 10).digitChar.isDigit = true := by
        simp only [Nat.isDigit_digitChar, decide_eq_true_eq]; omega
      rw [hsign] at hdigit
      exact absurd hdigit (by decide)
  · split at h
    · next hn =>
      have hsign := (List.cons.inj h).1
      have hdigit : ((n / 100) / 10).digitChar.isDigit = true := by
        simp only [Nat.isDigit_digitChar, decide_eq_true_eq]; omega
      rw [← hsign] at hdigit
      exact absurd hdigit (by decide)
    · have hdigits := (List.cons.inj h).2
      rw [← Nat.ofDigitChars_toDigits (b := 10) (n := m) (by omega) (by omega), hdigits,
        Nat.ofDigitChars_toDigits (by omega) (by omega)]

theorem UtcTime.stampChars_inj {s t : UtcTime} (h : s.stampChars = t.stampChars) : s = t := by
  obtain ⟨hyear, hrest⟩ := List.append_inj' h rfl
  simp only [hundreds, List.cons_append, List.nil_append, List.cons.injEq, and_true, true_and]
    at hrest
  have key {m n : Nat} (hm : m < 100) (hn : n < 100) (h1 : (m / 10).digitChar = (n / 10).digitChar)
      (h2 : (m % 10).digitChar = (n % 10).digitChar) : m = n :=
    hundreds_inj hm hn (by simp only [hundreds, h1, h2])
  obtain ⟨m1, m2, d1, d2, h1, h2, i1, i2, s1, s2⟩ := hrest
  cases s; cases t
  simp only [UtcTime.mk.injEq]
  exact ⟨yearText_inj hyear, key (by omega) (by omega) m1 m2, key (by omega) (by omega) d1 d2,
    key (by omega) (by omega) h1 h2, key (by omega) (by omega) i1 i2,
    key (by omega) (by omega) s1 s2⟩

/-- A stamp is one word. -/
theorem UtcTime.dash_notMem_stampChars (t : UtcTime) : '-' ∉ t.stampChars := by
  have hdigit {n : Nat} (h : '-' = n.digitChar) (hn : n < 10) : False := by
    have : n.digitChar.isDigit = true := by simpa only [Nat.isDigit_digitChar, decide_eq_true_eq]
    rw [← h] at this
    exact absurd this (by decide)
  have hhundreds {n : Nat} (hn : n < 100) : '-' ∉ hundreds n := by
    intro h
    simp only [hundreds, List.mem_cons, List.not_mem_nil, or_false] at h
    rcases h with h | h
    · exact hdigit h (by omega)
    · exact hdigit h (by omega)
  have hyear : '-' ∉ yearText t.year := by
    unfold yearText
    split
    · simp only [List.mem_append, not_or]
      exact ⟨hhundreds (by omega), hhundreds (by omega)⟩
    · simp only [List.mem_cons, not_or]
      refine ⟨by decide, fun h => ?_⟩
      exact absurd (Nat.isDigit_of_mem_toDigits (by omega) (by omega) h) (by decide)
  have hmonth := hhundreds (n := t.month) (by have := t.month_le; omega)
  have hday := hhundreds (n := t.day) (by have := t.day_le; omega)
  have hhour := hhundreds (n := t.hour) (by have := t.hour_lt; omega)
  have hminute := hhundreds (n := t.minute) (by have := t.minute_lt; omega)
  have hsecond := hhundreds (n := t.second) (by have := t.second_le; omega)
  simp [stampChars, hyear, hmonth, hday, hhour, hminute, hsecond]

theorem UtcTime.t_mem_stampChars (t : UtcTime) : 't' ∈ t.stampChars := by
  simp [stampChars]

/-- Some character of a stamp is a digit, which no word of a job's name has. -/
theorem UtcTime.exists_digit_stampChars (t : UtcTime) : ∃ c ∈ t.stampChars, c.isDigit = true := by
  refine ⟨(t.second % 10).digitChar, by simp [stampChars, hundreds], ?_⟩
  simp only [Nat.isDigit_digitChar, decide_eq_true_eq]
  omega

/-! ## Jobs and containers -/

/-- The jobs that run on an instance's volume. -/
inductive UpgradeJob
  | upgradeProbe
  | upgradeStage
  | upgradeRun
  | imageProbe
deriving DecidableEq, Repr

def UpgradeJob.name : UpgradeJob → String
  | upgradeProbe => "upgrade-probe"
  | upgradeStage => "upgrade-stage"
  | upgradeRun => "upgrade-run"
  | imageProbe => "image-probe"

def UpgradeJob.wordsBackwards : UpgradeJob → List (List Char)
  | upgradeProbe => ["probe".toList, "upgrade".toList]
  | upgradeStage => ["stage".toList, "upgrade".toList]
  | upgradeRun => ["run".toList, "upgrade".toList]
  | imageProbe => ["probe".toList, "image".toList]

/-- The pgBackRest jobs of a cluster. -/
inductive BackupJob
  | backup (time : UtcTime)
  | info (time : UtcTime)
  | stanzaUpgrade
deriving DecidableEq

def BackupJob.name : BackupJob → String
  | backup t => "backup-" ++ t.stamp
  | info t => "info-" ++ t.stamp
  | stanzaUpgrade => "stanza-upgrade"

def BackupJob.wordsBackwards : BackupJob → List (List Char)
  | backup t => [t.stampChars, "backup".toList]
  | info t => [t.stampChars, "info".toList]
  | stanzaUpgrade => ["upgrade".toList, "stanza".toList]

@[simp] theorem UpgradeJob.length_wordsBackwards (job : UpgradeJob) :
    job.wordsBackwards.length = 2 := by
  cases job <;> rfl

@[simp] theorem BackupJob.length_wordsBackwards (job : BackupJob) :
    job.wordsBackwards.length = 2 := by
  cases job <;> rfl

theorem UpgradeJob.wordsBackwards_inj : ∀ {job job' : UpgradeJob},
    job.wordsBackwards = job'.wordsBackwards → job = job' := by
  intro job job' h
  cases job <;> cases job' <;> first | rfl | exact absurd h (by decide)

/-- A word without a digit is no stamp. -/
theorem UtcTime.stampChars_ne {word : List Char} (t : UtcTime)
    (h : word.all (!·.isDigit) = true) : t.stampChars ≠ word := by
  rintro rfl
  obtain ⟨c, hc, hdigit⟩ := t.exists_digit_stampChars
  have hletter := List.all_eq_true.1 h c hc
  rw [hdigit] at hletter
  cases hletter

theorem BackupJob.wordsBackwards_inj {job job' : BackupJob}
    (h : job.wordsBackwards = job'.wordsBackwards) : job = job' := by
  cases job with
  | backup s =>
    cases job' with
    | backup t => rw [UtcTime.stampChars_inj (List.cons.inj h).1]
    | info t => exact absurd (List.cons.inj h).2 (by decide)
    | stanzaUpgrade => exact absurd (List.cons.inj h).1 (s.stampChars_ne (by decide))
  | info s =>
    cases job' with
    | backup t => exact absurd (List.cons.inj h).2 (by decide)
    | info t => rw [UtcTime.stampChars_inj (List.cons.inj h).1]
    | stanzaUpgrade => exact absurd (List.cons.inj h).1 (s.stampChars_ne (by decide))
  | stanzaUpgrade =>
    cases job' with
    | backup t => exact absurd (List.cons.inj h).1.symm (t.stampChars_ne (by decide))
    | info t => exact absurd (List.cons.inj h).1.symm (t.stampChars_ne (by decide))
    | stanzaUpgrade => rfl

/-- The two kinds of jobs have no name in common. -/
theorem UpgradeJob.wordsBackwards_ne (job : UpgradeJob) (job' : BackupJob) :
    job.wordsBackwards ≠ job'.wordsBackwards := by
  intro h
  cases job' with
  | backup t => cases job <;> exact absurd (List.cons.inj h).1.symm (t.stampChars_ne (by decide))
  | info t => cases job <;> exact absurd (List.cons.inj h).1.symm (t.stampChars_ne (by decide))
  | stanzaUpgrade => cases job <;> exact absurd h (by decide)

/-- What pgpod creates a container for. -/
inductive Named
  | inst (i : InstanceId)
  | instanceJob (i : InstanceId) (job : UpgradeJob)
  | clusterJob (c : ClusterId) (job : BackupJob)
  | pooler (p : PoolerId)
deriving DecidableEq

namespace Named

def containerName : Named → String
  | inst i => i.containerName
  | instanceJob i job => i.jobContainerName job.name
  | clusterJob c job => "pgpod-" ++ c.name ++ "-" ++ job.name
  | pooler p => p.containerName

/-- The cluster a container belongs to; a pooler is an object of its own. -/
def owner : Named → Option ClusterId
  | inst i => some i.cluster
  | instanceJob i _ => some i.cluster
  | clusterJob c _ => some c
  | pooler _ => none

/-- What follows the cluster in the name. -/
def purpose : Named → List Char
  | inst i => i.ordinalText.toList
  | instanceJob i job => i.ordinalText.toList ++ '-' :: job.name.toList
  | clusterJob _ job => job.name.toList
  | pooler p => p.name.toList

/-- The same, a word at a time, last word first. -/
def wordsBackwards : Named → List (List Char)
  | inst i => [i.ordinalText.toList]
  | instanceJob i job => job.wordsBackwards ++ [i.ordinalText.toList]
  | clusterJob _ job => job.wordsBackwards
  | pooler p => (p.name.toList.splitOn '-').reverse

theorem dash_notMem_ordinalText (i : InstanceId) : '-' ∉ i.ordinalText.toList := by
  intro h
  rw [InstanceId.ordinalText, Nat.toString_eq_ofList_toDigits, String.toList_ofList] at h
  exact absurd (Nat.isDigit_of_mem_toDigits (by omega) (by omega) h) (by decide)

theorem isDigit_of_mem_ordinalText {i : InstanceId} {c : Char} (h : c ∈ i.ordinalText.toList) :
    c.isDigit = true := by
  rw [InstanceId.ordinalText, Nat.toString_eq_ofList_toDigits, String.toList_ofList] at h
  exact Nat.isDigit_of_mem_toDigits (by omega) (by omega) h

/-- A cluster's container is named after it, and then comes what it is for. -/
theorem toList_containerName {a : Named} {c : ClusterId} (h : a.owner = some c) :
    a.containerName.toList = "pgpod-".toList ++ (c.name.toList ++ '-' :: a.purpose) := by
  cases a with
  | inst i =>
    obtain rfl : i.cluster = c := by simpa [owner] using h
    simp [containerName, InstanceId.containerName, purpose]
  | instanceJob i job =>
    obtain rfl : i.cluster = c := by simpa [owner] using h
    simp [containerName, InstanceId.jobContainerName, purpose]
  | clusterJob d job =>
    obtain rfl : d = c := by simpa [owner] using h
    simp [containerName, purpose]
  | pooler p => simp [owner] at h

theorem splitOn_purpose (a : Named) : a.purpose.splitOn '-' = a.wordsBackwards.reverse := by
  cases a with
  | inst i => exact List.splitOn_eq_singleton (dash_notMem_ordinalText i)
  | instanceJob i job =>
    rw [purpose, List.splitOn_append_cons_self_of_not_mem (dash_notMem_ordinalText i)]
    cases job <;> rfl
  | clusterJob d job =>
    cases job with
    | backup t =>
      have hname : (BackupJob.backup t).name.toList = "backup".toList ++ '-' :: t.stampChars := by
        simp [BackupJob.name, UtcTime.stamp]
      rw [purpose, hname, List.splitOn_append_cons_self_of_not_mem (by decide),
        List.splitOn_eq_singleton t.dash_notMem_stampChars]
      rfl
    | info t =>
      have hname : (BackupJob.info t).name.toList = "info".toList ++ '-' :: t.stampChars := by
        simp [BackupJob.name, UtcTime.stamp]
      rw [purpose, hname, List.splitOn_append_cons_self_of_not_mem (by decide),
        List.splitOn_eq_singleton t.dash_notMem_stampChars]
      rfl
    | stanzaUpgrade => rfl
  | pooler p => exact (List.reverse_reverse _).symm

/-- The words of the name of a container that belongs to a cluster. -/
theorem splitOn_containerName {a : Named} {c : ClusterId} (h : a.owner = some c) :
    a.containerName.toList.splitOn '-' =
      "pgpod".toList :: (c.name.toList.splitOn '-' ++ a.wordsBackwards.reverse) := by
  rw [toList_containerName h, ← splitOn_purpose, ← List.splitOn_append_cons_self]
  have hfront : '-' ∉ "pgpod".toList := by decide
  exact List.splitOn_append_cons_self_of_not_mem hfront _

/-- No stamp is an ordinal. -/
theorem stampChars_ne_ordinalText (t : UtcTime) (i : InstanceId) :
    t.stampChars ≠ i.ordinalText.toList := by
  intro h
  exact absurd (isDigit_of_mem_ordinalText (h ▸ t.t_mem_stampChars)) (by decide)

/-- A word of letters is no ordinal. -/
theorem ordinalText_ne {word : List Char} (i : InstanceId)
    (h : word.any (!·.isDigit) = true) : i.ordinalText.toList ≠ word := by
  rintro rfl
  obtain ⟨c, hc, hletter⟩ := List.any_eq_true.1 h
  rw [isDigit_of_mem_ordinalText hc] at hletter
  cases hletter

theorem ordinalText_inj {i j : InstanceId} (hc : i.cluster = j.cluster)
    (h : i.ordinalText = j.ordinalText) : i = j := by
  have hordinal := UInt32.toNat_inj.1 (Text.toString_inj h)
  cases i; cases j
  simp_all

/-- Read backwards, the words of two containers' names agree as far as the shorter goes
only when both are the same object of one cluster. -/
theorem wordsBackwards_append {a b : Named} {c d : ClusterId} {u v : List (List Char)}
    (ha : a.owner = some c) (hb : b.owner = some d)
    (h : a.wordsBackwards ++ u = b.wordsBackwards ++ v) : u = v ∧ (c = d → a = b) := by
  cases a with
  | inst i =>
    have hc : i.cluster = c := by simpa [owner] using ha
    cases b with
    | inst j =>
      have hd : j.cluster = d := by simpa [owner] using hb
      obtain ⟨hordinal, huv⟩ := List.cons.inj h
      refine ⟨huv, fun hcd => ?_⟩
      rw [ordinalText_inj (hc.trans (hcd.trans hd.symm)) (String.toList_injective hordinal)]
    | instanceJob j job =>
      cases job <;> exact absurd (List.cons.inj h).1 (ordinalText_ne i (by decide))
    | clusterJob e job =>
      cases job with
      | backup t => exact absurd (List.cons.inj h).1.symm (stampChars_ne_ordinalText t i)
      | info t => exact absurd (List.cons.inj h).1.symm (stampChars_ne_ordinalText t i)
      | stanzaUpgrade => exact absurd (List.cons.inj h).1 (ordinalText_ne i (by decide))
    | pooler p => simp [owner] at hb
  | instanceJob i job =>
    have hc : i.cluster = c := by simpa [owner] using ha
    cases b with
    | inst j =>
      cases job <;> exact absurd (List.cons.inj h).1.symm (ordinalText_ne j (by decide))
    | instanceJob j job' =>
      have hd : j.cluster = d := by simpa [owner] using hb
      simp only [wordsBackwards, List.append_assoc] at h
      obtain ⟨hjob, hrest⟩ := List.append_inj h (by simp)
      obtain ⟨hordinal, huv⟩ := List.cons.inj hrest
      refine ⟨huv, fun hcd => ?_⟩
      rw [ordinalText_inj (hc.trans (hcd.trans hd.symm)) (String.toList_injective hordinal),
        UpgradeJob.wordsBackwards_inj hjob]
    | clusterJob e job' =>
      simp only [wordsBackwards, List.append_assoc] at h
      exact absurd (List.append_inj h (by simp)).1 (job.wordsBackwards_ne job')
    | pooler p => simp [owner] at hb
  | clusterJob e job =>
    have hc : e = c := by simpa [owner] using ha
    cases b with
    | inst j =>
      cases job with
      | backup t => exact absurd (List.cons.inj h).1 (stampChars_ne_ordinalText t j)
      | info t => exact absurd (List.cons.inj h).1 (stampChars_ne_ordinalText t j)
      | stanzaUpgrade => exact absurd (List.cons.inj h).1.symm (ordinalText_ne j (by decide))
    | instanceJob j job' =>
      simp only [wordsBackwards, List.append_assoc] at h
      exact absurd (List.append_inj h (by simp)).1.symm (job'.wordsBackwards_ne job)
    | clusterJob f job' =>
      have hd : f = d := by simpa [owner] using hb
      obtain ⟨hjob, huv⟩ := List.append_inj h (by simp [wordsBackwards])
      refine ⟨huv, fun hcd => ?_⟩
      rw [BackupJob.wordsBackwards_inj hjob, hc.trans (hcd.trans hd.symm)]
    | pooler p => simp [owner] at hb
  | pooler p => simp [owner] at ha

/-- Among the containers of clusters, a name belongs to one. -/
theorem eq_of_containerName_eq {a b : Named} {c d : ClusterId} (ha : a.owner = some c)
    (hb : b.owner = some d) (h : a.containerName = b.containerName) : a = b := by
  have hwords := congrArg (fun s : String => (s.toList.splitOn '-').reverse) h
  simp only [splitOn_containerName ha, splitOn_containerName hb, List.reverse_cons,
    List.reverse_append, List.reverse_reverse, List.append_assoc] at hwords
  obtain ⟨hrest, hsame⟩ := wordsBackwards_append ha hb hwords
  apply hsame
  have hcluster : c.name.toList.splitOn '-' = d.name.toList.splitOn '-' := by
    simpa using hrest
  apply ClusterId.ext
  apply String.toList_injective
  have hback : ['-'].intercalate (c.name.toList.splitOn '-') = c.name.toList :=
    List.intercalate_splitOn '-'
  rw [← hback, hcluster, List.intercalate_splitOn]

theorem inst_containerName_inj {i j : InstanceId} (h : i.containerName = j.containerName) :
    i = j :=
  inst.inj (eq_of_containerName_eq (a := inst i) (b := inst j) rfl rfl h)

theorem eq_pooler {a : Named} (h : a.owner = none) : ∃ p, a = pooler p := by
  cases a with
  | inst i => exact nomatch h
  | instanceJob i job => exact nomatch h
  | clusterJob c job => exact nomatch h
  | pooler p => exact ⟨p, rfl⟩

/-- The instance a container works on: one with an ordinal pgpod hands out. -/
def ordinalOk : Named → Bool
  | inst i => decide (1 ≤ i.ordinal)
  | instanceJob i _ => decide (1 ≤ i.ordinal)
  | clusterJob _ _ => true
  | pooler _ => true

/-- The containers pgpod can name when it manages the given clusters and any poolers. -/
def managed (clusters : Set ClusterId) : Set Named :=
  {a | a.ordinalOk = true ∧ ∀ c, a.owner = some c → c ∈ clusters}

end Named

/-- The cluster is called `pooler`, or `pooler-` and then a name a pooler could have the start
of. -/
def readsAsPooler (c : ClusterId) : Bool :=
  c.name == "pooler" ||
    (Text.stripPrefix c.name "pooler-").any fun rest => rest.toList.head?.any Char.isLower

theorem validClusterName_iff {s : String} : validClusterName s = true ↔
    s ≠ "" ∧ s.utf8ByteSize ≤ 40 ∧ s.toList.head?.any Char.isLower = true ∧
      s.toList.getLast? ≠ some '-' ∧ s.toList.all validNameChar = true := by
  simp [validClusterName, and_assoc]

theorem readsAsPooler_iff {c : ClusterId} : readsAsPooler c = true ↔
    c.name = "pooler" ∨
      ∃ rest, c.name = "pooler-" ++ rest ∧ rest.toList.head?.any Char.isLower = true := by
  simp only [readsAsPooler, Bool.or_eq_true, beq_iff_eq]
  refine or_congr_right ?_
  unfold Text.stripPrefix Text.startsWith
  constructor
  · intro h
    split at h
    · next hfront =>
      obtain ⟨rest, hrest⟩ := of_decide_eq_true hfront
      refine ⟨String.ofList rest, String.toList_injective ?_, ?_⟩
      · rw [← hrest]; simp
      · simpa [← hrest] using h
    · cases h
  · rintro ⟨rest, hname, hhead⟩
    have hfront : "pooler-".toList <+: c.name.toList := ⟨rest.toList, by rw [hname]; simp⟩
    rw [if_pos (decide_eq_true hfront)]
    simpa [hname] using hhead

/-- A pooler's name, after the dash that ends a cluster's. -/
theorem validClusterName_append_one {rest : String}
    (hvalid : validClusterName ("pooler-" ++ rest) = true)
    (hhead : rest.toList.head?.any Char.isLower = true) :
    validClusterName (rest ++ "-1") = true := by
  rw [validClusterName_iff] at hvalid ⊢
  obtain ⟨-, hsize, -, -, hall⟩ := hvalid
  have hne : rest.toList ≠ [] := by rintro h; simp [h] at hhead
  refine ⟨?_, ?_, ?_, ?_, ?_⟩
  · intro h
    have := congrArg String.toList h
    simp at this
  · have h1 : ("pooler-" : String).utf8ByteSize = 7 := by decide
    have h2 : ("-1" : String).utf8ByteSize = 2 := by decide
    rw [String.utf8ByteSize_append] at hsize ⊢
    omega
  · rw [String.toList_append, List.head?_append_of_ne_nil _ hne]
    exact hhead
  · simp
  · simp only [String.toList_append, List.all_append, Bool.and_eq_true] at hall ⊢
    exact ⟨hall.2, by decide⟩

/-- Every cluster whose name reads as a pooler's has a container that takes a pooler's name. -/
theorem exists_pooler_of_readsAsPooler {c : ClusterId} (h : readsAsPooler c = true) :
    ∃ (a : Named) (p : PoolerId), a.ordinalOk = true ∧ a.owner = some c ∧
      a.containerName = (Named.pooler p).containerName := by
  rcases readsAsPooler_iff.1 h with hname | ⟨rest, hname, hhead⟩
  · refine ⟨.clusterJob c .stanzaUpgrade, ⟨"stanza-upgrade", by decide⟩, rfl, rfl, ?_⟩
    simp only [Named.containerName, hname]
    decide
  · have hvalid := validClusterName_append_one (hname ▸ c.valid) hhead
    refine ⟨.inst (c.inst 1), ⟨rest ++ "-1", hvalid⟩, rfl, rfl, ?_⟩
    have hone : (c.inst 1).ordinalText = "1" := by
      change toString (1 : UInt32).toNat = "1"
      decide
    apply String.toList_injective
    simp only [Named.containerName, InstanceId.containerName, PoolerId.containerName, hone]
    simp [ClusterId.inst, hname]

/-- `pooler-` has one dash, at its end. -/
theorem eq_of_append_dash {xs as : List Char} (h : xs ++ '-' :: as = "pooler-".toList) :
    xs = "pooler".toList := by
  have hwords := congrArg (List.splitOn '-') h
  rw [List.splitOn_append_cons_self] at hwords
  obtain ⟨w, ws, hxs⟩ := List.exists_cons_of_ne_nil (List.splitOn_ne_nil '-' xs)
  obtain ⟨v, vs, has⟩ := List.exists_cons_of_ne_nil (List.splitOn_ne_nil '-' as)
  rw [hxs, has, List.cons_append] at hwords
  obtain ⟨hw, hws⟩ := List.cons.inj
    (hwords : w :: (ws ++ v :: vs) = ["pooler".toList, []])
  have hnil : ws = [] := by
    cases ws with
    | nil => rfl
    | cons _ ws => simp at hws
  have hback : ['-'].intercalate (xs.splitOn '-') = xs := List.intercalate_splitOn '-'
  rw [← hback, hxs, hw, hnil]
  rfl

/-- A pooler's name read as that of a cluster's container leaves a cluster called after poolers. -/
theorem readsAsPooler_of_containerName_eq {a : Named} {c : ClusterId} {p : PoolerId}
    (ha : a.owner = some c) (h : a.containerName = (Named.pooler p).containerName) :
    readsAsPooler c = true := by
  obtain ⟨-, -, -, hlast, -⟩ := validClusterName_iff.1 c.valid
  obtain ⟨-, -, hhead, -, -⟩ := validClusterName_iff.1 p.valid
  have hchars : c.name.toList ++ '-' :: a.purpose = "pooler-".toList ++ p.name.toList := by
    have := congrArg String.toList h
    rw [Named.toList_containerName ha] at this
    simpa [Named.containerName, PoolerId.containerName] using this
  rcases List.append_eq_append_iff.1 hchars with ⟨as, hpooler, htail⟩ | ⟨as, hname, hrest⟩
  · -- the cluster's name ends within `pooler-`
    cases as with
    | nil =>
      have hname : c.name.toList = "pooler-".toList := by simpa using hpooler.symm
      exact absurd (by rw [hname]; decide) hlast
    | cons d as =>
      obtain ⟨rfl, -⟩ := List.cons.inj (htail : '-' :: a.purpose = d :: (as ++ p.name.toList))
      exact readsAsPooler_iff.2 (.inl (String.toList_injective (eq_of_append_dash hpooler.symm)))
  · -- the cluster's name goes on after `pooler-`, as the pooler's does
    refine readsAsPooler_iff.2 (.inr ⟨String.ofList as, String.toList_injective ?_, ?_⟩)
    · rw [hname]; simp
    · cases as with
      | nil => exact absurd (by rw [hname]; decide) hlast
      | cons d as => simpa [hrest] using hhead

/-- **The names of the containers are distinct exactly when no cluster is called after the
poolers.** -/
theorem containerName_injOn_iff (clusters : Set ClusterId) :
    Set.InjOn Named.containerName (Named.managed clusters) ↔
      ∀ c ∈ clusters, readsAsPooler c = false := by
  constructor
  · intro hinj c hc
    by_contra hreads
    obtain ⟨a, p, hordinal, howner, hname⟩ :=
      exists_pooler_of_readsAsPooler (Bool.eq_true_of_not_eq_false hreads)
    have ha : a ∈ Named.managed clusters := by
      refine ⟨hordinal, fun d hd => ?_⟩
      rw [howner] at hd
      cases hd
      exact hc
    have hp : Named.pooler p ∈ Named.managed clusters := ⟨rfl, fun d hd => nomatch hd⟩
    rw [hinj ha hp hname] at howner
    exact nomatch howner
  · intro hclusters a ha b hb hname
    have hpooler {a : Named} {p : PoolerId} (ha : a ∈ Named.managed clusters)
        (h : a.containerName = (Named.pooler p).containerName) : a.owner = none := by
      by_contra howned
      obtain ⟨c, hc⟩ := Option.ne_none_iff_exists'.1 howned
      have hreads := readsAsPooler_of_containerName_eq hc h
      rw [hclusters c (ha.2 c hc)] at hreads
      exact nomatch hreads
    cases hoa : a.owner with
    | some c =>
      cases hob : b.owner with
      | some d => exact Named.eq_of_containerName_eq hoa hob hname
      | none =>
        obtain ⟨p, rfl⟩ := Named.eq_pooler hob
        rw [hpooler ha hname] at hoa
        cases hoa
    | none =>
      obtain ⟨p, rfl⟩ := Named.eq_pooler hoa
      obtain ⟨q, rfl⟩ := Named.eq_pooler (hpooler hb hname.symm)
      have hchars := congrArg String.toList hname
      have hpq : p.name = q.name := String.toList_injective
        (by simpa [Named.containerName, PoolerId.containerName] using hchars)
      cases p; cases q; cases hpq; rfl

namespace Sample

def poolerLike : ClusterId := ⟨"pooler-x", by decide⟩

def likeInstance : PoolerId := ⟨"x-1", by decide⟩

/-- The first instance of cluster `pooler-x` and the pooler `x-1` are both `pgpod-pooler-x-1`
to podman. -/
theorem pooler_takes_instance_name :
    (Named.inst (poolerLike.inst 1)).containerName = (Named.pooler likeInstance).containerName ∧
      ¬ Set.InjOn Named.containerName (Named.managed Set.univ) := by
  have hname : (Named.inst (poolerLike.inst 1)).containerName =
      (Named.pooler likeInstance).containerName := by decide
  refine ⟨hname, fun hinj => ?_⟩
  have hinst : Named.inst (poolerLike.inst 1) ∈ Named.managed Set.univ :=
    ⟨by decide, fun _ _ => Set.mem_univ _⟩
  have hpooler : Named.pooler likeInstance ∈ Named.managed Set.univ :=
    ⟨rfl, fun _ _ => Set.mem_univ _⟩
  exact absurd (hinj hinst hpooler hname) (by decide)

end Sample

end Control

end Pgpod
