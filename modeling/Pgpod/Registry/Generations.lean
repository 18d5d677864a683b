import Pgpod.Effect.Threads
import Pgpod.Registry.Integrity

/-!
# Generations under concurrent writes

`put_cluster` reads the manifest and the generation in one statement and writes
the next ones in another, with no transaction around the two.  Calls from several
processes interleave between them.  As long as every update finds what its call
read, or what it is about to write, a generation names one manifest and later
manifests have larger generations; an update over a row that moved on breaks both.
-/

namespace Pgpod

open Effect

namespace Sql

/-! ## The calls -/

/-- A call hands its result to its caller. -/
inductive Answer : Type → Type
  | report (generation : Int64) : Answer Unit

/-- What a call does: a statement, or its answer. -/
abbrev CallOp (β : Type) : Type := SqlOp β ⊕ Answer β

/-- One call of `put_cluster`. -/
structure Call where
  id : Nat
  manifest : ClusterManifest

def putClusterCall (text : ManifestText) (manifest : ClusterManifest) (phase : String) :
    Prog CallOp Unit :=
  ((putCluster text manifest phase).run.interp fun _ op => .perform (.inl op)).bind fun
    | .ok generation => .perform (.inr (.report generation))
    | .error _ => .ret ()

/-- The database and, beside it, what the calls have seen of it. -/
structure Shared where
  db : Database := {}
  calls : Nat := 0
  /-- What the `SELECT` of each call found. -/
  read : Nat → Option (Option (String × Int64)) := fun _ => none
  /-- The manifests and generations the row has held, the latest first. -/
  seen : List (String × Int64) := []
  /-- The manifests the calls wrote, with the generations they returned. -/
  reported : List (String × Int64) := []

/-- The tables after a statement, with the row observed once more. -/
def Shared.observe (s : Shared) (name : String) (D : Database) : Shared :=
  { s with db := D, seen := (D.clusterState name).toList ++ s.seen }

/-- What a call has read after a statement. -/
def noted (read : Nat → Option (Option (String × Int64))) (id : Nat) :
    ∀ ⦃β : Type⦄, SqlOp β → β → Nat → Option (Option (String × Int64))
  | _, .selectCluster _, .ok found => Function.update read id (some found)
  | _, _, _ => read

/-- Calls of `put_cluster` on one cluster. Between their statements the rest of the registry may
change, the cluster's phase with it, but not its manifest or its generation. -/
def callers (text : ManifestText) (name : String) : System CallOp Shared Call where
  step th _ op s b t := match op, b with
    | .inl op, b => ∃ D, Executes op { db := s.db } b { db := D } ∧
        t = { s.observe name D with read := noted s.read th.role.id op b }
    | .inr (.report generation), _ =>
        t = { s with reported := (text.cluster th.role.manifest, generation) :: s.reported }
  drift s t := ∃ D : Database, D.clusterState name = s.db.clusterState name ∧ t = { s with db := D }
  start s t th := ∃ (m : ClusterManifest) (phase : String), m.metadata.name = name ∧
    th = ⟨⟨s.calls, m⟩, putClusterCall text m phase⟩ ∧ t = { s with calls := s.calls + 1 }

/-- No call yet; the row, if there is one, just observed. -/
structure Fresh (name : String) (c : Config CallOp Shared Call) : Prop where
  calls : c.state.calls = 0
  threads : c.threads = []
  seen : c.state.seen = (c.state.db.clusterState name).toList
  reported : c.state.reported = []

/-- A manifest other than an earlier one has a larger generation, and no generation has two
manifests. -/
structure Distinguishes (s : Shared) : Prop where
  later : s.seen.Pairwise fun later earlier => later.1 ≠ earlier.1 → earlier.2 < later.2
  single : ∀ p ∈ s.seen ++ s.reported, ∀ q ∈ s.seen ++ s.reported, p.2 = q.2 → p.1 = q.1

/-- An update that goes through finds the row as its call read it, or as it is about to leave it,
and a generation that moves has one to move to. -/
def FindsWhatItRead (text : ManifestText) (name : String) (th : Thread CallOp Call) ⦃β : Type⦄
    (op : CallOp β) (s : Shared) (b : β) (_ : Shared) : Prop :=
  match op, b with
  | .inl (.write (.updateCluster _)), .ok _ => ∀ found, s.read th.role.id = some (some found) →
      (found.1 ≠ text.cluster th.role.manifest → found.2 < Int64.maxValue) ∧
      (s.db.clusterState name = some found ∨
        (found.1 ≠ text.cluster th.role.manifest ∧
          s.db.clusterState name = some (text.cluster th.role.manifest, found.2 + 1)))
  | _, _ => True

/-! ## Observed rows -/

/-- Below the largest, the next generation is a larger one. -/
theorem lt_add_one {g : Int64} (h : g < Int64.maxValue) : g < g + 1 := by
  rw [Int64.lt_iff_toInt_lt, Int64.toInt_maxValue] at h
  have hmin := Int64.minValue_le_toInt g
  rw [Int64.toInt_minValue] at hmin
  rw [Int64.lt_iff_toInt_lt, Int64.toInt_add, Int64.toInt_one, Int.bmod_eq_of_le] <;> omega

/-- Each observation repeats the earlier one or has a larger generation. -/
def Ordered (seen : List (String × Int64)) : Prop :=
  seen.Pairwise fun later earlier => later = earlier ∨ earlier.2 < later.2

theorem Ordered.cons {seen : List (String × Int64)} {pair : String × Int64} (h : Ordered seen)
    (hhead : ∀ p, seen.head? = some p → pair = p ∨ p.2 < pair.2) : Ordered (pair :: seen) := by
  refine List.pairwise_cons.mpr ⟨fun q hq => ?_, h⟩
  cases seen with
  | nil => cases hq
  | cons p rest =>
    have hp := hhead p rfl
    rcases List.mem_cons.mp hq with rfl | hq
    · exact hp
    · have hrest := (List.pairwise_cons.mp h).1 q hq
      rcases hp with rfl | hp
      · exact hrest
      · rcases hrest with rfl | hrest
        · exact .inr hp
        · exact .inr (Int64.lt_trans hrest hp)

theorem Ordered.single {seen : List (String × Int64)} (h : Ordered seen) :
    ∀ p ∈ seen, ∀ q ∈ seen, p.2 = q.2 → p.1 = q.1 := by
  induction seen with
  | nil => exact nofun
  | cons pair rest ih =>
    obtain ⟨hpair, hrest⟩ := List.pairwise_cons.mp h
    have hfirst : ∀ q ∈ rest, pair.2 = q.2 → pair.1 = q.1 := by
      intro q hq heq
      rcases hpair q hq with rfl | hlt
      · rfl
      · exact absurd (heq ▸ hlt) Int64.lt_irrefl
    intro p hp q hq heq
    rcases List.mem_cons.mp hp with hp | hp
    · rcases List.mem_cons.mp hq with hq | hq
      · rw [hp, hq]
      · rw [hp] at heq ⊢
        exact hfirst q hq heq
    · rcases List.mem_cons.mp hq with hq | hq
      · rw [hq] at heq ⊢
        exact (hfirst p hp heq.symm).symm
      · exact ih hrest p hp q hq heq

/-- The row once more, or a larger generation in its place. -/
theorem Ordered.observe {seen : List (String × Int64)} {now : Option (String × Int64)}
    (h : Ordered seen) (hnow : ∀ p, seen.head? = some p → ∃ q, now = some q ∧ (q = p ∨ p.2 < q.2)) :
    Ordered (now.toList ++ seen) := by
  cases now with
  | none => exact h
  | some pair =>
    refine h.cons fun p hp => ?_
    obtain ⟨q, hq, hle⟩ := hnow p hp
    obtain rfl := Option.some.inj hq
    exact hle

/-! ## A call, statement by statement -/

section Standing

variable {text : ManifestText} {m : ClusterManifest} {phase : String}

/-- A call after its write. -/
def answering (text : ManifestText) (m : ClusterManifest) (existing : Option (String × Int64)) :
    Except String Unit → Prog CallOp Unit
  | .ok _ => .call (.inr (.report (nextGeneration (text.cluster m) existing))) .ret
  | .error _ => .ret ()

/-- A call after its read. -/
def reading (text : ManifestText) (m : ClusterManifest) (phase : String) :
    Except String (Option (String × Int64)) → Prog CallOp Unit
  | .ok existing =>
    .call (.inl (.write (clusterWrite text m phase existing))) (answering text m existing)
  | .error _ => .ret ()

theorem putClusterCall_eq : putClusterCall text m phase =
    .call (.inl (.selectCluster m.metadata.name)) (reading text m phase) := by
  refine congrArg (@Prog.call CallOp Unit _ (.inl (.selectCluster m.metadata.name)))
    (funext fun b => ?_)
  cases b with
  | error e => rfl
  | ok existing =>
    cases existing with
    | none =>
      refine congrArg (@Prog.call CallOp Unit _ (.inl _)) (funext fun b => ?_)
      cases b <;> rfl
    | some state =>
      refine congrArg (@Prog.call CallOp Unit _ (.inl _)) (funext fun b => ?_)
      cases b <;> rfl

/-- Where a call stands, with what it has read and written. -/
inductive Stands (text : ManifestText) (s : Shared) (call : Call) : Prog CallOp Unit → Prop
  | asking (phase : String) : Stands text s call (.call
      (.inl (.selectCluster call.manifest.metadata.name)) (reading text call.manifest phase))
  | writing {phase : String} {existing : Option (String × Int64)}
      (hread : s.read call.id = some existing) : Stands text s call (.call
        (.inl (.write (clusterWrite text call.manifest phase existing)))
        (answering text call.manifest existing))
  | reporting {generation : Int64} (hseen : (text.cluster call.manifest, generation) ∈ s.seen) :
      Stands text s call (.call (.inr (.report generation)) .ret)
  | done : Stands text s call (.ret ())

theorem Stands.mono {s t : Shared} {call : Call} {p : Prog CallOp Unit} (h : Stands text s call p)
    (hread : t.read call.id = s.read call.id) (hseen : s.seen ⊆ t.seen) : Stands text t call p := by
  cases h with
  | asking phase => exact .asking phase
  | writing h => exact .writing (hread.trans h)
  | reporting h => exact .reporting (hseen h)
  | done => exact .done

end Standing

/-! ## What a write leaves of the row -/

section Row

variable {D D' : Database} {row : ClusterRow}

theorem insertCluster_state (h : (Write.insertCluster row).apply D = some D') :
    D.clusterState row.name = none ∧
      D'.clusterState row.name = some (row.manifest, row.generation) := by
  simp only [Write.apply, Option.ite_none_left_eq_some, Database.hasCluster, List.any_eq_true,
    decide_eq_true_eq, not_exists, not_and] at h
  obtain ⟨hnone, hD⟩ := h
  have hfind : D.clusters.find? (fun r => r.name = row.name) = none := by
    rw [List.find?_eq_none]
    intro r hr
    simpa using hnone r hr
  obtain rfl := Option.some.inj hD
  refine ⟨by simp only [Database.clusterState, hfind, Option.map_none], ?_⟩
  simp [Database.clusterState, List.find?_append, hfind]

theorem updateCluster_state (h : (Write.updateCluster row).apply D = some D') :
    D'.clusterState row.name =
      (D.clusterState row.name).map fun _ => (row.manifest, row.generation) := by
  have hname : ∀ r : ClusterRow,
      decide ((if r.name = row.name then row else r).name = row.name) =
        decide (r.name = row.name) := by
    intro r
    by_cases hr : r.name = row.name
    · simp [hr]
    · simp [hr]
  obtain rfl := Option.some.inj h
  simp only [Database.clusterState, List.find?_map, Function.comp_def, hname, Option.map_map]
  cases hfind : D.clusters.find? fun r => r.name = row.name with
  | none => rfl
  | some r =>
    have hr : r.name = row.name := by simpa using List.find?_some hfind
    simp [hr]

/-- The pair a call leaves, given what it read. -/
theorem clusterWrite_state {text : ManifestText} {m : ClusterManifest} {phase : String}
    {existing : Option (String × Int64)}
    (h : (clusterWrite text m phase existing).apply D = some D')
    (hthere : existing.isSome → (D.clusterState m.metadata.name).isSome) :
    D'.clusterState m.metadata.name =
        some (text.cluster m, nextGeneration (text.cluster m) existing) ∧
      (existing = none → D.clusterState m.metadata.name = none) := by
  cases existing with
  | none =>
    obtain ⟨hnone, hstate⟩ := insertCluster_state h
    exact ⟨hstate, fun _ => hnone⟩
  | some found =>
    obtain ⟨old, hold⟩ := Option.isSome_iff_exists.mp (hthere rfl)
    have hstate := updateCluster_state h
    rw [show D.clusterState _ = some old from hold] at hstate
    exact ⟨hstate, nofun⟩

end Row

/-! ## The invariant -/

/-- What was seen of the row up to now, and reported of it. -/
structure Watched (name : String) (s : Shared) : Prop where
  ordered : Ordered s.seen
  latest : s.seen.head? = s.db.clusterState name
  reported : s.reported ⊆ s.seen

theorem Watched.distinguishes {name : String} {s : Shared} (h : Watched name s) :
    Distinguishes s := by
  have hall : ∀ p ∈ s.seen ++ s.reported, p ∈ s.seen := by
    intro p hp
    rcases List.mem_append.mp hp with hp | hp
    · exact hp
    · exact h.reported hp
  refine ⟨h.ordered.imp fun hle hne => ?_, fun p hp q hq => h.ordered.single p (hall p hp) q (hall q hq)⟩
  rcases hle with rfl | hlt
  · exact absurd rfl hne
  · exact hlt

/-- The row observed after a statement that left it alone or moved its generation. -/
theorem Watched.observe {name : String} {s : Shared} (h : Watched name s) {D : Database}
    (hD : ∀ p, s.db.clusterState name = some p →
      ∃ q, D.clusterState name = some q ∧ (q = p ∨ p.2 < q.2)) :
    Watched name (s.observe name D) where
  ordered := h.ordered.observe fun p hp => hD p (h.latest ▸ hp)
  latest := by
    change ((D.clusterState name).toList ++ s.seen).head? = D.clusterState name
    cases hstate : D.clusterState name with
    | some q => rfl
    | none =>
      cases hold : s.db.clusterState name with
      | none => exact h.latest.trans hold
      | some p =>
        obtain ⟨q, hq, -⟩ := hD p hold
        rw [hstate] at hq
        cases hq
  reported := List.Subset.trans h.reported (List.subset_append_right _ _)

/-- What a step of one call leaves of the others. -/
structure Others (s t : Shared) (id : Nat) : Prop where
  seen : s.seen ⊆ t.seen
  read : ∀ other, other ≠ id → t.read other = s.read other
  calls : t.calls = s.calls

section Step

variable {text : ManifestText} {name : String} {s t : Shared} {call : Call} {β : Type}
  {op : CallOp β} {next : β → Prog CallOp Unit} {b : β}

/-- A statement that failed: the row is observed as it was. -/
theorem observe_same {D : Database} (hD : ({ db := D } : Session) = { db := s.db }) : D = s.db :=
  congrArg Session.db hD

/-- **One step of one call**: the row keeps its place in the history, and so does the call. -/
theorem Stands.step (hw : Watched name s) (h : Stands text s call (.call op next))
    (hname : call.manifest.metadata.name = name)
    (hstep : (callers text name).step ⟨call, .call op next⟩ op s b t)
    (hfinds : FindsWhatItRead text name ⟨call, .call op next⟩ op s b t) :
    Watched name t ∧ Others s t call.id ∧ Stands text t call (next b) := by
  have hsame : ∀ p, s.db.clusterState name = some p →
      ∃ q, s.db.clusterState name = some q ∧ (q = p ∨ p.2 < q.2) :=
    fun p hp => ⟨p, hp, .inl rfl⟩
  cases h with
  | asking phase =>
    obtain ⟨D, hexec, rfl⟩ := hstep
    have hD : D = s.db := by
      rcases hexec with ⟨a, -, -, hD⟩ | ⟨-, hD⟩ <;> exact observe_same hD
    subst hD
    have hwatched := hw.observe hsame
    refine ⟨⟨hwatched.ordered, hwatched.latest, hwatched.reported⟩,
      ⟨List.subset_append_right _ _, fun other hne => ?_, rfl⟩, ?_⟩
    · cases b with
      | ok found => exact Function.update_of_ne hne _ _
      | error e => rfl
    · cases b with
      | ok found => exact .writing (Function.update_self _ _ _)
      | error e => exact .done
  | @writing phase existing hread =>
    obtain ⟨D, hexec, rfl⟩ := hstep
    rcases hexec with ⟨⟨⟩, rfl, D', happly, hD⟩ | ⟨⟨e, rfl⟩, hD⟩
    · obtain rfl : D = D' := congrArg Session.db hD
      subst hname
      have hthere : existing.isSome → (s.db.clusterState call.manifest.metadata.name).isSome := by
        intro hsome
        obtain ⟨found, rfl⟩ := Option.isSome_iff_exists.mp hsome
        rcases (hfinds found hread).2 with hfound | ⟨-, hfound⟩
        · rw [hfound, Option.isSome_some]
        · rw [hfound, Option.isSome_some]
      obtain ⟨hstate, hnone⟩ := clusterWrite_state happly hthere
      have hmoves : ∀ p, s.db.clusterState call.manifest.metadata.name = some p →
          ∃ q, D.clusterState call.manifest.metadata.name = some q ∧ (q = p ∨ p.2 < q.2) := by
        intro p hp
        refine ⟨_, hstate, ?_⟩
        cases existing with
        | none =>
          rw [hnone rfl] at hp
          cases hp
        | some found =>
          obtain ⟨hroom, hfound | ⟨hne, hfound⟩⟩ := hfinds found hread
          · obtain rfl : found = p := Option.some.inj (hfound.symm.trans hp)
            by_cases hsame : found.1 = text.cluster call.manifest
            · simp [nextGeneration, ← hsame]
            · simpa [nextGeneration, hsame] using .inr (lt_add_one (hroom hsame))
          · obtain rfl : _ = p := Option.some.inj (hfound.symm.trans hp)
            simp [nextGeneration, hne]
      have hwatched := hw.observe hmoves
      refine ⟨⟨hwatched.ordered, hwatched.latest, hwatched.reported⟩,
        ⟨List.subset_append_right _ _, fun _ _ => rfl, rfl⟩, .reporting ?_⟩
      change _ ∈ (D.clusterState call.manifest.metadata.name).toList ++ s.seen
      rw [hstate]
      exact List.mem_cons_self ..
    · obtain rfl := observe_same hD
      have hwatched := hw.observe hsame
      exact ⟨⟨hwatched.ordered, hwatched.latest, hwatched.reported⟩,
        ⟨List.subset_append_right _ _, fun _ _ => rfl, rfl⟩, .done⟩
  | @reporting generation hseen =>
    obtain rfl : t = _ := hstep
    refine ⟨⟨hw.ordered, hw.latest, ?_⟩, ⟨List.Subset.refl _, fun _ _ => rfl, rfl⟩, .done⟩
    intro p hp
    rcases List.mem_cons.mp hp with rfl | hp
    · exact hseen
    · exact hw.reported hp

end Step

/-- Where all calls stand. -/
structure Tracks (text : ManifestText) (name : String) (c : Config CallOp Shared Call) : Prop where
  watched : Watched name c.state
  ids : c.threads.map (fun th => th.role.id) = List.range c.state.calls
  names : ∀ th ∈ c.threads, th.role.manifest.metadata.name = name
  stands : ∀ th ∈ c.threads, Stands text c.state th.role th.prog

theorem Tracks.step {text : ManifestText} {name : String} {c d : Config CallOp Shared Call}
    (hstep : ((callers text name).restrict (FindsWhatItRead text name)).Step c d)
    (h : Tracks text name c) : Tracks text name d := by
  cases hstep with
  | @act pre post role β op next s t b hact =>
    have hmem : (⟨role, .call op next⟩ : Thread CallOp Call) ∈ pre ++ ⟨role, .call op next⟩ :: post :=
      List.mem_append_right _ (List.mem_cons_self ..)
    obtain ⟨hwatched, hothers, hown⟩ :=
      (h.stands _ hmem).step h.watched (h.names _ hmem) hact.1 hact.2
    have hids : (pre ++ ⟨role, .call op next⟩ :: post).map (fun th => th.role.id) =
        List.range s.calls := h.ids
    have hnodup := List.nodup_range (n := s.calls)
    rw [← hids, List.map_append, List.map_cons, List.nodup_middle] at hnodup
    have hother : ∀ th ∈ pre ++ post, th.role.id ≠ role.id := by
      intro th hth heq
      refine (List.nodup_cons.mp hnodup).1 ?_
      rw [← List.map_append]
      exact List.mem_map.mpr ⟨th, hth, heq⟩
    have hcase : ∀ th ∈ pre ++ ⟨role, next b⟩ :: post, th = ⟨role, next b⟩ ∨ th ∈ pre ++ post := by
      intro th hth
      rw [List.mem_append, List.mem_cons] at hth
      rw [List.mem_append]
      tauto
    have hold : ∀ th ∈ pre ++ post, th ∈ pre ++ ⟨role, .call op next⟩ :: post := by
      intro th hth
      rw [List.mem_append] at hth
      rw [List.mem_append, List.mem_cons]
      tauto
    refine ⟨hwatched, ?_, fun th hth => ?_, fun th hth => ?_⟩
    · change (pre ++ ⟨role, next b⟩ :: post).map _ = List.range t.calls
      rw [hothers.calls, ← hids, List.map_append, List.map_append, List.map_cons, List.map_cons]
    · rcases hcase th hth with rfl | hth
      · exact h.names ⟨role, .call op next⟩ hmem
      · exact h.names th (hold th hth)
    · rcases hcase th hth with rfl | hth
      · exact hown
      · exact (h.stands th (hold th hth)).mono (hothers.read _ (hother th hth)) hothers.seen
  | @drift ths s t hdrift =>
    obtain ⟨D, hD, rfl⟩ := hdrift
    exact { watched := ⟨h.watched.ordered, h.watched.latest.trans hD.symm, h.watched.reported⟩
            ids := h.ids
            names := h.names
            stands := fun th hth => (h.stands th hth).mono rfl (List.Subset.refl _) }
  | @start ths s t th hstart =>
    obtain ⟨m, phase, hname, rfl, rfl⟩ := hstart
    refine ⟨⟨h.watched.ordered, h.watched.latest, h.watched.reported⟩, ?_, fun th hth => ?_,
      fun th hth => ?_⟩
    · have hids : ths.map (fun th => th.role.id) = List.range s.calls := h.ids
      change (ths ++ _).map _ = List.range (s.calls + 1)
      rw [List.map_append, hids, List.range_succ]
      rfl
    · rcases List.mem_append.mp hth with hth | hth
      · exact h.names th hth
      · rw [List.mem_singleton.mp hth]
        exact hname
    · rcases List.mem_append.mp hth with hth | hth
      · exact (h.stands th hth).mono rfl (List.Subset.refl _)
      · rw [List.mem_singleton.mp hth, putClusterCall_eq]
        exact .asking phase

theorem Fresh.tracks {text : ManifestText} {name : String} {c : Config CallOp Shared Call}
    (h : Fresh name c) : Tracks text name c := by
  obtain ⟨hcalls, hthreads, hseen, hreported⟩ := h
  refine ⟨⟨?_, ?_, ?_⟩, ?_, ?_, ?_⟩
  · rw [hseen]
    cases c.state.db.clusterState name with
    | none => exact .nil
    | some p => exact List.pairwise_singleton _ _
  · rw [hseen]
    cases c.state.db.clusterState name <;> rfl
  · rw [hreported]
    exact List.nil_subset _
  · rw [hthreads, hcalls]
    rfl
  · rw [hthreads]
    exact nofun
  · rw [hthreads]
    exact nofun

/-- **Generations under concurrent writes**: in every run whose updates find the row as their call
read it, or as they are about to leave it, with a generation left to move to, what was observed of
the row last is what it holds, later manifests have larger generations, and no generation has two
manifests. -/
theorem generation_names_manifest (text : ManifestText) (name : String)
    (c₀ c : Config CallOp Shared Call) (hfresh : Fresh name c₀)
    (hrun : ((callers text name).restrict (FindsWhatItRead text name)).Steps c₀ c) :
    c.state.seen.head? = c.state.db.clusterState name ∧ Distinguishes c.state := by
  have htracks : Tracks text name c :=
    System.Steps.invariant hrun hfresh.tracks fun _ _ hstep h => h.step hstep
  exact ⟨htracks.watched.latest, htracks.watched.distinguishes⟩

namespace GenerationSample

def text : ManifestText := ⟨fun m => m.spec.imageName, fun m => m.metadata.name⟩

def app (image : String) : ClusterManifest := ⟨"pgpod/v1", "Cluster", ⟨"app"⟩, { imageName := image }⟩

def holding (manifest : String) (generation : Int64) : Database :=
  { clusters := [⟨"app", manifest, generation, "running"⟩] }

/-- The first manifest is stored. -/
def first : Shared := { db := holding "A" 1, seen := [("A", 1)] }

/-- After the `SELECT` of a call. -/
def asked (s : Shared) (id : Nat) : Shared :=
  { s.observe "app" s.db with read := Function.update s.read id (some (s.db.clusterState "app")) }

/-- After the write of a call, given what it read. -/
def wrote (s : Shared) (image : String) (found : String × Int64) : Shared :=
  s.observe "app" (holding image (nextGeneration image (some found)))

/-- After the answer of a call. -/
def told (s : Shared) (image : String) (found : String × Int64) : Shared :=
  { s with reported := (image, nextGeneration image (some found)) :: s.reported }

/-- A call before its `SELECT`, before its write, and before its answer. -/
def calling (id : Nat) (image : String) : Thread CallOp Call :=
  ⟨⟨id, app image⟩, .call (.inl (.selectCluster "app")) (reading text (app image) "running")⟩

def writing (id : Nat) (image : String) (found : String × Int64) : Thread CallOp Call :=
  ⟨⟨id, app image⟩, .call (.inl (.write (clusterWrite text (app image) "running" (some found))))
    (answering text (app image) (some found))⟩

def answered (id : Nat) (image : String) (found : String × Int64) : Thread CallOp Call :=
  ⟨⟨id, app image⟩, answering text (app image) (some found) (.ok ())⟩

def done (id : Nat) (image : String) : Thread CallOp Call := ⟨⟨id, app image⟩, .ret ()⟩

theorem starts (s : Shared) (image : String) :
    (callers text "app").start s { s with calls := s.calls + 1 } (calling s.calls image) :=
  ⟨app image, "running", rfl, by rw [putClusterCall_eq]; rfl, rfl⟩

theorem asks (s : Shared) (id : Nat) (image : String) :
    (callers text "app").step (calling id image) (.inl (.selectCluster "app")) s
      (.ok (s.db.clusterState "app")) (asked s id) :=
  ⟨s.db, .inl ⟨_, rfl, rfl, rfl⟩, rfl⟩

theorem writes (s : Shared) (id : Nat) (image : String) (found : String × Int64)
    {manifest : String} {generation : Int64} (hs : s.db = holding manifest generation) :
    (callers text "app").step (writing id image found)
      (.inl (.write (clusterWrite text (app image) "running" (some found)))) s (.ok ())
      (wrote s image found) :=
  ⟨holding image (nextGeneration image (some found)), .inl ⟨(), rfl, _, by rw [hs]; rfl, rfl⟩, rfl⟩

theorem answers (s : Shared) (id : Nat) (image : String) (found : String × Int64) :
    (callers text "app").step (answered id image found)
      (.inr (.report (nextGeneration image (some found)))) s () (told s image found) := rfl

/-- Two calls, both past their `SELECT`. -/
def both : Shared := asked (asked { first with calls := 2 } 0) 1

/-- Both have read the first generation, and both write the second. -/
theorem two_manifests_of_one_generation :
    ¬ ∀ (text : ManifestText) (name : String) (c₀ c : Config CallOp Shared Call), Fresh name c₀ →
      (callers text name).Steps c₀ c → Distinguishes c.state := by
  intro h
  let Y := callers text "app"
  have hstart₁ : Y.Step ⟨first, []⟩ ⟨{ first with calls := 1 }, [calling 0 "B"]⟩ :=
    .start (starts first "B")
  have hstart₂ : Y.Step ⟨{ first with calls := 1 }, [calling 0 "B"]⟩
      ⟨{ first with calls := 2 }, [calling 0 "B", calling 1 "C"]⟩ :=
    .start (starts { first with calls := 1 } "C")
  have hselect₁ : Y.Step ⟨{ first with calls := 2 }, [calling 0 "B", calling 1 "C"]⟩
      ⟨asked { first with calls := 2 } 0, [writing 0 "B" ("A", 1), calling 1 "C"]⟩ :=
    @System.Step.act _ _ _ Y [] [calling 1 "C"] _ _ _ _ _ _ _ (asks _ 0 "B")
  have hselect₂ : Y.Step
      ⟨asked { first with calls := 2 } 0, [writing 0 "B" ("A", 1), calling 1 "C"]⟩
      ⟨both, [writing 0 "B" ("A", 1), writing 1 "C" ("A", 1)]⟩ :=
    @System.Step.act _ _ _ Y [writing 0 "B" ("A", 1)] [] _ _ _ _ _ _ _ (asks _ 1 "C")
  have hwrite₁ : Y.Step ⟨both, [writing 0 "B" ("A", 1), writing 1 "C" ("A", 1)]⟩
      ⟨wrote both "B" ("A", 1), [answered 0 "B" ("A", 1), writing 1 "C" ("A", 1)]⟩ :=
    @System.Step.act _ _ _ Y [] [writing 1 "C" ("A", 1)] _ _ _ _ _ _ _ (writes both 0 "B" _ rfl)
  have hwrite₂ : Y.Step
      ⟨wrote both "B" ("A", 1), [answered 0 "B" ("A", 1), writing 1 "C" ("A", 1)]⟩
      ⟨wrote (wrote both "B" ("A", 1)) "C" ("A", 1),
        [answered 0 "B" ("A", 1), answered 1 "C" ("A", 1)]⟩ :=
    @System.Step.act _ _ _ Y [answered 0 "B" ("A", 1)] [] _ _ _ _ _ _ _ (writes _ 1 "C" _ rfl)
  have hrun : Y.Steps ⟨first, []⟩ ⟨wrote (wrote both "B" ("A", 1)) "C" ("A", 1),
      [answered 0 "B" ("A", 1), answered 1 "C" ("A", 1)]⟩ :=
    .tail (.tail (.tail (.tail (.tail (.single hstart₁) hstart₂) hselect₁) hselect₂) hwrite₁) hwrite₂
  have hsingle := (h text "app" _ _ ⟨rfl, rfl, rfl, rfl⟩ hrun).single ("C", 2) (by decide +kernel)
    ("B", 2) (by decide +kernel) rfl
  exact absurd hsingle (by decide +kernel)

/-- Two calls write one manifest, the second over what the first left; a third, begun between
them, writes another over theirs. -/
theorem generation_names_manifest_interleaved :
    ∃ c, ((callers text "app").restrict (FindsWhatItRead text "app")).Steps ⟨first, []⟩ c ∧
      c.state.reported = [("C", 3), ("B", 2), ("B", 2)] ∧ Distinguishes c.state := by
  let Y := (callers text "app").restrict (FindsWhatItRead text "app")
  have hstart₀ : Y.Step ⟨first, []⟩ ⟨{ first with calls := 1 }, [calling 0 "B"]⟩ :=
    .start (starts first "B")
  have hstart₁ : Y.Step ⟨{ first with calls := 1 }, [calling 0 "B"]⟩
      ⟨{ first with calls := 2 }, [calling 0 "B", calling 1 "B"]⟩ :=
    .start (starts { first with calls := 1 } "B")
  have hselect₀ : Y.Step ⟨{ first with calls := 2 }, [calling 0 "B", calling 1 "B"]⟩
      ⟨asked { first with calls := 2 } 0, [writing 0 "B" ("A", 1), calling 1 "B"]⟩ :=
    @System.Step.act _ _ _ Y [] [calling 1 "B"] _ _ _ _ _ _ _ ⟨asks _ 0 "B", trivial⟩
  have hselect₁ : Y.Step
      ⟨asked { first with calls := 2 } 0, [writing 0 "B" ("A", 1), calling 1 "B"]⟩
      ⟨both, [writing 0 "B" ("A", 1), writing 1 "B" ("A", 1)]⟩ :=
    @System.Step.act _ _ _ Y [writing 0 "B" ("A", 1)] [] _ _ _ _ _ _ _ ⟨asks _ 1 "B", trivial⟩
  let s₁ := wrote both "B" ("A", 1)
  have hwrite₀ : Y.Step ⟨both, [writing 0 "B" ("A", 1), writing 1 "B" ("A", 1)]⟩
      ⟨s₁, [answered 0 "B" ("A", 1), writing 1 "B" ("A", 1)]⟩ := by
    refine @System.Step.act _ _ _ Y [] [writing 1 "B" ("A", 1)] _ _ _ _ _ _ _
      ⟨writes both 0 "B" _ rfl, fun found hfound => ?_⟩
    -- the row is as the call read it
    obtain rfl : ("A", 1) = found := Option.some.inj (Option.some.inj hfound)
    exact ⟨fun _ => by decide, .inl rfl⟩
  let s₂ : Shared := { s₁ with calls := 3 }
  have hstart₂ : Y.Step ⟨s₁, [answered 0 "B" ("A", 1), writing 1 "B" ("A", 1)]⟩
      ⟨s₂, [answered 0 "B" ("A", 1), writing 1 "B" ("A", 1), calling 2 "C"]⟩ :=
    .start (starts s₁ "C")
  let s₃ := wrote s₂ "B" ("A", 1)
  have hwrite₁ : Y.Step ⟨s₂, [answered 0 "B" ("A", 1), writing 1 "B" ("A", 1), calling 2 "C"]⟩
      ⟨s₃, [answered 0 "B" ("A", 1), answered 1 "B" ("A", 1), calling 2 "C"]⟩ := by
    refine @System.Step.act _ _ _ Y [answered 0 "B" ("A", 1)] [calling 2 "C"] _ _ _ _ _ _ _
      ⟨writes s₂ 1 "B" _ rfl, fun found hfound => ?_⟩
    -- the row moved on since, to what this call is about to leave
    obtain rfl : ("A", 1) = found := Option.some.inj (Option.some.inj hfound)
    exact ⟨fun _ => by decide, .inr ⟨by decide, rfl⟩⟩
  let s₄ := told (told (asked s₃ 2) "B" ("A", 1)) "B" ("A", 1)
  have hselect₂ : Y.Step ⟨s₃, [answered 0 "B" ("A", 1), answered 1 "B" ("A", 1), calling 2 "C"]⟩
      ⟨asked s₃ 2, [answered 0 "B" ("A", 1), answered 1 "B" ("A", 1), writing 2 "C" ("B", 2)]⟩ :=
    @System.Step.act _ _ _ Y [answered 0 "B" ("A", 1), answered 1 "B" ("A", 1)] [] _ _ _ _ _ _ _
      ⟨asks s₃ 2 "C", trivial⟩
  have hreport₀ : Y.Step
      ⟨asked s₃ 2, [answered 0 "B" ("A", 1), answered 1 "B" ("A", 1), writing 2 "C" ("B", 2)]⟩
      ⟨told (asked s₃ 2) "B" ("A", 1),
        [done 0 "B", answered 1 "B" ("A", 1), writing 2 "C" ("B", 2)]⟩ :=
    @System.Step.act _ _ _ Y [] _ _ _ _ _ _ _ _ ⟨answers _ 0 "B" ("A", 1), trivial⟩
  have hreport₁ : Y.Step ⟨told (asked s₃ 2) "B" ("A", 1),
        [done 0 "B", answered 1 "B" ("A", 1), writing 2 "C" ("B", 2)]⟩
      ⟨s₄, [done 0 "B", done 1 "B", writing 2 "C" ("B", 2)]⟩ :=
    @System.Step.act _ _ _ Y [done 0 "B"] _ _ _ _ _ _ _ _ ⟨answers _ 1 "B" ("A", 1), trivial⟩
  let s₅ := wrote s₄ "C" ("B", 2)
  have hwrite₂ : Y.Step ⟨s₄, [done 0 "B", done 1 "B", writing 2 "C" ("B", 2)]⟩
      ⟨s₅, [done 0 "B", done 1 "B", answered 2 "C" ("B", 2)]⟩ := by
    refine @System.Step.act _ _ _ Y [done 0 "B", done 1 "B"] [] _ _ _ _ _ _ _
      ⟨writes s₄ 2 "C" _ rfl, fun found hfound => ?_⟩
    obtain rfl : ("B", 2) = found := Option.some.inj (Option.some.inj hfound)
    exact ⟨fun _ => by decide, .inl rfl⟩
  have hreport₂ : Y.Step ⟨s₅, [done 0 "B", done 1 "B", answered 2 "C" ("B", 2)]⟩
      ⟨told s₅ "C" ("B", 2), [done 0 "B", done 1 "B", done 2 "C"]⟩ :=
    @System.Step.act _ _ _ Y [done 0 "B", done 1 "B"] [] _ _ _ _ _ _ _
      ⟨answers _ 2 "C" ("B", 2), trivial⟩
  have hfirst : Y.Steps ⟨first, []⟩ ⟨s₁, [answered 0 "B" ("A", 1), writing 1 "B" ("A", 1)]⟩ :=
    .tail (.tail (.tail (.tail (.single hstart₀) hstart₁) hselect₀) hselect₁) hwrite₀
  have hsecond : Y.Steps ⟨first, []⟩ ⟨s₄, [done 0 "B", done 1 "B", writing 2 "C" ("B", 2)]⟩ :=
    .tail (.tail (.tail (.tail (.tail hfirst hstart₂) hwrite₁) hselect₂) hreport₀) hreport₁
  have hrun := (hsecond.tail hwrite₂).tail hreport₂
  exact ⟨_, hrun, rfl, (generation_names_manifest text "app" ⟨first, []⟩ _
    ⟨rfl, rfl, rfl, rfl⟩ hrun).2⟩

end GenerationSample

end Sql

end Pgpod
