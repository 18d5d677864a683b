import Pgpod.Control.ContainerNames
import Pgpod.Control.Ledger
import Pgpod.Control.Plain
import Pgpod.Effect.Upholds

/-!
# What stays as it is in the ledger

`Frame σ L₀ L` says which clusters, networks and containers of `L₀` are still so
in `L`.  It is kept by every operation that keeps away from what `σ` names, and
a container that was made since is never one of those.
-/

namespace Pgpod

open Effect

/-- The row is under the container name of its instance. -/
def NamedRow (r : InstanceRecord) : Prop :=
  ∀ c : ClusterId, c.name = r.cluster → r.containerName = (c.inst r.ordinal).containerName

theorem id_ne_name (n : Nat) (rest : String) : "id-" ++ toString n ≠ "pgpod-" ++ rest := by
  intro h
  have hlist := congrArg (fun s : String => s.toList.head?) h
  simp [String.toList_append] at hlist

theorem InstanceId.containerName_front (i : InstanceId) :
    ∃ rest, i.containerName = "pgpod-" ++ rest :=
  ⟨i.cluster.name ++ "-" ++ i.ordinalText, by simp [containerName, String.append_assoc]⟩

namespace Ledger

/-- IDs and names are distinct, an ID is never a name, and the rows are named after instances. -/
structure Tidy (L : Ledger) : Prop where
  ids : ∀ t ∈ L.shelf, ∃ n < L.nextId, t.id = "id-" ++ toString n
  idsNodup : (L.shelf.map Tag.id).Nodup
  names : ∀ t ∈ L.shelf, ∃ rest, t.spec.name = some ("pgpod-" ++ rest)
  namesNodup : (L.shelf.map fun t => t.spec.name).Nodup
  rows : ∀ r ∈ L.instances, NamedRow r

namespace Tidy

variable {L : Ledger} {t t' : Tag}

theorem id_inj (h : L.Tidy) (ht : t ∈ L.shelf) (ht' : t' ∈ L.shelf) (hid : t.id = t'.id) : t = t' :=
  List.inj_on_of_nodup_map h.idsNodup ht ht' hid

theorem name_inj (h : L.Tidy) (ht : t ∈ L.shelf) (ht' : t' ∈ L.shelf)
    (hname : t.spec.name = t'.spec.name) : t = t' :=
  List.inj_on_of_nodup_map h.namesNodup ht ht' hname

theorem answersTo_name (h : L.Tidy) (ht : t ∈ L.shelf) (rest : String) :
    t.answersTo ("pgpod-" ++ rest) = true ↔ t.spec.name = some ("pgpod-" ++ rest) := by
  obtain ⟨n, -, hid⟩ := h.ids t ht
  have hne : t.id ≠ "pgpod-" ++ rest := hid ▸ id_ne_name n rest
  simp [Tag.answersTo, hne]

theorem answersTo_id (h : L.Tidy) (ht : t ∈ L.shelf) (n : Nat) :
    t.answersTo ("id-" ++ toString n) = true ↔ t.id = "id-" ++ toString n := by
  obtain ⟨rest, hname⟩ := h.names t ht
  have hne : t.spec.name ≠ some ("id-" ++ toString n) := by
    rw [hname]
    exact fun heq => id_ne_name n rest (Option.some.inj heq).symm
  simp only [Tag.answersTo, Bool.or_eq_true, decide_eq_true_eq, hne, or_false]

theorem find_of_name (h : L.Tidy) (ht : t ∈ L.shelf) {n : String} (hn : t.spec.name = some n) :
    L.find n = some t := by
  obtain ⟨rest, hrest⟩ := h.names t ht
  obtain rfl : n = "pgpod-" ++ rest := Option.some.inj (hn.symm.trans hrest)
  cases hfind : L.find ("pgpod-" ++ rest) with
  | none =>
    have hnone := List.find?_eq_none.mp hfind t ht
    exact absurd ((h.answersTo_name ht rest).mpr hn) hnone
  | some t' =>
    have ht' := List.mem_of_find?_eq_some hfind
    have hn' := (h.answersTo_name ht' rest).mp (by simpa using List.find?_some hfind)
    rw [h.name_inj ht' ht (hn'.trans hn.symm)]

theorem of_find_name (h : L.Tidy) {rest : String} (hfind : L.find ("pgpod-" ++ rest) = some t) :
    t ∈ L.shelf ∧ t.spec.name = some ("pgpod-" ++ rest) := by
  have ht := List.mem_of_find?_eq_some hfind
  exact ⟨ht, (h.answersTo_name ht rest).mp (by simpa using List.find?_some hfind)⟩

theorem drop (h : L.Tidy) (ref : String) : (L.drop ref).Tidy where
  ids t ht := h.ids t (List.mem_filter.mp ht).1
  idsNodup := h.idsNodup.sublist (List.filter_sublist.map _)
  names t ht := h.names t (List.mem_filter.mp ht).1
  namesNodup := h.namesNodup.sublist (List.filter_sublist.map _)
  rows := h.rows

theorem withRows (h : L.Tidy) {R : Registry} (hrows : ∀ r ∈ R.instances, NamedRow r) :
    (L.withRows R).Tidy :=
  ⟨h.ids, h.idsNodup, h.names, h.namesNodup, hrows⟩

theorem made (h : L.Tidy) {spec : ContainerSpec} {id : String} {L' : Ledger}
    (hmade : L.Made spec id L') (hname : ∃ rest, spec.name = some ("pgpod-" ++ rest)) :
    L'.Tidy := by
  obtain ⟨image, -, hfree, rfl, rfl⟩ := hmade
  obtain ⟨rest, hrest⟩ := hname
  have hnew : ∀ t ∈ L.shelf, t.id ≠ "id-" ++ toString L.nextId ∧ t.spec.name ≠ spec.name := by
    intro t ht
    constructor
    · obtain ⟨n, hn, hid⟩ := h.ids t ht
      rw [hid]
      intro heq
      have hlist := congrArg String.toList heq
      simp only [String.toList_append, List.append_cancel_left_eq] at hlist
      have := Text.toString_inj (String.toList_injective hlist)
      omega
    · intro heq
      have hfound := h.find_of_name ht (heq.trans hrest)
      rw [hfree _ hrest] at hfound
      cases hfound
  constructor
  · intro t ht
    rcases List.mem_append.mp ht with ht | ht
    · obtain ⟨n, hn, hid⟩ := h.ids t ht
      exact ⟨n, Nat.lt_succ_of_lt hn, hid⟩
    · rw [List.mem_singleton.mp ht]
      exact ⟨L.nextId, Nat.lt_succ_self _, rfl⟩
  · simp only [List.map_append, List.map_cons, List.map_nil]
    refine List.nodup_append.mpr ⟨h.idsNodup, by simp, fun a ha b hb => ?_⟩
    obtain ⟨t, ht, rfl⟩ := List.mem_map.mp ha
    rw [List.mem_singleton.mp hb]
    exact (hnew t ht).1
  · intro t ht
    rcases List.mem_append.mp ht with ht | ht
    · exact h.names t ht
    · rw [List.mem_singleton.mp ht]
      exact ⟨rest, hrest⟩
  · simp only [List.map_append, List.map_cons, List.map_nil]
    refine List.nodup_append.mpr ⟨h.namesNodup, by simp, fun a ha b hb => ?_⟩
    obtain ⟨t, ht, rfl⟩ := List.mem_map.mp ha
    rw [List.mem_singleton.mp hb]
    exact (hnew t ht).2
  · exact h.rows

end Tidy

/-! ## Frames -/

/-- What is to stay as it is. -/
structure Scope where
  cluster : String → Prop
  network : String → Prop
  tag : Tag → Prop

namespace Scope

/-- Everything is to stay. -/
def all : Scope := ⟨fun _ => True, fun _ => True, fun _ => True⟩

/-- Nothing but the images. -/
def none : Scope := ⟨fun _ => False, fun _ => False, fun _ => False⟩

/-- The rows of clusters. -/
def clusters : Scope := ⟨fun _ => True, fun _ => False, fun _ => False⟩

/-- The networks. -/
def networks : Scope := ⟨fun _ => False, fun _ => True, fun _ => False⟩

/-- The container of a name. -/
def container (name : String) : Scope :=
  ⟨fun _ => False, fun _ => False, fun t => t.spec.name = some name⟩

end Scope

structure Frame (σ : Scope) (L₀ L : Ledger) : Prop where
  tidy : L.Tidy
  nextId : L₀.nextId ≤ L.nextId
  clusters : ∀ n, σ.cluster n → L.rows.cluster n = L₀.rows.cluster n
  networks : ∀ n, σ.network n → L.networks n = L₀.networks n
  images : ∀ n i, L₀.images n = some i → L.images n = some i
  tags : ∀ t ∈ L₀.shelf, σ.tag t → t ∈ L.shelf

/-- The reference is of no container that is to stay. -/
def Spares (σ : Scope) (L₀ : Ledger) (ref : String) : Prop :=
  ∀ t ∈ L₀.shelf, σ.tag t → t.answersTo ref = false

namespace Frame

variable {σ σ' : Scope} {L₀ L L' : Ledger}

theorem refl (h : L.Tidy) : Frame σ L L :=
  ⟨h, Nat.le_refl _, fun _ _ => rfl, fun _ _ => rfl, fun _ _ h => h, fun _ h _ => h⟩

/-! ### Operations -/

theorem made (h : Frame σ L₀ L) {spec : ContainerSpec} {id : String} (hmade : L.Made spec id L')
    (hname : ∃ rest, spec.name = some ("pgpod-" ++ rest)) :
    Frame σ L₀ L' ∧ ∃ n, L₀.nextId ≤ n ∧ id = "id-" ++ toString n := by
  have htidy := h.tidy.made hmade hname
  obtain ⟨image, -, -, rfl, rfl⟩ := hmade
  refine ⟨⟨htidy, Nat.le_succ_of_le h.nextId, h.clusters, h.networks, h.images, fun t ht hσ => ?_⟩,
    L.nextId, h.nextId, rfl⟩
  exact List.mem_append_left _ (h.tags t ht hσ)

theorem drop (h : Frame σ L₀ L) {ref : String} (hspares : Spares σ L₀ ref) :
    Frame σ L₀ (L.drop ref) where
  tidy := h.tidy.drop ref
  nextId := h.nextId
  clusters := h.clusters
  networks := h.networks
  images := h.images
  tags t ht hσ := List.mem_filter.mpr ⟨h.tags t ht hσ, by simp [hspares t ht hσ]⟩

theorem setImage (h : Frame σ L₀ L) {name : String} (hnone : L.images name = none) (image : Image) :
    Frame σ L₀ (L.setImage name image) where
  tidy := ⟨h.tidy.ids, h.tidy.idsNodup, h.tidy.names, h.tidy.namesNodup, h.tidy.rows⟩
  nextId := h.nextId
  clusters := h.clusters
  networks := h.networks
  images n i hi := by
    have hthere := h.images n i hi
    have hne : n ≠ name := by
      rintro rfl
      rw [hnone] at hthere
      cases hthere
    simpa [Ledger.setImage, hne] using hthere
  tags := h.tags

theorem setNetwork (h : Frame σ L₀ L) {name : String} (hname : ¬ σ.network name)
    (subnet : Option (Option String)) : Frame σ L₀ (L.setNetwork name subnet) where
  tidy := ⟨h.tidy.ids, h.tidy.idsNodup, h.tidy.names, h.tidy.namesNodup, h.tidy.rows⟩
  nextId := h.nextId
  clusters := h.clusters
  networks n hn := by
    have hne : n ≠ name := fun heq => hname (heq ▸ hn)
    simpa [Ledger.setNetwork, hne] using h.networks n hn
  images := h.images
  tags := h.tags

/-- Rows were written, of clusters that need not stay. -/
theorem withRows (h : Frame σ L₀ L) {R : Registry} (hrows : ∀ r ∈ R.instances, NamedRow r)
    (hclusters : ∀ n, σ.cluster n → R.cluster n = L.rows.cluster n) :
    Frame σ L₀ (L.withRows R) where
  tidy := h.tidy.withRows hrows
  nextId := h.nextId
  clusters n hn := (hclusters n hn).trans (h.clusters n hn)
  networks := h.networks
  images := h.images
  tags := h.tags

/-- What was made since is no container that is to stay. -/
theorem spares_fresh (h₀ : L₀.Tidy) {id : String}
    (hid : ∃ n, L₀.nextId ≤ n ∧ id = "id-" ++ toString n) : Spares σ L₀ id := by
  obtain ⟨n, hn, rfl⟩ := hid
  intro t ht _
  rw [Bool.eq_false_iff, ne_eq, h₀.answersTo_id ht]
  obtain ⟨m, hm, hid⟩ := h₀.ids t ht
  rw [hid]
  intro heq
  have hlist := congrArg String.toList heq
  simp only [String.toList_append, List.append_cancel_left_eq] at hlist
  have := Text.toString_inj (String.toList_injective hlist)
  omega

theorem spares_name (h₀ : L₀.Tidy) {rest : String}
    (hname : ∀ t, σ.tag t → t.spec.name ≠ some ("pgpod-" ++ rest)) :
    Spares σ L₀ ("pgpod-" ++ rest) := by
  intro t ht hσ
  rw [Bool.eq_false_iff, ne_eq, h₀.answersTo_name ht]
  exact hname t hσ

/-- A container of a name that none of those that are to stay has. -/
theorem spares_tag (h : Frame σ L₀ L) {t : Tag} (ht : t ∈ L.shelf)
    (hname : ∀ t', σ.tag t' → t'.spec.name ≠ t.spec.name) : Spares σ L₀ t.id := by
  intro t' ht' hσ
  have hmem := h.tags t' ht' hσ
  obtain ⟨n, -, hid⟩ := h.tidy.ids t ht
  rw [hid, Bool.eq_false_iff, ne_eq, h.tidy.answersTo_id hmem, ← hid]
  intro heq
  exact hname t' hσ (congrArg (fun t => t.spec.name) (h.tidy.id_inj hmem ht heq))

end Frame

/-! ## Rows of other clusters -/

end Ledger

namespace Registry

variable (R : Registry) {n : String}

theorem cluster_map {f : ClusterRecord → ClusterRecord} (hf : ∀ r, (f r).name = r.name) (n : String) :
    ({ R with clusters := R.clusters.map f } : Registry).cluster n = (R.cluster n).map f := by
  unfold cluster
  rw [List.find?_map]
  simp only [Function.comp_def, hf]

theorem cluster_updateCluster (k : String) {f : ClusterRecord → ClusterRecord}
    (hf : ∀ r, (f r).name = r.name) (n : String) : (R.updateCluster k f).cluster n =
      (R.cluster n).map fun r => if r.name = k then f r else r :=
  R.cluster_map (fun r => by split <;> simp [hf]) n

theorem name_of_cluster {R : Registry} {r : ClusterRecord} (h : R.cluster n = some r) : r.name = n := by
  simpa using List.find?_some h

theorem cluster_updateCluster_ne {k : String} {f : ClusterRecord → ClusterRecord}
    (hf : ∀ r, (f r).name = r.name) (hne : n ≠ k) :
    (R.updateCluster k f).cluster n = R.cluster n := by
  rw [R.cluster_updateCluster k hf]
  cases h : R.cluster n with
  | none => rfl
  | some r => simp [name_of_cluster h, hne]

theorem cluster_putCluster_ne {m : ClusterManifest} (phase : ClusterPhase)
    (hne : n ≠ m.metadata.name) : (R.putCluster m phase).2.cluster n = R.cluster n := by
  unfold putCluster
  cases R.cluster m.metadata.name with
  | none =>
    simp only [cluster, List.find?_append]
    simp [Ne.symm hne]
  | some old => exact R.cluster_updateCluster_ne (fun _ => by rfl) hne

theorem putCluster_instances (m : ClusterManifest) (phase : ClusterPhase) :
    (R.putCluster m phase).2.instances = R.instances := by
  unfold putCluster
  cases R.cluster m.metadata.name <;> rfl

end Registry

namespace Ledger

/-! ## Tasks -/

section Tasks

variable {σ : Scope} {L₀ : Ledger} {α : Type}

theorem stable (I : Ledger → Prop) : machine.Stable I := fun _ _ h => h.elim

theorem step_plain {β : Type} {op : CtlOp β} {L L' : Ledger} {b : β} (hop : Control.Plain op)
    (h : step op L b L') : L' = L := by
  cases op with
  | registry op =>
    cases op with
    | cluster k => exact h.1
    | instances k => exact h.1
    | putCluster => exact hop.elim
    | setClusterPhase => exact hop.elim
    | deleteCluster => exact hop.elim
    | putInstance => exact hop.elim
    | _ => exact h
  | podman op =>
    cases op with
    | pullImageIfAbsent => exact hop.elim
    | ensureNetwork => exact hop.elim
    | removeNetwork => exact hop.elim
    | createContainer => exact hop.elim
    | remove => exact hop.elim
    | imageId => exact h.1
    | probe => exact h.1
    | _ => exact h
  | host op => exact h

/-- Whatever is true of the ledger stays so along a plain task. -/
theorem upholds_plain {I : Ledger → Prop} {t : Control.CtlTask α} (ht : t.run.Calls Control.Plain) :
    machine.Upholds I t fun _ => True :=
  .of_calls (stable I) (fun _ _ _ _ _ hop hs hstep => step_plain hop hstep ▸ hs) ht

theorem upholds_instances (k : ClusterId) :
    machine.Upholds (Frame σ L₀) (Control.registry (.instances k)) fun rows =>
      ∀ r ∈ rows, NamedRow r ∧ r.cluster = k.name := by
  refine .ask (stable _) fun L b L' h hstep => ?_
  obtain ⟨rfl, hrows⟩ := hstep
  refine ⟨h, fun rows hb r hr => ?_⟩
  rw [hrows rows hb] at hr
  obtain ⟨hmem, hcluster⟩ := List.mem_filter.mp hr
  exact ⟨h.tidy.rows r hmem, by simpa using hcluster⟩

theorem upholds_putInstance {rec : InstanceRecord} (hrec : NamedRow rec) :
    machine.Upholds (Frame σ L₀) (Control.registry (.putInstance rec)) fun _ => True := by
  refine .ask (stable _) fun L b L' h hstep => ⟨?_, fun _ _ => trivial⟩
  cases b with
  | error e =>
    obtain rfl : L' = L := hstep
    exact h
  | ok u =>
    obtain rfl : L' = L.withRows (L.rows.putInstance rec) := hstep
    refine h.withRows (fun r hr => ?_) fun _ _ => rfl
    rcases List.mem_append.mp hr with hr | hr
    · exact h.tidy.rows r (List.mem_filter.mp hr).1
    · rw [List.mem_singleton.mp hr]
      exact hrec

theorem upholds_putCluster {m : ClusterManifest} (phase : ClusterPhase)
    (hm : ¬ σ.cluster m.metadata.name) :
    machine.Upholds (Frame σ L₀) (Control.registry (.putCluster m phase)) fun _ => True := by
  refine .ask (stable _) fun L b L' h hstep => ⟨?_, fun _ _ => trivial⟩
  cases b with
  | error e =>
    obtain rfl : L' = L := hstep
    exact h
  | ok g =>
    obtain ⟨-, rfl⟩ := hstep
    refine h.withRows (fun r hr => ?_) fun n hn => ?_
    · rw [Registry.putCluster_instances] at hr
      exact h.tidy.rows r hr
    · exact L.rows.cluster_putCluster_ne phase fun heq => hm (heq ▸ hn)

theorem upholds_setClusterPhase {k : ClusterId} (phase : ClusterPhase) (hk : ¬ σ.cluster k.name) :
    machine.Upholds (Frame σ L₀) (Control.registry (.setClusterPhase k phase)) fun _ => True := by
  refine .ask (stable _) fun L b L' h hstep => ⟨?_, fun _ _ => trivial⟩
  cases b with
  | error e =>
    obtain rfl : L' = L := hstep
    exact h
  | ok u =>
    obtain rfl : L' = L.withRows (L.rows.updateCluster k.name fun r =>
      { r with phase := phase.asStr }) := hstep
    exact h.withRows h.tidy.rows fun n hn =>
      L.rows.cluster_updateCluster_ne (fun _ => rfl) fun heq => hk (heq ▸ hn)

theorem upholds_pullImage (image : String) :
    machine.Upholds (Frame σ L₀) (Control.podman (.pullImageIfAbsent image)) fun _ => True := by
  refine .ask (stable _) fun L b L' h hstep => ⟨?_, fun _ _ => trivial⟩
  rcases hstep.1 with rfl | ⟨hnone, found, rfl⟩
  · exact h
  · exact h.setImage hnone found

theorem upholds_ensureNetwork {name : String} (hname : ¬ σ.network name) :
    machine.Upholds (Frame σ L₀) (Control.podman (.ensureNetwork name)) fun _ => True := by
  refine .ask (stable _) fun L b L' h hstep => ⟨?_, fun _ _ => trivial⟩
  rcases hstep.1 with rfl | ⟨-, subnet, rfl⟩
  · exact h
  · exact h.setNetwork hname _

theorem upholds_removeNetwork {name : String} (hname : ¬ σ.network name) :
    machine.Upholds (Frame σ L₀) (Control.podman (.removeNetwork name)) fun _ => True := by
  refine .ask (stable _) fun L b L' h hstep => ⟨?_, fun _ _ => trivial⟩
  rcases hstep with rfl | rfl
  · exact h
  · exact h.setNetwork hname _

theorem upholds_createContainer {spec : ContainerSpec}
    (hname : ∃ rest, spec.name = some ("pgpod-" ++ rest)) :
    machine.Upholds (Frame σ L₀) (Control.podman (.createContainer spec)) fun id =>
      ∃ n, L₀.nextId ≤ n ∧ id = "id-" ++ toString n := by
  refine .ask (stable _) fun L b L' h hstep => ⟨?_, fun id hid => ?_⟩
  · rcases hstep.1 with rfl | ⟨id, hmade⟩
    · exact h
    · exact (h.made hmade hname).1
  · exact (h.made (hstep.2 id hid) hname).2

theorem upholds_remove {ref : String} (hspares : Spares σ L₀ ref) :
    machine.Upholds (Frame σ L₀) (Control.podman (.remove ref)) fun _ => True := by
  refine .ask (stable _) fun L b L' h hstep => ⟨?_, fun _ _ => trivial⟩
  rcases hstep.1 with rfl | rfl
  · exact h
  · exact h.drop hspares

/-- The container found under a name that none of those that are to stay has. -/
theorem upholds_probe {rest : String}
    (hname : ∀ t, σ.tag t → t.spec.name ≠ some ("pgpod-" ++ rest)) :
    machine.Upholds (Frame σ L₀) (Control.podman (.probe ("pgpod-" ++ rest))) fun a =>
      ∀ p, a = some p → Spares σ L₀ p.id := by
  refine .ask (stable _) fun L b L' h hstep => ?_
  obtain ⟨rfl, hfound⟩ := hstep
  refine ⟨h, ?_⟩
  rintro a rfl p rfl
  obtain ⟨t, hfind, hid, -, -⟩ := hfound
  obtain ⟨ht, hn⟩ := h.tidy.of_find_name hfind
  rw [hid]
  exact h.spares_tag ht fun t' hσ => hn ▸ hname t' hσ

end Tasks

end Ledger

end Pgpod
