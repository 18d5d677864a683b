import Pgpod.Control.Records
import Pgpod.Effect.Prog
import Mathlib.Algebra.Group.Int.Defs
import Mathlib.Data.List.Dedup

/-!
# The registry's rows, and how they are read

The tables as SQLite holds them.  A manifest is stored as JSON, a phase and a
role as text, a number as whatever integer was written; every reader decodes,
and a list of rows is an error as soon as one of them is.
-/

namespace Pgpod

open Effect

/-! ## Decoding -/

namespace RegistryError

def corrupt (why : String) : Error := .registry ("stored data is corrupt: " ++ why)

def unknownCluster (name : String) : Error :=
  .registry ("cluster " ++ name ++ " is not known to pgpod")

def unknownPooler (name : String) : Error :=
  .registry ("pooler " ++ name ++ " is not known to pgpod")

/-- A stored integer that the column's type cannot hold. -/
def outOfRange (column : Nat) (value : Int) : Error :=
  .registry ("registry database: Integer " ++ toString value ++ " out of range at index " ++
    toString column)

end RegistryError

/-- What the JSON library makes of a stored manifest. -/
structure StoredJson where
  cluster : String → Except String ClusterManifest
  pooler : String → Except String PoolerManifest

/-! ## Tables -/

structure ClusterRow where
  name : String
  manifest : String
  generation : Int64
  phase : String
deriving DecidableEq

structure InstanceRow where
  cluster : String
  ordinal : Int
  containerName : String
  containerId : Option String
  volumeName : String
  hostPort : Int
  phase : String
  role : String
  timeline : Option Int := none
  lastProbeAtMs : Option Int := none
deriving DecidableEq

/-- The primary key of the table. -/
def InstanceRow.key (r : InstanceRow) : String × Int := (r.cluster, r.ordinal)

structure PoolerRow where
  name : String
  manifest : String
  generation : Int64
  containerName : String
  containerId : Option String
  hostPort : Int
  phase : String
deriving DecidableEq

structure Tables where
  clusters : List ClusterRow := []
  instances : List InstanceRow := []
  poolers : List PoolerRow := []
  /-- The pools of `pooler_clusters`, by pooler. -/
  pools : List (String × PoolerPool) := []
  clusterKey : (clusters.map ClusterRow.name).Nodup := by decide
  instanceKey : (instances.map InstanceRow.key).Nodup := by decide
  poolerKey : (poolers.map PoolerRow.name).Nodup := by decide

def u32Column (column : Nat) (value : Int) : Except Error UInt32 :=
  if 0 ≤ value ∧ value < 2 ^ 32 then .ok (UInt32.ofNat value.toNat)
  else .error (RegistryError.outOfRange column value)

def u16Column (column : Nat) (value : Int) : Except Error UInt16 :=
  if 0 ≤ value ∧ value < 2 ^ 16 then .ok (UInt16.ofNat value.toNat)
  else .error (RegistryError.outOfRange column value)

namespace InstanceRow

def phaseColumn (r : InstanceRow) : Except Error InstancePhase :=
  match InstancePhase.fromStr r.phase with
  | some phase => .ok phase
  | none => .error (RegistryError.corrupt
      ("stored phase " ++ Text.debug r.phase ++ ": invalid instance phase: " ++ r.phase))

def roleColumn (r : InstanceRow) : Except Error InstanceRole :=
  match InstanceRole.fromStr r.role with
  | some role => .ok role
  | none => .error (RegistryError.corrupt
      ("stored role " ++ Text.debug r.role ++ ": invalid instance role: " ++ r.role))

def decode (r : InstanceRow) : Except Error InstanceRecord := do
  let ordinal ← u32Column 1 r.ordinal
  let hostPort ← u16Column 5 r.hostPort
  let phase ← r.phaseColumn
  let role ← r.roleColumn
  return {
    cluster := r.cluster
    ordinal
    containerName := r.containerName
    containerId := r.containerId
    volumeName := r.volumeName
    hostPort
    phase
    role
    timeline := r.timeline
    lastProbeAtMs := r.lastProbeAtMs }

/-- The row as `put_instance` writes it. -/
def encode (rec : InstanceRecord) : InstanceRow where
  cluster := rec.cluster
  ordinal := Int.ofNat rec.ordinal.toNat
  containerName := rec.containerName
  containerId := rec.containerId
  volumeName := rec.volumeName
  hostPort := Int.ofNat rec.hostPort.toNat
  phase := rec.phase.asStr
  role := rec.role.asStr
  timeline := rec.timeline
  lastProbeAtMs := rec.lastProbeAtMs

end InstanceRow

namespace Tables

variable (json : StoredJson) (T : Tables)

/-! ## Clusters -/

def cluster (c : ClusterId) : Except Error (Option ClusterRecord) :=
  match T.clusters.find? fun r => r.name = c.name with
  | none => .ok none
  | some r => match json.cluster r.manifest with
    | .ok manifest => .ok (some ⟨r.name, manifest, r.generation, r.phase⟩)
    | .error e => .error (RegistryError.corrupt ("stored manifest: " ++ e))

def requireCluster (c : ClusterId) : Except Error ClusterRecord := do
  match ← T.cluster json c with
  | some record => .ok record
  | none => .error (RegistryError.unknownCluster c.name)

def sorted (names : List String) : List String := names.mergeSort fun a b => decide (a ≤ b)

def listed (name : String) : Except Error ClusterRecord := do
  let id ← (ClusterId.new name).mapError fun e =>
    RegistryError.corrupt ("stored cluster name " ++ Text.debug name ++ ": " ++ e.toString)
  T.requireCluster json id

def listClusters : Except Error (List ClusterRecord) :=
  (sorted (T.clusters.map ClusterRow.name)).mapM (T.listed json)

/-! ## Instances -/

def instanceRows (c : ClusterId) : List InstanceRow :=
  (T.instances.filter fun r => r.cluster = c.name).mergeSort fun a b => decide (a.ordinal ≤ b.ordinal)

def instancesOf (c : ClusterId) : Except Error (List InstanceRecord) :=
  (T.instanceRows c).mapM InstanceRow.decode

/-- The rows with one put in the place of that of its key. -/
def replaced (rows : List InstanceRow) (row : InstanceRow) : List InstanceRow :=
  (rows.filter fun r => !(r.cluster = row.cluster && r.ordinal = row.ordinal)) ++ [row]

theorem replaced_keys {rows : List InstanceRow} (h : (rows.map InstanceRow.key).Nodup)
    (row : InstanceRow) : ((replaced rows row).map InstanceRow.key).Nodup := by
  unfold replaced
  rw [List.map_append, List.nodup_append']
  refine ⟨h.sublist (List.filter_sublist.map _), List.nodup_singleton _, fun key hkey hkey' => ?_⟩
  obtain ⟨r, hr, rfl⟩ := List.mem_map.mp hkey
  obtain ⟨hcluster, hordinal⟩ := Prod.mk.inj (List.mem_singleton.mp hkey')
  have hkept := (List.mem_filter.mp hr).2
  simp [hcluster, hordinal] at hkept

/-- What `put_instance` does: the row of the same cluster and ordinal is replaced. -/
def putInstance (rec : InstanceRecord) : Tables :=
  { T with
    instances := replaced T.instances (InstanceRow.encode rec)
    instanceKey := replaced_keys T.instanceKey _ }

/-- Putting a row in the place of one that is there rewrites that one. -/
theorem replaced_perm {rows : List InstanceRow} (h : (rows.map InstanceRow.key).Nodup)
    {r row : InstanceRow} (hr : r ∈ rows) (hkey : row.key = r.key) :
    (replaced rows row).Perm (rows.map fun x => if x.key = r.key then row else x) := by
  have hcut : ∀ x : InstanceRow,
      (!(x.cluster = row.cluster && x.ordinal = row.ordinal)) = !decide (x.key = r.key) := by
    intro x
    rw [← hkey]
    simp [InstanceRow.key, Prod.ext_iff]
  unfold replaced
  simp only [hcut]
  induction rows with
  | nil => cases hr
  | cons x rest ih =>
    obtain ⟨hfresh, hrest⟩ := List.nodup_cons.mp h
    by_cases hx : x.key = r.key
    · -- this is the row: no other has its key
      have hother : ∀ y ∈ rest, y.key ≠ r.key := by
        intro y hy heq
        exact hfresh (List.mem_map.mpr ⟨y, hy, heq.trans hx.symm⟩)
      have hmap : (rest.map fun x => if x.key = r.key then row else x) = rest := by
        refine (List.map_congr_left fun y hy => ?_).trans (List.map_id rest)
        rw [if_neg (hother y hy), id_eq]
      have hfilter : (rest.filter fun y => !decide (y.key = r.key)) = rest :=
        List.filter_eq_self.mpr fun y hy => by simpa using hother y hy
      rw [List.filter_cons_of_neg (by simp [hx]), List.map_cons, if_pos hx, hmap, hfilter]
      exact List.perm_append_singleton row rest
    · have hmem : r ∈ rest := by
        rcases List.mem_cons.mp hr with rfl | hmem
        · exact absurd rfl hx
        · exact hmem
      rw [List.filter_cons_of_pos (by simpa using hx), List.map_cons, if_neg hx, List.cons_append]
      exact (ih hrest hmem).cons x

/-! ## Poolers -/

def poolsOf (pooler : String) : List PoolerPool :=
  ((T.pools.filter fun p => p.1 = pooler).map Prod.snd).mergeSort
    fun a b => decide (a.poolName ≤ b.poolName)

def pooler (p : PoolerId) : Except Error (Option PoolerRecord) :=
  match T.poolers.find? fun r => r.name = p.name with
  | none => .ok none
  | some r => match json.pooler r.manifest with
    | .ok manifest => .ok (some
        { name := r.name, manifest, generation := r.generation
          containerName := r.containerName, containerId := r.containerId
          -- `as u16`: what does not fit is cut off
          hostPort := UInt16.ofInt r.hostPort, phase := r.phase, pools := T.poolsOf r.name })
    | .error e => .error (RegistryError.corrupt ("stored pooler manifest: " ++ e))

def requirePooler (p : PoolerId) : Except Error PoolerRecord := do
  match ← T.pooler json p with
  | some record => .ok record
  | none => .error (RegistryError.unknownPooler p.name)

def listedPooler (name : String) : Except Error PoolerRecord := do
  let id ← (PoolerId.new name).mapError fun e =>
    RegistryError.corrupt ("stored pooler name " ++ Text.debug name ++ ": " ++ e.toString)
  T.requirePooler json id

def listPoolers : Except Error (List PoolerRecord) :=
  (sorted (T.poolers.map PoolerRow.name)).mapM (T.listedPooler json)

/-- The poolers in front of a cluster, each once however many of its pools are the cluster's. -/
def poolersForCluster (cluster : ClusterId) : Except Error (List PoolerRecord) :=
  (sorted ((T.pools.filter fun p => p.2.cluster = cluster.name).map Prod.fst).dedup).mapM
    (T.listedPooler json)

end Tables

/-! ## What can be read -/

section Collect

variable {α β : Type} {f : α → Except Error β}

/-- A list is read when each of its members is. -/
theorem mapM_isOk {xs : List α} : (xs.mapM f).isOk = true ↔ ∀ x ∈ xs, (f x).isOk = true := by
  induction xs with
  | nil => simp [pure, Except.pure]
  | cons x xs ih =>
    rw [List.mapM_cons, List.forall_mem_cons, ← ih]
    cases f x with
    | error e => simp [bind, Except.bind]
    | ok y => cases xs.mapM f <;> simp [bind, Except.bind, pure, Except.pure]

/-- What is read of a list is what is read of its members. -/
theorem mapM_members {xs : List α} {ys : List β} (h : xs.mapM f = .ok ys) :
    (∀ y ∈ ys, ∃ x ∈ xs, f x = .ok y) ∧ ∀ x ∈ xs, ∃ y ∈ ys, f x = .ok y := by
  induction xs generalizing ys with
  | nil =>
    simp only [List.mapM_nil, pure, Except.pure, Except.ok.injEq] at h
    subst h
    simp
  | cons x xs ih =>
    rw [List.mapM_cons] at h
    cases hx : f x with
    | error e => simp [hx, bind, Except.bind] at h
    | ok y =>
      cases hxs : xs.mapM f with
      | error e => simp [hx, hxs, bind, Except.bind] at h
      | ok rest =>
        simp only [hx, hxs, bind, Except.bind, pure, Except.pure, Except.ok.injEq] at h
        subst h
        obtain ⟨hfrom, hto⟩ := ih hxs
        constructor
        · intro z hz
          rcases List.mem_cons.mp hz with rfl | hz
          · exact ⟨x, List.mem_cons_self, hx⟩
          · obtain ⟨w, hw, hfw⟩ := hfrom z hz
            exact ⟨w, List.mem_cons_of_mem _ hw, hfw⟩
        · intro w hw
          rcases List.mem_cons.mp hw with rfl | hw
          · exact ⟨y, List.mem_cons_self, hx⟩
          · obtain ⟨z, hz, hfz⟩ := hto w hw
            exact ⟨z, List.mem_cons_of_mem _ hz, hfz⟩

/-- What a member's reading keeps of it, the list's keeps in order. -/
theorem mapM_map {γ : Type} {g : β → γ} {k : α → γ} {xs : List α} {ys : List β}
    (hf : ∀ x y, f x = .ok y → g y = k x) (h : xs.mapM f = .ok ys) : ys.map g = xs.map k := by
  induction xs generalizing ys with
  | nil =>
    simp only [List.mapM_nil, pure, Except.pure, Except.ok.injEq] at h
    subst h
    rfl
  | cons x xs ih =>
    rw [List.mapM_cons] at h
    simp only [except_bind_eq_ok] at h
    obtain ⟨y, hy, rest, hrest, h⟩ := h
    rw [← Except.ok.inj h, List.map_cons, List.map_cons, hf x y hy, ih hrest]

end Collect

def ClusterRow.Readable (json : StoredJson) (r : ClusterRow) : Prop :=
  validClusterName r.name = true ∧ (json.cluster r.manifest).isOk = true

def PoolerRow.Readable (json : StoredJson) (r : PoolerRow) : Prop :=
  validClusterName r.name = true ∧ (json.pooler r.manifest).isOk = true

def InstanceRow.Readable (r : InstanceRow) : Prop := r.decode.isOk = true

namespace Tables

variable {json : StoredJson} {T : Tables}

theorem find_cluster {r : ClusterRow} (h : r ∈ T.clusters) :
    T.clusters.find? (fun r' => r'.name = r.name) = some r := by
  cases hfind : T.clusters.find? fun r' => r'.name = r.name with
  | none => exact absurd (List.find?_eq_none.mp hfind r h) (by simp)
  | some r' =>
    have hname : r'.name = r.name := by simpa using List.find?_some hfind
    rw [List.inj_on_of_nodup_map T.clusterKey (List.mem_of_find?_eq_some hfind) h hname]

theorem find_pooler {r : PoolerRow} (h : r ∈ T.poolers) :
    T.poolers.find? (fun r' => r'.name = r.name) = some r := by
  cases hfind : T.poolers.find? fun r' => r'.name = r.name with
  | none => exact absurd (List.find?_eq_none.mp hfind r h) (by simp)
  | some r' =>
    have hname : r'.name = r.name := by simpa using List.find?_some hfind
    rw [List.inj_on_of_nodup_map T.poolerKey (List.mem_of_find?_eq_some hfind) h hname]

theorem mem_sorted {names : List String} {name : String} : name ∈ sorted names ↔ name ∈ names := by
  simp [sorted]

/-- A row under a valid name with a manifest that decodes is listed as it stands. -/
theorem listed_of_row {r : ClusterRow} (h : r ∈ T.clusters) (record : ClusterRecord) :
    T.listed json r.name = .ok record ↔ validClusterName r.name = true ∧
      ∃ m, json.cluster r.manifest = .ok m ∧ record = ⟨r.name, m, r.generation, r.phase⟩ := by
  unfold listed ClusterId.new
  by_cases hvalid : validClusterName r.name = true
  · rw [dif_pos hvalid]
    simp only [bind, Except.bind, Except.mapError, requireCluster, cluster, find_cluster h]
    cases hjson : json.cluster r.manifest with
    | error e => simp
    | ok m => simp [hvalid, eq_comm]
  · rw [dif_neg hvalid]
    simp [bind, Except.bind, Except.mapError, hvalid]

theorem listed_isOk {r : ClusterRow} (h : r ∈ T.clusters) :
    (T.listed json r.name).isOk = true ↔ r.Readable json := by
  have hiff : ∀ record, T.listed json r.name = .ok record ↔ _ := listed_of_row h
  unfold ClusterRow.Readable
  cases hlisted : T.listed json r.name with
  | ok record =>
    obtain ⟨hvalid, m, hm, -⟩ := (hiff _).mp hlisted
    simp [hvalid, hm]
  | error e =>
    refine iff_of_false (by simp) ?_
    rintro ⟨hvalid, hok⟩
    cases hm : json.cluster r.manifest with
    | error e => simp [hm] at hok
    | ok m =>
      rw [(hiff _).mpr ⟨hvalid, m, hm, rfl⟩] at hlisted
      cases hlisted

theorem listClusters_isOk :
    (T.listClusters json).isOk = true ↔ ∀ r ∈ T.clusters, r.Readable json := by
  unfold listClusters
  rw [mapM_isOk]
  constructor
  · exact fun h r hr => (listed_isOk hr).mp (h r.name (mem_sorted.mpr (List.mem_map_of_mem hr)))
  · intro h name hname
    obtain ⟨r, hr, rfl⟩ := List.mem_map.mp (mem_sorted.mp hname)
    exact (listed_isOk hr).mpr (h r hr)

/-- The records listed are those of the rows. -/
theorem mem_listClusters {records : List ClusterRecord} (h : T.listClusters json = .ok records)
    {record : ClusterRecord} :
    record ∈ records ↔ ∃ r ∈ T.clusters, T.listed json r.name = .ok record := by
  obtain ⟨hfrom, hto⟩ := mapM_members h
  constructor
  · intro hrecord
    obtain ⟨name, hname, hlisted⟩ := hfrom record hrecord
    obtain ⟨r, hr, rfl⟩ := List.mem_map.mp (mem_sorted.mp hname)
    exact ⟨r, hr, hlisted⟩
  · rintro ⟨r, hr, hlisted⟩
    obtain ⟨record', hrecord', hlisted'⟩ := hto r.name (mem_sorted.mpr (List.mem_map_of_mem hr))
    rw [hlisted] at hlisted'
    rwa [Except.ok.inj hlisted']

theorem listed_name {name : String} {record : ClusterRecord}
    (h : T.listed json name = .ok record) : record.name = name ∧ validClusterName name = true := by
  unfold listed ClusterId.new at h
  by_cases hvalid : validClusterName name = true
  · rw [dif_pos hvalid] at h
    simp only [bind, Except.bind, Except.mapError, requireCluster, cluster] at h
    cases hfind : T.clusters.find? fun r => r.name = name with
    | none => simp [hfind] at h
    | some r =>
      have hname : r.name = name := by simpa using List.find?_some hfind
      cases hjson : json.cluster r.manifest with
      | error e => simp [hfind, hjson] at h
      | ok m =>
        simp only [hfind, hjson, Except.ok.injEq] at h
        exact ⟨h ▸ hname, hvalid⟩
  · rw [dif_neg hvalid] at h
    simp [bind, Except.bind, Except.mapError] at h

/-- The records listed are under different names, all of them valid. -/
theorem names_of_listClusters {records : List ClusterRecord}
    (h : T.listClusters json = .ok records) :
    (records.map ClusterRecord.name).Nodup ∧
      ∀ record ∈ records, validClusterName record.name = true := by
  constructor
  · have hnames := mapM_map (g := ClusterRecord.name) (k := id) (fun _ _ hl => (listed_name hl).1) h
    rw [hnames, List.map_id]
    exact (List.mergeSort_perm _ _).nodup_iff.mpr T.clusterKey
  · intro record hrecord
    obtain ⟨name, -, hlisted⟩ := (mapM_members h).1 record hrecord
    obtain ⟨hname, hvalid⟩ := listed_name hlisted
    rwa [hname]

theorem listedPooler_isOk {r : PoolerRow} (h : r ∈ T.poolers) :
    (T.listedPooler json r.name).isOk = true ↔ r.Readable json := by
  unfold listedPooler PoolerId.new PoolerRow.Readable
  by_cases hvalid : validClusterName r.name = true
  · rw [dif_pos hvalid]
    simp only [bind, Except.bind, Except.mapError, requirePooler, pooler, find_pooler h]
    cases hjson : json.pooler r.manifest <;> simp [hvalid]
  · rw [dif_neg hvalid]
    simp [bind, Except.bind, Except.mapError, hvalid]

theorem listedPooler_name {name : String} {record : PoolerRecord}
    (h : T.listedPooler json name = .ok record) :
    record.name = name ∧ validClusterName name = true := by
  unfold listedPooler PoolerId.new at h
  by_cases hvalid : validClusterName name = true
  · rw [dif_pos hvalid] at h
    simp only [bind, Except.bind, Except.mapError, requirePooler, pooler] at h
    cases hfind : T.poolers.find? fun r => r.name = name with
    | none => simp [hfind] at h
    | some r =>
      have hname : r.name = name := by simpa using List.find?_some hfind
      cases hjson : json.pooler r.manifest with
      | error e => simp [hfind, hjson] at h
      | ok m =>
        simp only [hfind, hjson, Except.ok.injEq] at h
        exact ⟨h ▸ hname, hvalid⟩
  · rw [dif_neg hvalid] at h
    simp [bind, Except.bind, Except.mapError] at h

/-- The poolers in front of a cluster are listed under different names, all of them valid. -/
theorem names_of_poolersForCluster {cluster : ClusterId} {records : List PoolerRecord}
    (h : T.poolersForCluster json cluster = .ok records) :
    (records.map PoolerRecord.name).Nodup ∧
      ∀ n ∈ records.map PoolerRecord.name, validClusterName n = true := by
  constructor
  · have hnames := mapM_map (g := PoolerRecord.name) (k := id)
      (fun _ _ hl => (listedPooler_name hl).1) h
    rw [hnames, List.map_id]
    exact (List.mergeSort_perm _ _).nodup_iff.mpr (List.nodup_dedup _)
  · intro n hn
    obtain ⟨record, hrecord, rfl⟩ := List.mem_map.mp hn
    obtain ⟨name, -, hlisted⟩ := (mapM_members h).1 record hrecord
    obtain ⟨hname, hvalid⟩ := listedPooler_name hlisted
    rwa [hname]

theorem listPoolers_isOk :
    (T.listPoolers json).isOk = true ↔ ∀ r ∈ T.poolers, r.Readable json := by
  unfold listPoolers
  rw [mapM_isOk]
  constructor
  · intro h r hr
    exact (listedPooler_isOk hr).mp (h r.name (mem_sorted.mpr (List.mem_map_of_mem hr)))
  · intro h name hname
    obtain ⟨r, hr, rfl⟩ := List.mem_map.mp (mem_sorted.mp hname)
    exact (listedPooler_isOk hr).mpr (h r hr)

theorem instancesOf_isOk {c : ClusterId} :
    (T.instancesOf c).isOk = true ↔ ∀ r ∈ T.instances, r.cluster = c.name → r.Readable := by
  unfold instancesOf instanceRows
  rw [mapM_isOk]
  simp [InstanceRow.Readable, List.mem_filter]

theorem decode_cluster {r : InstanceRow} {rec : InstanceRecord} (h : r.decode = .ok rec) :
    rec.cluster = r.cluster := by
  unfold InstanceRow.decode at h
  simp only [except_bind_eq_ok] at h
  obtain ⟨_, -, _, -, _, -, _, -, h⟩ := h
  rw [← Except.ok.inj h]

/-- The instances read are those of the cluster asked for. -/
theorem cluster_of_mem_instancesOf {c : ClusterId} {recs : List InstanceRecord}
    (h : T.instancesOf c = .ok recs) {rec : InstanceRecord} (hrec : rec ∈ recs) :
    rec.cluster = c.name := by
  obtain ⟨r, hr, hdecode⟩ := (mapM_members h).1 rec hrec
  rw [decode_cluster hdecode]
  have hrow := List.mem_mergeSort.mp hr
  simpa using (List.mem_filter.mp hrow).2

end Tables

end Pgpod
