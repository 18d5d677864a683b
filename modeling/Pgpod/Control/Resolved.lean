import Pgpod.Control.PoolerApply

/-!
# What a pooler's clusters resolve to

`resolvePools` walks the clusters in order with the names claimed so far.  It
succeeds when every cluster has something to export and no name is claimed twice;
the pools are then those of each cluster in turn, with its position.
-/

namespace Pgpod

open Effect

namespace Control

namespace ClusterPools

/-- The databases the cluster exports, each with the name of its pool. -/
def exports (input : ClusterPools) : List (String × String) :=
  if input.declared.isEmpty then input.defaultDatabase.toList.map fun d => (d, d)
  else input.declared.map fun p => (p.database, p.poolName)

/-- The cluster declares pools, or has an application database. -/
def HasPool (input : ClusterPools) : Prop :=
  input.declared = [] → input.defaultDatabase.isSome = true

instance (input : ClusterPools) : Decidable input.HasPool :=
  inferInstanceAs (Decidable (_ → _))

/-- The cluster's pools, when it stands at this position. -/
def poolsAt (input : ClusterPools) (index : Nat) : List ResolvedPool :=
  input.exports.map fun e => ⟨input.cluster, index, e.1, e.2⟩

end ClusterPools

/-- The pools of a list of clusters that starts at this position. -/
def poolsOf : Nat → List ClusterPools → List ResolvedPool
  | _, [] => []
  | index, input :: rest => input.poolsAt index ++ poolsOf (index + 1) rest

/-- The names of the pools of one cluster. -/
def poolNames (inputs : List ClusterPools) (cluster : String) : List String :=
  (inputs.filter fun i => i.cluster = cluster).flatMap fun i => i.exports.map Prod.snd

theorem exported_eq_ok {input : ClusterPools} {pools : List (String × String)} :
    exported input = .ok pools ↔ input.HasPool ∧ pools = input.exports := by
  unfold exported ClusterPools.HasPool ClusterPools.exports
  cases hdeclared : input.declared with
  | nil =>
    cases hdefault : input.defaultDatabase with
    | none => simp
    | some database =>
      simp only [List.isEmpty_nil, if_true, Except.ok.injEq, Option.isSome_some, imp_self, true_and,
        Option.toList_some, List.map_cons, List.map_nil]
      exact eq_comm
  | cons p rest =>
    simp only [List.isEmpty_cons, Bool.false_eq_true, if_false, Except.ok.injEq, reduceCtorEq,
      false_imp_iff, true_and]
    exact eq_comm

/-- The claims of one cluster. -/
def ClusterPools.claims (input : ClusterPools) (pools : List (String × String)) : List Claim :=
  pools.map fun e => ⟨e.2, input.cluster, input.declared.isEmpty⟩

/-- The claims a cluster makes are new, and are added to those already there. -/
theorem claimEach_eq_ok {input : ClusterPools} {index : Nat} {claimed : List Claim}
    {pools : List (String × String)} {r : List Claim × List ResolvedPool} :
    claimEach input index claimed pools = .ok r ↔
      (pools.map Prod.snd).Nodup ∧ (∀ n ∈ pools.map Prod.snd, n ∉ claimed.map Claim.name) ∧
        r = ((input.claims pools).reverse ++ claimed,
          pools.map fun e => ⟨input.cluster, index, e.1, e.2⟩) := by
  induction pools generalizing claimed r with
  | nil =>
    simp only [claimEach, Except.ok.injEq, List.map_nil, List.nodup_nil, List.not_mem_nil,
      false_imp_iff, implies_true, true_and, ClusterPools.claims, List.reverse_nil, List.nil_append]
    exact eq_comm
  | cons e rest ih =>
    obtain ⟨database, name⟩ := e
    rw [claimEach]
    cases hfind : claimed.find? fun c => c.name = name with
    | some other =>
      have hmem : name ∈ claimed.map Claim.name := by
        refine List.mem_map.mpr ⟨other, List.mem_of_find?_eq_some hfind, ?_⟩
        simpa using List.find?_some hfind
      simp only [reduceCtorEq, List.map_cons, false_iff]
      rintro ⟨-, hfresh, -⟩
      exact hfresh name List.mem_cons_self hmem
    | none =>
      have hnew : name ∉ claimed.map Claim.name := by
        intro hmem
        obtain ⟨c, hc, hname⟩ := List.mem_map.mp hmem
        exact absurd hname (by simpa using List.find?_eq_none.mp hfind c hc)
      simp only [except_bind_eq_ok, ih, pure, Except.pure, Except.ok.injEq, List.map_cons,
        List.nodup_cons, List.mem_cons, not_or, forall_eq_or_imp]
      constructor
      · rintro ⟨_, ⟨hnodup, hfresh, rfl⟩, rfl⟩
        refine ⟨⟨fun h => (hfresh name h).1 rfl, hnodup⟩, ⟨hnew, fun n hn => (hfresh n hn).2⟩, ?_⟩
        simp [ClusterPools.claims]
      · rintro ⟨⟨hname, hnodup⟩, ⟨-, hfresh⟩, rfl⟩
        refine ⟨_, ⟨hnodup, fun n hn => ⟨?_, hfresh n hn⟩, rfl⟩, by simp [ClusterPools.claims]⟩
        rintro rfl
        exact hname hn

theorem ClusterPools.poolsAt_names (input : ClusterPools) (index : Nat) :
    (input.poolsAt index).map ResolvedPool.name = input.exports.map Prod.snd := by
  simp [ClusterPools.poolsAt, Function.comp_def]

theorem resolveFrom_eq_ok {index : Nat} {claimed : List Claim} {inputs : List ClusterPools}
    {resolved : List ResolvedPool} :
    resolveFrom index claimed inputs = .ok resolved ↔ (∀ i ∈ inputs, i.HasPool) ∧
      ((poolsOf index inputs).map ResolvedPool.name).Nodup ∧
      (∀ n ∈ (poolsOf index inputs).map ResolvedPool.name, n ∉ claimed.map Claim.name) ∧
      resolved = poolsOf index inputs := by
  induction inputs generalizing index claimed resolved with
  | nil =>
    simp only [resolveFrom, poolsOf, Except.ok.injEq, List.not_mem_nil, false_imp_iff,
      implies_true, List.map_nil, List.nodup_nil, true_and]
    exact eq_comm
  | cons input rest ih =>
    have hclaims : ∀ pools, (input.claims pools).map Claim.name = pools.map Prod.snd := by
      simp [ClusterPools.claims, Function.comp_def]
    rw [resolveFrom]
    simp only [except_bind_eq_ok, exported_eq_ok, claimEach_eq_ok, ih, pure, Except.pure,
      Except.ok.injEq, poolsOf, List.map_append, input.poolsAt_names, List.forall_mem_cons,
      List.nodup_append', List.forall_mem_append]
    constructor
    · rintro ⟨pools, ⟨hhas, rfl⟩, _, ⟨hnodup, hfresh, rfl⟩, _, ⟨hall, hrest, hothers, rfl⟩, rfl⟩
      simp only [List.map_append, List.map_reverse, hclaims, List.mem_append, List.mem_reverse,
        not_or] at hothers
      exact ⟨⟨hhas, hall⟩, ⟨hnodup, hrest, fun n hn h => (hothers n h).1 hn⟩,
        ⟨hfresh, fun n hn => (hothers n hn).2⟩, rfl⟩
    · rintro ⟨⟨hhas, hall⟩, ⟨hnodup, hrest, hdisj⟩, ⟨hfresh, hothers⟩, rfl⟩
      refine ⟨_, ⟨hhas, rfl⟩, _, ⟨hnodup, hfresh, rfl⟩, _, ⟨hall, hrest, ?_, rfl⟩, rfl⟩
      intro n hn
      simp only [List.map_append, List.map_reverse, hclaims, List.mem_append, List.mem_reverse,
        not_or]
      exact ⟨fun h => hdisj h hn, hothers n hn⟩

/-- **When the pools resolve, and to what.** -/
theorem resolvePools_eq_ok {inputs : List ClusterPools} {resolved : List ResolvedPool} :
    resolvePools inputs = .ok resolved ↔ (∀ i ∈ inputs, i.HasPool) ∧
      ((poolsOf 0 inputs).map ResolvedPool.name).Nodup ∧ resolved = poolsOf 0 inputs := by
  simp [resolvePools, resolveFrom_eq_ok]

/-! ## Targets -/

/-- The target of a pool, its cluster's name parsed. -/
def ResolvedPool.target (r : ResolvedPool) (cluster : ClusterId) : PoolTarget where
  name := r.name
  cluster := r.cluster
  serverHost := (cluster.inst 1).containerName
  database := r.database
  lookupRole := POOLER_ROLE
  lookupSecretIndex := r.clusterIndex

theorem poolTarget_eq_ok {r : ResolvedPool} {t : PoolTarget} :
    poolTarget r = .ok t ↔ ∃ cluster : ClusterId, cluster.name = r.cluster ∧ t = r.target cluster := by
  simp only [poolTarget, except_bind_eq_ok, except_mapError_eq_ok, ClusterId.new_eq_ok, pure,
    Except.pure, Except.ok.injEq, @eq_comm _ _ t]
  rfl

theorem poolTargets_eq_ok {resolved : List ResolvedPool} {targets : List PoolTarget} :
    poolTargets resolved = .ok targets ↔
      List.Forall₂ (fun r t => poolTarget r = .ok t) resolved targets := by
  induction resolved generalizing targets with
  | nil =>
    simp only [poolTargets, Except.ok.injEq, List.forall₂_nil_left_iff]
    exact eq_comm
  | cons r rest ih =>
    simp only [poolTargets, except_bind_eq_ok, pure, Except.pure, Except.ok.injEq,
      List.forall₂_cons_left_iff, ih]
    constructor
    · rintro ⟨t, ht, ts, hts, rfl⟩
      exact ⟨t, ts, ht, hts, rfl⟩
    · rintro ⟨t, ts, ht, hts, rfl⟩
      exact ⟨t, ht, ts, hts, rfl⟩

/-- Every pool has its target, and every target its pool. -/
theorem targets_mem {resolved : List ResolvedPool} {targets : List PoolTarget}
    (h : List.Forall₂ (fun r t => poolTarget r = .ok t) resolved targets) :
    (∀ r ∈ resolved, ∃ t ∈ targets, poolTarget r = .ok t) ∧
      ∀ t ∈ targets, ∃ r ∈ resolved, poolTarget r = .ok t := by
  induction h with
  | nil => simp
  | cons htarget _ ih =>
    simp only [List.forall_mem_cons, List.exists_mem_cons_iff]
    exact ⟨⟨.inl htarget, fun r hr => .inr (ih.1 r hr)⟩,
      .inl htarget, fun t ht => .inr (ih.2 t ht)⟩

theorem targets_all_names {resolved : List ResolvedPool} {targets : List PoolTarget}
    (h : List.Forall₂ (fun r t => poolTarget r = .ok t) resolved targets) :
    targets.map PoolTarget.name = resolved.map ResolvedPool.name := by
  induction h with
  | nil => rfl
  | cons htarget _ ih =>
    obtain ⟨_, -, rfl⟩ := poolTarget_eq_ok.mp htarget
    rw [List.map_cons, List.map_cons, ih]
    rfl

/-- **Inversion of `poolsFrom`**. -/
theorem poolsFrom_eq_ok {inputs : List ClusterPools} {r : List PoolTarget × List PoolerPool} :
    poolsFrom inputs = .ok r ↔ (∀ i ∈ inputs, i.HasPool) ∧
      ((poolsOf 0 inputs).map ResolvedPool.name).Nodup ∧
      List.Forall₂ (fun r t => poolTarget r = .ok t) (poolsOf 0 inputs) r.1 ∧
      r.2 = (poolsOf 0 inputs).map poolRow := by
  simp only [poolsFrom, except_bind_eq_ok, except_mapError_eq_ok, resolvePools_eq_ok,
    poolTargets_eq_ok, pure, Except.pure, Except.ok.injEq]
  constructor
  · rintro ⟨_, ⟨hall, hnodup, rfl⟩, targets, htargets, rfl⟩
    exact ⟨hall, hnodup, htargets, rfl⟩
  · rintro ⟨hall, hnodup, htargets, hrows⟩
    exact ⟨_, ⟨hall, hnodup, rfl⟩, _, htargets, Prod.ext rfl hrows.symm⟩

/-! ## The pools of one cluster -/

theorem poolsOf_names (inputs : List ClusterPools) (index : Nat) (cluster : String) :
    ((poolsOf index inputs).filter fun p => p.cluster = cluster).map ResolvedPool.name =
      poolNames inputs cluster := by
  induction inputs generalizing index with
  | nil => rfl
  | cons input rest ih =>
    rw [poolsOf, List.filter_append, List.map_append, ih, poolNames, poolNames, List.filter_cons]
    have hpool : ∀ p ∈ input.poolsAt index, p.cluster = input.cluster := by
      intro p hp
      obtain ⟨e, -, rfl⟩ := List.mem_map.mp hp
      rfl
    by_cases hcluster : input.cluster = cluster
    · rw [List.filter_eq_self.mpr fun p hp => by simp [hpool p hp, hcluster], input.poolsAt_names]
      simp [hcluster]
    · rw [List.filter_eq_nil_iff.mpr fun p hp => by simp [hpool p hp, hcluster]]
      simp [hcluster]

theorem targets_names {resolved : List ResolvedPool} {targets : List PoolTarget}
    (h : List.Forall₂ (fun r t => poolTarget r = .ok t) resolved targets) (cluster : String) :
    (targets.filter fun t => t.cluster = cluster).map PoolTarget.name =
      (resolved.filter fun p => p.cluster = cluster).map ResolvedPool.name := by
  induction h with
  | nil => rfl
  | cons htarget _ ih =>
    obtain ⟨id, -, rfl⟩ := poolTarget_eq_ok.mp htarget
    rw [List.filter_cons, List.filter_cons, apply_ite (List.map _), apply_ite (List.map _),
      List.map_cons, List.map_cons, ih]
    rfl

/-- A spec has for a cluster the names that the cluster exports. -/
theorem poolsFor_eq {m : PoolerManifest} {pooler : PoolerId} {inputs : List ClusterPools}
    {targets : List PoolTarget} {rows : List PoolerPool}
    (h : poolsFrom inputs = .ok (targets, rows)) (cluster : String) :
    (poolerSpec m pooler targets).poolsFor cluster = poolNames inputs cluster := by
  rw [← poolsOf_names inputs 0, ← targets_names (poolsFrom_eq_ok.mp h).2.2.1]
  rfl

end Control

end Pgpod
