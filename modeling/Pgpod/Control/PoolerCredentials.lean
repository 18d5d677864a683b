import Pgpod.Control.PoolerAdoption
import Pgpod.Control.Resolved
import Pgpod.Pooler.Config

/-!
# Each pool authenticates against its own cluster

A pool carries its cluster's position; the position names the path at which the
cluster's lookup secret is mounted, once for all of the cluster's pools; the agent
reads that path and keys what it read by the pool's name.  Positions stand for
clusters one to one, and so do paths and secrets.
-/

namespace Pgpod

open Effect

namespace Container

theorem poolerLookupSecret_inj {i j : Nat} (h : poolerLookupSecret i = poolerLookupSecret j) :
    i = j :=
  Text.toString_inj ((String.append_right_inj _).mp h)

theorem poolerLookupSecret_ne_admin (i : Nat) : poolerLookupSecret i ≠ SECRET_POOLER_ADMIN := by
  intro h
  have hfront : "/run/secrets/pgpod-pooler-lookup-".toList <+: (poolerLookupSecret i).toList :=
    ⟨_, String.toList_append.symm⟩
  rw [h] at hfront
  exact absurd hfront (by decide)

end Container

namespace Names

theorem poolerLookupSecret_inj {c d : ClusterId} (h : poolerLookupSecret c = poolerLookupSecret d) :
    c = d :=
  ClusterId.ext ((String.append_right_inj _).mp ((String.append_left_inj _).mp h))

end Names

namespace Control

/-! ## Positions -/

/-- A pool's position is its cluster's in the list. -/
theorem poolsOf_position {inputs : List ClusterPools} {index : Nat} {r : ResolvedPool}
    (h : r ∈ poolsOf index inputs) :
    index ≤ r.clusterIndex ∧
      (inputs[r.clusterIndex - index]?).map ClusterPools.cluster = some r.cluster := by
  induction inputs generalizing index with
  | nil => cases h
  | cons input rest ih =>
    rcases List.mem_append.mp h with h | h
    · obtain ⟨e, -, rfl⟩ := List.mem_map.mp h
      simp
    · obtain ⟨hle, hget⟩ := ih h
      have hpos : r.clusterIndex - index = (r.clusterIndex - (index + 1)) + 1 := by omega
      rw [hpos, List.getElem?_cons_succ]
      exact ⟨by omega, hget⟩

/-- Pools of one position are pools of one cluster. -/
theorem poolsOf_same_cluster {inputs : List ClusterPools} {r s : ResolvedPool}
    (hr : r ∈ poolsOf 0 inputs) (hs : s ∈ poolsOf 0 inputs) (h : r.clusterIndex = s.clusterIndex) :
    r.cluster = s.cluster := by
  have hr := (poolsOf_position hr).2
  rw [h, (poolsOf_position hs).2] at hr
  exact (Option.some.inj hr).symm

/-- What the clusters export is what their pools have. -/
theorem poolsOf_exports (inputs : List ClusterPools) (index : Nat) :
    (poolsOf index inputs).map (fun r => (r.cluster, r.database, r.name)) =
      inputs.flatMap fun i => i.exports.map fun e => (i.cluster, e.1, e.2) := by
  induction inputs generalizing index with
  | nil => rfl
  | cons input rest ih =>
    rw [poolsOf, List.map_append, ih, List.flatMap_cons]
    simp [ClusterPools.poolsAt, Function.comp_def]

theorem poolsOf_all_names (inputs : List ClusterPools) (index : Nat) :
    (poolsOf index inputs).map ResolvedPool.name =
      inputs.flatMap fun i => i.exports.map Prod.snd := by
  have h := congrArg (List.map fun t : String × String × String => t.2.2)
    (poolsOf_exports inputs index)
  simpa [Function.comp_def, List.map_flatMap] using h

/-! ## Mounts -/

/-- What is mounted at a path. -/
def mountAt (path : String) (mounts : List SecretMount) : Option SecretMount :=
  mounts.find? fun m => m.target = path

theorem mountAt_cons {path : String} {m : SecretMount} (h : m.target = path)
    (mounts : List SecretMount) : mountAt path (m :: mounts) = some m :=
  List.find?_cons_of_pos (decide_eq_true h)

theorem mountAt_cons_of_ne {path : String} {m : SecretMount} (h : m.target ≠ path)
    (mounts : List SecretMount) : mountAt path (m :: mounts) = mountAt path mounts :=
  List.find?_cons_of_neg (by simpa using h)

theorem World.mountsOf_get {w : World} {c : ContainerSpec} {mounts : String → Option String}
    (h : w.mountsOf c = some mounts) (path : String) :
    mounts path = (mountAt path c.secrets).bind fun m => w.secrets m.name := by
  unfold World.mountsOf at h
  split at h
  · obtain rfl := Option.some.inj h
    rfl
  · cases h

/-- The first mount at a target's path is of its cluster's secret. -/
theorem lookupMounts_find {uid gid : UInt32} {mounted : List Nat} {targets : List PoolTarget}
    {mounts : List SecretMount} {t : PoolTarget}
    (hsame : ∀ s ∈ targets, ∀ t ∈ targets, s.lookupSecretIndex = t.lookupSecretIndex →
      s.cluster = t.cluster)
    (h : lookupMounts uid gid mounted targets = .ok mounts) (ht : t ∈ targets)
    (hnew : t.lookupSecretIndex ∉ mounted) :
    ∃ cluster : ClusterId, cluster.name = t.cluster ∧
      mountAt (Container.poolerLookupSecret t.lookupSecretIndex) mounts =
        some (secretMount uid gid (Names.poolerLookupSecret cluster,
          Container.poolerLookupSecret t.lookupSecretIndex)) := by
  induction targets generalizing mounted mounts with
  | nil => cases ht
  | cons s rest ih =>
    have hrest : ∀ s ∈ rest, ∀ t ∈ rest, s.lookupSecretIndex = t.lookupSecretIndex →
        s.cluster = t.cluster :=
      fun s hs t ht => hsame s (List.mem_cons_of_mem _ hs) t (List.mem_cons_of_mem _ ht)
    rw [lookupMounts] at h
    by_cases hs : s.lookupSecretIndex ∈ mounted
    · rw [if_pos hs] at h
      rcases List.mem_cons.mp ht with rfl | ht
      · exact absurd hs hnew
      · exact ih hrest h ht hnew
    · rw [if_neg hs] at h
      simp only [except_bind_eq_ok, except_mapError_eq_ok, ClusterId.new_eq_ok, pure, Except.pure,
        Except.ok.injEq] at h
      obtain ⟨cluster, hcluster, more, hmore, rfl⟩ := h
      by_cases hindex : s.lookupSecretIndex = t.lookupSecretIndex
      · refine ⟨cluster, hcluster.trans (hsame s List.mem_cons_self t ht hindex), ?_⟩
        rw [← hindex]
        exact mountAt_cons rfl _
      · have hpath : Container.poolerLookupSecret s.lookupSecretIndex ≠
            Container.poolerLookupSecret t.lookupSecretIndex :=
          fun heq => hindex (Container.poolerLookupSecret_inj heq)
        have ht : t ∈ rest := (List.mem_cons.mp ht).resolve_left fun heq => hindex (heq ▸ rfl)
        have hnew : t.lookupSecretIndex ∉ s.lookupSecretIndex :: mounted := by
          rw [List.mem_cons, not_or]
          exact ⟨Ne.symm hindex, hnew⟩
        obtain ⟨id, hid, hfind⟩ := ih hrest hmore ht hnew
        exact ⟨id, hid, (mountAt_cons_of_ne hpath _).trans hfind⟩

/-! ## End to end -/

/-- The pool is its cluster's: at instance 1, on the database it was declared for, with the
password its cluster's lookup secret holds, less the line ends it ends with. -/
structure Belongs (w : World) (cluster : ClusterId) (r : ResolvedPool) (pool : Pooler.Pool) :
    Prop where
  mine : cluster.name = r.cluster
  host : pool.serverHost = (cluster.inst 1).containerName
  database : pool.serverDatabase = r.database
  password : ∃ content, w.secrets (Names.poolerLookupSecret cluster) = some content ∧
    pool.authQuery.password = Pooler.trimLineEnds content ∧
    ((∀ c, content.toList.getLast? = some c → Pooler.isLineEnd c = false) →
      pool.authQuery.password = content)

/-- The stages from a manifest's clusters to a configuration that went through: the pools resolve,
the container is made with its secrets mounted, and its agent renders the configuration. -/
structure Configured (w : World) (codec : PoolerCodec) (yaml : Pooler.Yaml) (m : PoolerManifest)
    (pooler : PoolerId) (inputs : List ClusterPools) (resolved : List ResolvedPool) (k : Container)
    (config : Pooler.DoormanConfig yaml.Value) (text : String) : Prop where
  resolves : resolvePools inputs = .ok resolved
  made : ∃ targets agent hostPort, poolTargets resolved = .ok targets ∧
    poolerContainerSpec codec m (poolerSpec m pooler targets) agent hostPort
      (Names.poolerAdminSecret pooler) = .ok k.spec ∧
    codec.fromJson (codec.toJson (poolerSpec m pooler targets)) = .ok (poolerSpec m pooler targets)
  mounted : w.mountsOf k.spec = some k.mounts
  renders : Pooler.Renders codec yaml k.env k.mounts config text

theorem resolves_iff (inputs : List ClusterPools) :
    (∃ resolved, resolvePools inputs = .ok resolved) ↔
      (∀ i ∈ inputs, i.declared = [] → i.defaultDatabase.isSome = true) ∧
        (inputs.flatMap fun i => i.exports.map Prod.snd).Nodup := by
  rw [← poolsOf_all_names inputs 0]
  constructor
  · rintro ⟨resolved, h⟩
    obtain ⟨hall, hnodup, -⟩ := resolvePools_eq_ok.mp h
    exact ⟨hall, hnodup⟩
  · rintro ⟨hall, hnodup⟩
    exact ⟨_, resolvePools_eq_ok.mpr ⟨hall, hnodup, rfl⟩⟩

/-- The agent reads the spec that the container was made with. -/
theorem specFromEnv_made {codec : PoolerCodec} {m : PoolerManifest} {spec : PoolerSpec}
    {agent : String} {hostPort : UInt16} {adminSecret : String} {k : Container}
    (hmade : poolerContainerSpec codec m spec agent hostPort adminSecret = .ok k.spec)
    (hjson : codec.fromJson (codec.toJson spec) = .ok spec) :
    Pooler.specFromEnv codec k.env = .ok spec := by
  obtain ⟨-, networks, lookups, -, -, hspec⟩ := poolerContainerSpec_eq_ok.mp hmade
  have hget : k.env POOLER_SPEC_ENV = some (codec.toJson spec) := by
    simp [Container.env, hspec, assemblePooler]
  rw [Pooler.specFromEnv, hget]
  exact except_mapError_eq_ok.mpr hjson

/-- What is mounted where the agent looks for a pool's password. -/
theorem mounted_lookup {w : World} {codec : PoolerCodec} {m : PoolerManifest} {pooler : PoolerId}
    {inputs : List ClusterPools} {targets : List PoolTarget} {agent : String} {hostPort : UInt16}
    {adminSecret : String} {c : ContainerSpec} {mounts : String → Option String}
    (htargets : poolTargets (poolsOf 0 inputs) = .ok targets)
    (hmade : poolerContainerSpec codec m (poolerSpec m pooler targets) agent hostPort adminSecret =
      .ok c)
    (hmounts : w.mountsOf c = some mounts) {r : ResolvedPool} (hr : r ∈ poolsOf 0 inputs)
    {cluster : ClusterId} (hcluster : cluster.name = r.cluster) :
    mounts (Container.poolerLookupSecret r.clusterIndex) =
      w.secrets (Names.poolerLookupSecret cluster) := by
  obtain ⟨hto, hfrom⟩ := targets_mem (poolTargets_eq_ok.mp htargets)
  have hsame : ∀ s ∈ targets, ∀ t ∈ targets, s.lookupSecretIndex = t.lookupSecretIndex →
      s.cluster = t.cluster := by
    intro s hs t ht hindex
    obtain ⟨r, hr, hrs⟩ := hfrom s hs
    obtain ⟨q, hq, hqt⟩ := hfrom t ht
    obtain ⟨_, -, rfl⟩ := poolTarget_eq_ok.mp hrs
    obtain ⟨_, -, rfl⟩ := poolTarget_eq_ok.mp hqt
    exact poolsOf_same_cluster hr hq hindex
  obtain ⟨t, ht, hrt⟩ := hto r hr
  obtain ⟨_, -, rfl⟩ := poolTarget_eq_ok.mp hrt
  obtain ⟨-, networks, lookups, -, hlookups, rfl⟩ := poolerContainerSpec_eq_ok.mp hmade
  obtain ⟨id, hid, hfind⟩ := lookupMounts_find hsame hlookups ht List.not_mem_nil
  obtain rfl : id = cluster := ClusterId.ext (hid.trans hcluster.symm)
  -- the admin secret is mounted elsewhere
  have hadmin : Container.SECRET_POOLER_ADMIN ≠ Container.poolerLookupSecret r.clusterIndex :=
    (Container.poolerLookupSecret_ne_admin _).symm
  have hfound : mountAt (Container.poolerLookupSecret r.clusterIndex) (assemblePooler codec m
      (poolerSpec m pooler targets) agent hostPort adminSecret networks lookups).secrets =
      some (secretMount m.spec.poolerUid m.spec.poolerGid (Names.poolerLookupSecret id,
        Container.poolerLookupSecret r.clusterIndex)) :=
    (mountAt_cons_of_ne hadmin _).trans hfind
  rw [World.mountsOf_get hmounts, hfound]
  rfl

/-- **Every pool authenticates against its own cluster**: pools resolve exactly when every cluster
has something to export and no name comes twice; and whatever they resolve to, a configuration that
the agent renders has one pool for each, under its name, with its own cluster's first instance, its
database and its own cluster's credential, which is no other cluster's. -/
theorem rendered_pools_belong (m : AcceptedPoolerManifest) (R : Registry) :
    let inputs := inputsOf R m.manifest.spec.clusters
    ((∃ resolved, resolvePools inputs = .ok resolved) ↔
      (∀ i ∈ inputs, i.declared = [] → i.defaultDatabase.isSome = true) ∧
        (inputs.flatMap fun i => i.exports.map Prod.snd).Nodup) ∧
    ∀ w codec yaml pooler resolved k config text,
      Configured w codec yaml m.manifest pooler inputs resolved k config text →
        config.pools.size = resolved.length ∧
        (∀ name, name ∈ config.pools ↔ name ∈ resolved.map ResolvedPool.name) ∧
        (resolved.map (fun r => (r.cluster, r.database, r.name)) =
          inputs.flatMap fun i => i.exports.map fun e => (i.cluster, e.1, e.2)) ∧
        (∀ r ∈ resolved, ∃ cluster pool, config.pools[r.name]? = some pool ∧
          Belongs w cluster r pool) ∧
        ∀ c d : ClusterId, Names.poolerLookupSecret c = Names.poolerLookupSecret d → c = d := by
  intro inputs
  refine ⟨resolves_iff inputs, fun w codec yaml pooler resolved k config text h => ?_⟩
  obtain ⟨hresolves, ⟨targets, agent, hostPort, htargets, hmade, hjson⟩, hmounted, hrenders⟩ := h
  obtain ⟨-, -, rfl⟩ := resolvePools_eq_ok.mp hresolves
  obtain ⟨hsize, hnames, hpools⟩ := hrenders.pools (specFromEnv_made hmade hjson)
  have hforall := poolTargets_eq_ok.mp htargets
  refine ⟨hsize.trans hforall.length_eq.symm, fun name => ?_, poolsOf_exports _ _,
    fun r hr => ?_, fun c d => Names.poolerLookupSecret_inj⟩
  · rw [hnames, ← targets_all_names hforall]
    rfl
  · obtain ⟨t, ht, hrt⟩ := (targets_mem hforall).1 r hr
    obtain ⟨cluster, hcluster, rfl⟩ := poolTarget_eq_ok.mp hrt
    obtain ⟨content, hcontent, hpool⟩ := hpools _ ht
    refine ⟨cluster, _, hpool, hcluster, rfl, rfl, content, ?_, rfl, Pooler.trimLineEnds_eq_self⟩
    rw [← mounted_lookup htargets hmade hmounted hr hcluster]
    exact hcontent

/-! ## A secret that ends in a newline -/

namespace CredentialSample

open Pooler

/-- Plain values, written the way the crate writes them. -/
def yaml : Yaml where
  Value := String
  parse := .ok
  string := id
  write config := .ok <| Text.unlines <|
    ["general:", "  host: " ++ config.general.host, "  port: " ++ toString config.general.port.toNat,
      "  admin_username: " ++ config.general.adminUsername,
      "  admin_password: " ++ config.general.adminPassword,
      "  query_wait_timeout: " ++ config.general.queryWaitTimeout] ++
    config.general.extra.toList.map (fun (k, v) => "  " ++ k ++ ": " ++ v) ++
    "pools:" :: config.pools.toList.flatMap fun (name, pool) =>
      ["  " ++ name ++ ":", "    server_host: " ++ pool.serverHost,
        "    server_port: " ++ toString pool.serverPort.toNat,
        "    server_database: " ++ pool.serverDatabase, "    pool_mode: " ++ pool.poolMode,
        "    auth_query:", "      query: " ++ pool.authQuery.query,
        "      user: " ++ pool.authQuery.user, "      password: " ++ pool.authQuery.password,
        "      database: " ++ pool.authQuery.database,
        "      pool_size: " ++ toString pool.authQuery.poolSize.toNat,
        "      cache_ttl: " ++ pool.authQuery.cacheTtl]

/-- A host on which every secret holds this text. -/
def world (content : String) : World := { PoolerSample.world with secrets := fun _ => some content }

/-- The pooler's container, made on that host. -/
def container (content : String) : Container :=
  { PoolerSample.container with
    mounts := fun path => (mountAt path PoolerSample.container.spec.secrets).bind fun _ => content }

def config (password : String) : DoormanConfig String where
  general :=
    { host := "0.0.0.0"
      port := 6432
      adminUsername := "pgpod_admin"
      adminPassword := password
      queryWaitTimeout := "1m"
      extra := ∅ }
  pools := (∅ : Std.TreeMap String Pool).insert "app" (pool PoolerSample.spec
    ((⟨"mydb", 0, "app", "app"⟩ : ResolvedPool).target ⟨"mydb", mydb_valid⟩) password)

def accepted : AcceptedPoolerManifest := ⟨PoolerSample.manifest 6432, by decide +kernel⟩

/-- What the agent reads and renders there, the secret's text and the password in it given. -/
theorem renders {content password : String} (hread : trimLineEnds content = password)
    (hne : password ≠ "") : ∃ text, Renders PoolerSample.codec yaml (container content).env
      (container content).mounts (config password) text := by
  have hmount : ∀ path, (mountAt path PoolerSample.container.spec.secrets).isSome = true →
      readSecret (container content).mounts path = .ok password := by
    intro path hpath
    obtain ⟨m, hm⟩ := Option.isSome_iff_exists.mp hpath
    refine readSecret_eq_ok.mpr ⟨content, ?_, hread.symm, hne⟩
    change (mountAt path PoolerSample.container.spec.secrets).bind _ = some content
    rw [hm]
    rfl
  have hsecrets : readSecrets (container content).mounts PoolerSample.spec =
      .ok ⟨password, (∅ : Std.TreeMap String String).insert "app" password⟩ := by
    have hadmin := hmount Container.SECRET_POOLER_ADMIN (by decide)
    have hlookup := hmount (Container.poolerLookupSecret 0) (by decide)
    simp only [readSecrets, hadmin, PoolerSample.spec, collect, readLookup, hlookup, bind,
      Except.bind, pure, Except.pure]
  have henv : specFromEnv PoolerSample.codec (container content).env = .ok PoolerSample.spec :=
    specFromEnv_made (k := container content) PoolerSample.container_made PoolerSample.spec_json
  have hvalid : PoolerSample.spec.validate = .ok () := by decide +kernel
  refine ⟨_, _, _, henv, hsecrets, ?_, rfl⟩
  simp only [doormanConfig, bind, Except.bind, Except.mapError, hvalid]
  rfl

/-- The stages on that host. -/
theorem configured {content password : String} (hread : trimLineEnds content = password)
    (hne : password ≠ "") :
    ∃ text, Configured (world content) PoolerSample.codec yaml accepted.manifest PoolerSample.front
      (inputsOf PoolerSample.world.registry accepted.manifest.spec.clusters)
      [⟨"mydb", 0, "app", "app"⟩] (container content) (config password) text := by
  obtain ⟨text, hrenders⟩ := renders hread hne
  exact ⟨text,
    { resolves := by rfl
      made := ⟨PoolerSample.spec.pools, minimalHost.agentBinary, 6432, by rfl,
        PoolerSample.container_made, PoolerSample.spec_json⟩
      mounted := if_pos (List.all_eq_true.mpr fun _ _ => rfl)
      renders := hrenders }⟩

/-- On a host whose secret ends in no newline, `app` is rendered with `mydb`'s credential. -/
theorem rendered_app_belongs :
    ∃ cluster pool, (config "s3cr3t").pools["app"]? = some pool ∧
      Belongs (world "s3cr3t") cluster ⟨"mydb", 0, "app", "app"⟩ pool := by
  obtain ⟨text, h⟩ := configured (by decide : trimLineEnds "s3cr3t" = "s3cr3t") (by decide)
  obtain ⟨-, hall⟩ := rendered_pools_belong accepted PoolerSample.world.registry
  exact (hall _ _ _ _ _ _ _ _ h).2.2.2.1 _ List.mem_cons_self

/-- **A newline at the end of a secret is not rendered**: the password is not the secret's content. -/
theorem secret_newline_is_dropped :
    ∃ text, Configured (world "s3cr3t\n") PoolerSample.codec yaml accepted.manifest
        PoolerSample.front (inputsOf PoolerSample.world.registry accepted.manifest.spec.clusters)
        [⟨"mydb", 0, "app", "app"⟩] (container "s3cr3t\n") (config "s3cr3t") text ∧
      (world "s3cr3t\n").secrets "pgpod-mydb-pooler" = some "s3cr3t\n" ∧
      ∀ pool, (config "s3cr3t").pools["app"]? = some pool → pool.authQuery.password ≠ "s3cr3t\n" := by
  obtain ⟨text, h⟩ := configured (by decide : trimLineEnds "s3cr3t\n" = "s3cr3t") (by decide)
  refine ⟨text, h, rfl, fun pool hpool => ?_⟩
  obtain rfl := Option.some.inj ((Std.TreeMap.getElem?_insert_self).symm.trans hpool)
  exact fun heq => absurd heq (by decide : ("s3cr3t" : String) ≠ "s3cr3t\n")

end CredentialSample

end Control

end Pgpod
