import Pgpod.Control.PoolerApply

/-!
# pg_doorman's configuration

Before it starts pg_doorman, the agent of a pooler reads its spec from the
environment and the mounted passwords from their files, and renders the
configuration: a `general` section, and the pools in an ordered map keyed by the
names that clients see.  The YAML is a third-party crate's.
-/

namespace Pgpod

open Effect

namespace Container

def POOLER_ADMIN_USER : String := "pgpod_admin"

end Container

namespace Pooler

/-! ## Filling a map -/

section Collect

variable {α β ε : Type} {key : α → String} {f : α → Except ε β}

/-- Insert what each item gives under the item's key, until one fails. -/
def collect (key : α → String) (f : α → Except ε β) (m : Std.TreeMap String β) :
    List α → Except ε (Std.TreeMap String β)
  | [] => .ok m
  | x :: xs => do
    let b ← f x
    collect key f (m.insert (key x) b) xs

/-- Under distinct keys, each item's value is found under its key, and nothing else is new. -/
theorem collect_get {xs : List α} (hnodup : (xs.map key).Nodup) {m m' : Std.TreeMap String β}
    (h : collect key f m xs = .ok m') :
    (∀ x ∈ xs, ∃ b, f x = .ok b ∧ m'[key x]? = some b) ∧
      ∀ k, k ∉ xs.map key → m'[k]? = m[k]? := by
  induction xs generalizing m with
  | nil =>
    obtain rfl := Except.ok.inj h
    exact ⟨by simp, fun _ _ => rfl⟩
  | cons x xs ih =>
    rw [List.map_cons, List.nodup_cons] at hnodup
    obtain ⟨b, hb, hrest⟩ := except_bind_eq_ok.mp h
    obtain ⟨hfound, hkept⟩ := ih hnodup.2 hrest
    refine ⟨List.forall_mem_cons.mpr ⟨⟨b, hb, ?_⟩, hfound⟩, fun k hk => ?_⟩
    · rw [hkept _ hnodup.1, Std.TreeMap.getElem?_insert_self]
    · rw [List.map_cons, List.mem_cons, not_or] at hk
      rw [hkept k hk.2, Std.TreeMap.getElem?_insert, if_neg]
      exact fun heq => hk.1 (Std.LawfulEqOrd.eq_of_compare heq).symm

/-- Under distinct keys that are new, as many entries are added as there are items. -/
theorem collect_size {xs : List α} (hnodup : (xs.map key).Nodup) {m m' : Std.TreeMap String β}
    (hnew : ∀ x ∈ xs, key x ∉ m) (h : collect key f m xs = .ok m') :
    m'.size = m.size + xs.length := by
  induction xs generalizing m with
  | nil =>
    obtain rfl := Except.ok.inj h
    rfl
  | cons x xs ih =>
    rw [List.map_cons, List.nodup_cons] at hnodup
    obtain ⟨b, -, hrest⟩ := except_bind_eq_ok.mp h
    have hnew' : ∀ y ∈ xs, key y ∉ m.insert (key x) b := by
      intro y hy hmem
      rcases Std.TreeMap.mem_insert.mp hmem with heq | hmem
      · have hkey : key x = key y := Std.LawfulEqOrd.eq_of_compare heq
        exact hnodup.1 (hkey ▸ List.mem_map_of_mem hy)
      · exact hnew y (List.mem_cons_of_mem _ hy) hmem
    have hnot : ¬ m.contains (key x) = true := hnew x List.mem_cons_self
    rw [ih hnodup.2 hnew' hrest, Std.TreeMap.size_insert, if_neg hnot, List.length_cons]
    omega

end Collect

/-! ## The rendered configuration -/

/-- The passwords the agent reads from the mounted secrets. -/
structure Secrets where
  adminPassword : String
  /-- The lookup role's password, by pool name. -/
  lookupPasswords : Std.TreeMap String String

structure AuthQuery where
  query : String
  user : String
  password : String
  database : String
  poolSize : UInt32
  cacheTtl : String
deriving DecidableEq

structure Pool where
  serverHost : String
  serverPort : UInt16
  serverDatabase : String
  poolMode : String
  authQuery : AuthQuery
deriving DecidableEq

structure General (Value : Type) where
  host : String
  port : UInt16
  adminUsername : String
  adminPassword : String
  queryWaitTimeout : String
  extra : Std.TreeMap String Value

structure DoormanConfig (Value : Type) where
  general : General Value
  pools : Std.TreeMap String Pool

/-- YAML as the third-party crate reads a value and writes a document. -/
structure Yaml where
  Value : Type
  parse : String → Except String Value
  string : String → Value
  write : DoormanConfig Value → Except String String

inductive RenderError
  | spec (why : String)
  | reservedParameter (key : String)
  | render (why : String)
  | missingSecret (pool : String)
deriving DecidableEq

/-- The lookup, as pg_doorman calls it. -/
def lookupQuery (role : String) : String := "SELECT passwd FROM " ++ role ++ "_lookup($1)"

def parameterKey (kv : String × String) : String := Text.toAsciiLowercase (Text.trim kv.1)

/-- A parameter that pgpod does not manage, as the type it reads as. -/
def parameterValue (yaml : Yaml) (kv : String × String) : Except RenderError yaml.Value :=
  if RESERVED_PARAMETERS.contains (parameterKey kv) then .error (.reservedParameter (parameterKey kv))
  else match yaml.parse kv.2 with
    | .ok value => .ok value
    | .error _ => .ok (yaml.string kv.2)

def pool (spec : PoolerSpec) (target : PoolTarget) (password : String) : Pool where
  serverHost := target.serverHost
  serverPort := target.serverPort
  serverDatabase := target.database
  poolMode := Control.PoolMode.asStr spec.poolMode
  authQuery :=
    { query := lookupQuery target.lookupRole
      user := target.lookupRole
      password := password
      database := target.lookupDatabase
      poolSize := spec.poolSize
      cacheTtl := "1h" }

def renderPool (spec : PoolerSpec) (secrets : Secrets) (target : PoolTarget) :
    Except RenderError Pool :=
  match secrets.lookupPasswords[target.name]? with
  | some password => .ok (pool spec target password)
  | none => .error (.missingSecret target.name)

def doormanConfig (yaml : Yaml) (spec : PoolerSpec) (secrets : Secrets) :
    Except RenderError (DoormanConfig yaml.Value) := do
  spec.validate.mapError fun e => .spec e.toString
  let extra ← collect parameterKey (parameterValue yaml) ∅ spec.parameters
  let pools ← collect PoolTarget.name (renderPool spec secrets) ∅ spec.pools
  return {
    general :=
      { host := "0.0.0.0"
        port := spec.port
        adminUsername := Container.POOLER_ADMIN_USER
        adminPassword := secrets.adminPassword
        queryWaitTimeout := spec.maxHold.render
        extra }
    pools }

/-- Render the config pg_doorman reads. -/
def render (yaml : Yaml) (spec : PoolerSpec) (secrets : Secrets) : Except RenderError String := do
  let config ← doormanConfig yaml spec secrets
  (yaml.write config).mapError .render

/-! ## What the agent does before it starts pg_doorman -/

inductive ConfigureError
  | spec (e : SpecError)
  | notMounted (path : String)
  | empty (path : String)
  | render (e : RenderError)
deriving DecidableEq

def ConfigureError.toString : ConfigureError → String
  | spec _ => "could not read the pooler spec"
  | notMounted path => "required secret " ++ path ++ " is not mounted — the daemon did not attach " ++
      "it to this container"
  | empty path => "secret " ++ path ++ " is empty"
  | render _ => "could not render the pg_doorman configuration"

def isLineEnd (c : Char) : Bool := c = '\n' || c = '\r'

/-- A text without the line ends it ends with. -/
def trimLineEnds (s : String) : String :=
  String.ofList (s.toList.reverse.dropWhile isLineEnd).reverse

/-- Read one mounted secret. -/
def readSecret (mounts : String → Option String) (path : String) : Except ConfigureError String :=
  match mounts path with
  | none => .error (.notMounted path)
  | some raw => if trimLineEnds raw = "" then .error (.empty path) else .ok (trimLineEnds raw)

def readLookup (mounts : String → Option String) (target : PoolTarget) :
    Except ConfigureError String :=
  readSecret mounts (Container.poolerLookupSecret target.lookupSecretIndex)

/-- Read the secrets podman mounted for this pooler. -/
def readSecrets (mounts : String → Option String) (spec : PoolerSpec) :
    Except ConfigureError Secrets := do
  let adminPassword ← readSecret mounts Container.SECRET_POOLER_ADMIN
  let lookupPasswords ← collect PoolTarget.name (readLookup mounts) ∅ spec.pools
  return { adminPassword, lookupPasswords }

def specFromEnv (codec : PoolerCodec) (env : String → Option String) :
    Except SpecError PoolerSpec :=
  match env POOLER_SPEC_ENV with
  | none => .error .missing
  | some raw => (codec.fromJson raw).mapError .malformed

/-- The configuration that PID 1 writes, from its environment and its mounts. -/
def configure (codec : PoolerCodec) (yaml : Yaml) (env mounts : String → Option String) :
    Except ConfigureError String := do
  let spec ← (specFromEnv codec env).mapError .spec
  let secrets ← readSecrets mounts spec
  (render yaml spec secrets).mapError .render

/-! ## Reading a configuration back -/

theorem trimLineEnds_eq_self {s : String} (h : ∀ c, s.toList.getLast? = some c → isLineEnd c = false) :
    trimLineEnds s = s := by
  have hdrop : s.toList.reverse.dropWhile isLineEnd = s.toList.reverse := by
    cases hlast : s.toList.reverse with
    | nil => rfl
    | cons c rest =>
      have hc : isLineEnd c = false := h c (by rw [← List.head?_reverse, hlast, List.head?_cons])
      rw [List.dropWhile_cons_of_neg (by simp [hc])]
  rw [trimLineEnds, hdrop, List.reverse_reverse, String.ofList_toList]

theorem readSecret_eq_ok {mounts : String → Option String} {path value : String} :
    readSecret mounts path = .ok value ↔
      ∃ raw, mounts path = some raw ∧ value = trimLineEnds raw ∧ value ≠ "" := by
  unfold readSecret
  cases mounts path with
  | none => simp
  | some raw =>
    simp only [Option.some.injEq, exists_eq_left']
    by_cases hempty : trimLineEnds raw = ""
    · rw [if_pos hempty]
      constructor
      · intro h
        cases h
      · rintro ⟨rfl, hne⟩
        exact absurd hempty hne
    · rw [if_neg hempty]
      constructor
      · intro h
        obtain rfl := Except.ok.inj h
        exact ⟨rfl, hempty⟩
      · rintro ⟨rfl, -⟩
        rfl

/-- What a rendered pool has of its target. -/
theorem renderPool_eq_ok {spec : PoolerSpec} {secrets : Secrets} {target : PoolTarget} {p : Pool} :
    renderPool spec secrets target = .ok p ↔
      ∃ password, secrets.lookupPasswords[target.name]? = some password ∧
        p = pool spec target password := by
  unfold renderPool
  cases secrets.lookupPasswords[target.name]? with
  | none => simp
  | some password =>
    simp only [Except.ok.injEq, Option.some.injEq, exists_eq_left']
    exact eq_comm

/-- The configuration the agent arrives at, and the text it writes for it. -/
def Renders (codec : PoolerCodec) (yaml : Yaml) (env mounts : String → Option String)
    (config : DoormanConfig yaml.Value) (text : String) : Prop :=
  ∃ spec secrets, specFromEnv codec env = .ok spec ∧ readSecrets mounts spec = .ok secrets ∧
    doormanConfig yaml spec secrets = .ok config ∧ yaml.write config = .ok text

/-- `Renders` is `configure`, with the configuration it goes through. -/
theorem configure_eq_ok {codec : PoolerCodec} {yaml : Yaml} {env mounts : String → Option String}
    {text : String} : configure codec yaml env mounts = .ok text ↔
      ∃ config, Renders codec yaml env mounts config text := by
  simp only [configure, render, except_bind_eq_ok, except_mapError_eq_ok, Renders]
  constructor
  · rintro ⟨spec, hspec, secrets, hsecrets, config, hconfig, hwrite⟩
    exact ⟨config, spec, secrets, hspec, hsecrets, hconfig, hwrite⟩
  · rintro ⟨config, spec, secrets, hspec, hsecrets, hconfig, hwrite⟩
    exact ⟨spec, hspec, secrets, hsecrets, config, hconfig, hwrite⟩

/-- **What the agent renders**: one pool for each target, with the password mounted at the target's
index. -/
theorem Renders.pools {codec : PoolerCodec} {yaml : Yaml} {env mounts : String → Option String}
    {config : DoormanConfig yaml.Value} {text : String} {spec : PoolerSpec}
    (h : Renders codec yaml env mounts config text) (hspec : specFromEnv codec env = .ok spec) :
    config.pools.size = spec.pools.length ∧
      (∀ name, name ∈ config.pools ↔ name ∈ spec.pools.map PoolTarget.name) ∧
      ∀ t ∈ spec.pools, ∃ raw, mounts (Container.poolerLookupSecret t.lookupSecretIndex) = some raw ∧
        config.pools[t.name]? = some (pool spec t (trimLineEnds raw)) := by
  obtain ⟨_, secrets, hspec', hsecrets, hconfig, -⟩ := h
  obtain rfl := Except.ok.inj (hspec'.symm.trans hspec)
  simp only [readSecrets, doormanConfig, except_bind_eq_ok, except_mapError_eq_ok, Except.ok.injEq,
    pure, Except.pure] at hsecrets hconfig
  obtain ⟨admin, -, lookups, hlookups, rfl⟩ := hsecrets
  obtain ⟨_, hvalid, extra, -, pools, hpools, rfl⟩ := hconfig
  have hnodup := PoolerSpec.validate_nodup hvalid
  obtain ⟨hread, -⟩ := collect_get hnodup hlookups
  obtain ⟨hrendered, hnone⟩ := collect_get hnodup hpools
  refine ⟨?_, fun name => ?_, fun t ht => ?_⟩
  · simpa using collect_size hnodup (fun _ _ => Std.TreeMap.not_mem_emptyc) hpools
  · constructor
    · intro hname
      by_contra hnot
      have hget := hnone name hnot
      rw [Std.TreeMap.getElem?_emptyc] at hget
      rw [Std.TreeMap.mem_iff_isSome_getElem?, hget] at hname
      cases hname
    · intro hname
      obtain ⟨t, ht, rfl⟩ := List.mem_map.mp hname
      obtain ⟨p, -, hp⟩ := hrendered t ht
      exact Std.TreeMap.mem_iff_isSome_getElem?.mpr (by rw [hp]; rfl)
  · obtain ⟨password, hpassword, hlookup⟩ := hread t ht
    obtain ⟨raw, hraw, rfl, -⟩ := readSecret_eq_ok.mp hpassword
    obtain ⟨p, hp, hpool⟩ := hrendered t ht
    obtain ⟨password', hlookup', rfl⟩ := renderPool_eq_ok.mp hp
    obtain rfl := Option.some.inj (hlookup.symm.trans hlookup')
    exact ⟨raw, hraw, hpool⟩

end Pooler

end Pgpod
