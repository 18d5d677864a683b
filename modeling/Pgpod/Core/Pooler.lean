import Mathlib.Data.List.Nodup
import Pgpod.Core.Spec

/-!
# The pooler spec

What the daemon tells the pooler's agent to be: the pools it fronts, each with
the cluster it belongs to, and the longest hold it may be asked for.
-/

namespace Pgpod

/-- A duration in milliseconds, written with its unit. -/
structure HumanDuration where
  millis : UInt64
deriving DecidableEq

namespace HumanDuration

/-- The largest unit that divides it; never a bare number. -/
def render (d : HumanDuration) : String :=
  let m := d.millis.toNat
  if m = 0 then "0ms"
  else if m % 3600000 = 0 then toString (m / 3600000) ++ "h"
  else if m % 60000 = 0 then toString (m / 60000) ++ "m"
  else if m % 1000 = 0 then toString (m / 1000) ++ "s"
  else toString m ++ "ms"

example : (HumanDuration.mk 90000).render = "90s" := by decide

end HumanDuration

namespace Container

def POOLER_PORT : UInt16 := 6432
def POOLER_DIR : String := "/pooler"
def SECRET_POOLER_ADMIN : String := "/run/secrets/pgpod-pooler-admin"
def DEFAULT_POOLER_IMAGE : String := "ghcr.io/ozontech/pg_doorman:v3.11.0"
def DEFAULT_POOLER_UID : UInt32 := 999
def DEFAULT_POOLER_GID : UInt32 := 999

/-- Where the lookup password of the cluster at `index` is mounted. -/
def poolerLookupSecret (index : Nat) : String :=
  "/run/secrets/pgpod-pooler-lookup-" ++ toString index

end Container

def POOLER_SPEC_ENV : String := "PGPOD_POOLER_SPEC"

/-- One pool: the name clients connect to, and the instance behind it. -/
structure PoolTarget where
  name : String
  cluster : String
  serverHost : String
  database : String
  lookupRole : String
  /-- Which mounted secret holds the lookup role's password. -/
  lookupSecretIndex : Nat
  serverPort : UInt16 := Container.PG_PORT
  lookupDatabase : String := "postgres"
deriving DecidableEq

inductive PoolMode
  | transaction
  | session
deriving DecidableEq, Repr

structure PoolerSpec where
  pooler : PoolerId
  pools : List PoolTarget
  port : UInt16 := Container.POOLER_PORT
  poolMode : PoolMode := .transaction
  poolSize : UInt32 := 40
  maxHold : HumanDuration := ⟨60000⟩
  parameters : List (String × String) := []
deriving DecidableEq

/-- The JSON of the pooler spec, as the third-party crate writes and reads it. -/
structure PoolerCodec where
  toJson : PoolerSpec → String
  fromJson : String → Except String PoolerSpec

namespace PoolerSpec

/-- Pool names belonging to one cluster: what a hold pauses. -/
def poolsFor (s : PoolerSpec) (cluster : String) : List String :=
  (s.pools.filter fun p => p.cluster = cluster).map PoolTarget.name

def clusters (s : PoolerSpec) : List String :=
  ((s.pools.map PoolTarget.cluster).mergeSort fun a b => decide (a ≤ b)).eraseReps

def validatePools : List String → List PoolTarget → Except SpecError Unit
  | _, [] => .ok ()
  | seen, p :: rest =>
    if p.name ∈ seen then .error (.poolerInconsistent
      ("two pools are both named " ++ Text.debug p.name ++ "; clients address a pool by that name"))
    else if (Text.trim p.serverHost).isEmpty then .error (.poolerInconsistent
      ("pool " ++ Text.debug p.name ++ " names no server host"))
    else if (Text.trim p.database).isEmpty then .error (.poolerInconsistent
      ("pool " ++ Text.debug p.name ++ " names no database"))
    else validatePools (p.name :: seen) rest

def validate (s : PoolerSpec) : Except SpecError Unit :=
  if s.pools.isEmpty then .error (.poolerInconsistent
    "a pooler with no pools would accept connections and have nowhere to send them")
  else if s.poolSize = 0 then .error (.poolerInconsistent "poolSize must be at least 1")
  else if s.maxHold.millis = 0 then .error (.poolerInconsistent
    ("maxHold of zero makes every wait non-blocking, so a hold would fail clients " ++
      "immediately rather than holding them"))
  else validatePools [] s.pools

def toEnvValue (codec : PoolerCodec) (s : PoolerSpec) : Except SpecError String := do
  s.validate
  return codec.toJson s

end PoolerSpec

/-- A spec the daemon has checked before it sent it. -/
structure AcceptedPoolerSpec extends PoolerSpec where
  accepted : toPoolerSpec.validate = .ok ()

namespace PoolerSpec

theorem validatePools_nodup {seen : List String} {pools : List PoolTarget}
    (h : validatePools seen pools = .ok ()) :
    (pools.map PoolTarget.name).Nodup ∧ ∀ p ∈ pools, p.name ∉ seen := by
  induction pools generalizing seen with
  | nil => simp
  | cons p rest ih =>
    unfold validatePools at h
    split at h
    · cases h
    rename_i hfresh
    split at h
    · cases h
    split at h
    · cases h
    obtain ⟨hnodup, hnot⟩ := ih h
    have hp : p.name ∉ rest.map PoolTarget.name := by
      intro hmem
      obtain ⟨q, hq, hname⟩ := List.mem_map.mp hmem
      exact hnot q hq (by simp [hname])
    refine ⟨List.nodup_cons.mpr ⟨hp, hnodup⟩, fun q hq => ?_⟩
    rcases List.mem_cons.mp hq with rfl | hq
    · exact hfresh
    · exact fun hmem => hnot q hq (List.mem_cons_of_mem _ hmem)

/-- Pool names are unique in a checked spec. -/
theorem validate_nodup {s : PoolerSpec} (h : s.validate = .ok ()) :
    (s.pools.map PoolTarget.name).Nodup := by
  unfold validate at h
  split at h
  · cases h
  split at h
  · cases h
  split at h
  · cases h
  exact (validatePools_nodup h).1

/-- A pool belongs to one cluster. -/
theorem poolsFor_unique {s : PoolerSpec} (h : s.validate = .ok ()) {c c' x : String}
    (hx : x ∈ s.poolsFor c) (hx' : x ∈ s.poolsFor c') : c = c' := by
  simp only [poolsFor, List.mem_map, List.mem_filter, decide_eq_true_eq] at hx hx'
  obtain ⟨p, ⟨hp, rfl⟩, hname⟩ := hx
  obtain ⟨q, ⟨hq, rfl⟩, hname'⟩ := hx'
  have hpq : p = q :=
    List.inj_on_of_nodup_map (validate_nodup h) hp hq (hname.trans hname'.symm)
  rw [hpq]

end PoolerSpec

end Pgpod
