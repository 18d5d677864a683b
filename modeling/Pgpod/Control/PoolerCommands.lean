import Pgpod.Agent.Holds
import Pgpod.Control.PoolerAdoption
import Pgpod.Control.Resolved

/-!
# What the agent says to the admin console

A command is a verb, a blank and the name of a pool, pasted together.  Names come
from the manifest unchecked, so a name may be no word at all, or several, and the
console then reads another command than the one that was meant.
-/

namespace Pgpod

open Effect

namespace Pooler

/-! ## What a cluster is promised -/

/-- The text is one command, the verb and one token, and the token names a pool of the cluster and
of no other; what the command does, it does to no other cluster's pool. -/
structure Addresses (D : Doorman) (spec : PoolerSpec) (cluster : String) (verb : Verb)
    (text : String) : Prop where
  token : ∃ name ∈ spec.poolsFor cluster, readCommands text = [[verb.asStr, name]] ∧
    ∀ other, name ∈ spec.poolsFor other → other = cluster
  spares : ∀ words ∈ readCommands text, ∀ other, other ≠ cluster →
    ∀ x ∈ spec.poolsFor other, ¬ D.acts words x

/-- Every command the operation sends is such a text. -/
def Issues (P : String → Prop) : ∀ ⦃β : Type⦄, PoolerOp β → Prop
  | _, .execute cmd => P cmd.render
  | _, _ => True

/-- The tasks that serve a cluster: its requests, and the timer of a hold. -/
inductive Serves (spec : PoolerSpec) (cluster : String) : Verb → Prog PoolerOp Unit → Prop
  | pause (hold : Option HumanDuration) :
      Serves spec cluster .pause (handle spec (.pause cluster hold))
  | resume : Serves spec cluster .resume (handle spec (.resume cluster))
  | reconnect : Serves spec cluster .reconnect (handle spec (.reconnect cluster))
  | expire (generation : Nat) :
      Serves spec cluster .resume ((expire spec cluster generation).run.bind fun _ => .ret ())

/-! ## What is read of a command -/

/-- A command addresses the cluster when the name in it is read as one of the cluster's. -/
theorem addresses_command {D : Doorman} {spec : PoolerSpec} (hspec : spec.validate = .ok ())
    {cluster x : String} {verb : Verb} :
    Addresses D spec cluster verb (AdminCommand.pool verb x).render ↔
      ∃ name ∈ spec.poolsFor cluster, ReadsAs x name := by
  constructor
  · rintro ⟨⟨name, hname, hread, -⟩, -⟩
    exact ⟨name, hname, readCommands_command.mp hread⟩
  · rintro ⟨name, hname, hread⟩
    have hread : readCommands (AdminCommand.pool verb x).render = [[verb.asStr, name]] :=
      readCommands_command.mpr hread
    have hmine : ∀ other, name ∈ spec.poolsFor other → other = cluster :=
      fun other hother => PoolerSpec.poolsFor_unique hspec hother hname
    refine ⟨⟨name, hname, hread, hmine⟩, fun words hwords other hother y hy hacts => ?_⟩
    rw [hread, List.mem_singleton] at hwords
    rw [hwords, D.named] at hacts
    exact hother (hmine other (hacts ▸ hy))

/-! ## What a task sends -/

section

variable {P : String → Prop} {spec : PoolerSpec} {cluster : String} {verb : Verb}

theorem calls_eachProg {K : Except AdminError (List String) → Prog PoolerOp Unit}
    (hK : ∀ r, (K r).Calls (Issues P)) (applied todo : List String) :
    (eachProg verb applied todo K).Calls (Issues P) ↔
      ∀ x ∈ todo, P (AdminCommand.pool verb x).render := by
  induction todo generalizing applied with
  | nil =>
    rw [eachProg_nil]
    exact iff_of_true ⟨trivial, fun _ => hK _⟩ (by simp)
  | cons x rest ih =>
    rw [eachProg_cons, List.forall_mem_cons]
    constructor
    · rintro ⟨hx, hrest⟩
      exact ⟨hx, (ih _).mp (hrest (.ok (.ok [])))⟩
    · rintro ⟨hx, hrest⟩
      refine ⟨hx, fun r => ?_⟩
      cases r with
      | ok _ => exact (ih _).mpr hrest
      | error e =>
        change (ite _ _ _ : Prog PoolerOp Unit).Calls _
        split
        · exact (ih _).mpr hrest
        · exact ⟨trivial, fun _ => hK _⟩

/-- The loop sends the verb for every pool of the cluster. -/
theorem calls_forEachPool {K : Except AdminError (List String) → Prog PoolerOp Unit}
    (hK : ∀ r, (K r).Calls (Issues P)) :
    ((forEachPool spec cluster verb).run.bind K).Calls (Issues P) ↔
      ∀ x ∈ spec.poolsFor cluster, P (AdminCommand.pool verb x).render := by
  cases hempty : (spec.poolsFor cluster).isEmpty with
  | true =>
    simp only [forEachPool, hempty, if_true]
    rw [List.isEmpty_iff.mp hempty]
    exact iff_of_true (hK _) (by simp)
  | false =>
    rw [forEachPool_eq hempty]
    constructor
    · rintro ⟨-, h⟩
      exact (calls_eachProg hK _ _).mp (h (.ok ()))
    · intro h
      refine ⟨trivial, fun r => ?_⟩
      cases r with
      | ok _ => exact (calls_eachProg hK _ _).mpr h
      | error e => exact hK _

theorem calls_resume {K : Except AdminError (List String) → Prog PoolerOp Unit}
    (hK : ∀ r, (K r).Calls (Issues P)) :
    ((resume spec cluster).run.bind K).Calls (Issues P) ↔
      ∀ x ∈ spec.poolsFor cluster, P (AdminCommand.pool .resume x).render := by
  rw [resume_eq, ← calls_forEachPool hK]
  exact ⟨fun h => h.2 0, fun h => ⟨trivial, fun _ => h⟩⟩

theorem calls_answer (r : Except AdminError Response) : (answer r).Calls (Issues P) := by
  cases r <;> exact ⟨trivial, fun _ => trivial⟩

/-- A task that serves a cluster sends its verb for every pool of the cluster. -/
theorem Serves.calls {p : Prog PoolerOp Unit} (h : Serves spec cluster verb p) :
    p.Calls (Issues P) ↔ ∀ x ∈ spec.poolsFor cluster, P (AdminCommand.pool verb x).render := by
  cases h with
  | pause hold =>
    change (((forEachPool spec cluster .pause).run.bind _).bind answer).Calls _ ↔ _
    rw [Prog.bind_assoc, calls_forEachPool]
    intro r
    cases r with
    | ok paused => exact ⟨trivial, fun _ => ⟨trivial, fun _ => calls_answer _⟩⟩
    | error e => exact calls_answer _
  | resume =>
    change (((Pooler.resume spec cluster).run.bind _).bind answer).Calls _ ↔ _
    rw [Prog.bind_assoc, calls_resume]
    intro r
    cases r <;> exact calls_answer _
  | reconnect =>
    change (((forEachPool spec cluster .reconnect).run.bind _).bind answer).Calls _ ↔ _
    rw [Prog.bind_assoc, calls_forEachPool]
    intro r
    cases r <;> exact calls_answer _
  | expire generation =>
    rw [expire_eq]
    constructor
    · rintro ⟨-, h⟩
      have hcurrent : ((Pooler.resume spec cluster).run.bind fun _ => .ret ()).Calls (Issues P) := by
        simpa using h generation
      exact (calls_resume (K := fun _ => .ret ()) fun _ => trivial).mp hcurrent
    · intro h
      refine ⟨trivial, fun current => ?_⟩
      change (ite _ _ _ : Prog PoolerOp Unit).Calls _
      split
      · trivial
      · exact (calls_resume (K := fun _ => .ret ()) fun _ => trivial).mpr h

end

end Pooler

namespace Control

open Pooler

/-- **What the agent says, exactly**: whatever a manifest's pools resolve to, each command that a
task of a cluster sends is its verb and one token naming a pool of the cluster, and does nothing to
a co-tenant, if and only if the console reads each name the cluster exports as one of these names. -/
theorem commands_address_pools_iff (D : Doorman) (m : AcceptedPoolerManifest) (R : Registry)
    (spec : AcceptedPoolerSpec)
    (h : poolerSpecOf R m.manifest spec.pooler = .ok spec.toPoolerSpec) (cluster : String) :
    (∀ verb p, Serves spec.toPoolerSpec cluster verb p →
        p.Calls (Issues (Addresses D spec.toPoolerSpec cluster verb))) ↔
      ∀ x ∈ poolNames (inputsOf R m.manifest.spec.clusters) cluster,
        ∃ name ∈ poolNames (inputsOf R m.manifest.spec.clusters) cluster, ReadsAs x name := by
  have hnames : spec.poolsFor cluster =
      poolNames (inputsOf R m.manifest.spec.clusters) cluster := by
    simp only [poolerSpecOf, except_bind_eq_ok, pure, Except.pure, Except.ok.injEq] at h
    obtain ⟨⟨targets, rows⟩, hpools, hspec⟩ := h
    rw [← poolsFor_eq hpools, hspec]
  rw [← hnames]
  constructor
  · intro hall x hx
    have hserves : Serves spec.toPoolerSpec cluster .reconnect _ := .reconnect
    exact (addresses_command spec.accepted).mp (hserves.calls.mp (hall _ _ hserves) x hx)
  · intro hread verb p hp
    exact hp.calls.mpr fun x hx => (addresses_command spec.accepted).mpr (hread x hx)

/-! ## An empty alias -/

namespace CommandSample

/-- Two clusters behind one pooler, the first with one pool under this alias. -/
def manifest (asName : Option String) : PoolerManifest where
  apiVersion := "pgpod/v1"
  kind := "Pooler"
  metadata := ⟨"front"⟩
  spec :=
    { clusters := [{ cluster := "mydb", pools := [⟨"app", asName⟩] },
        { cluster := "other", pools := [⟨"shop", none⟩] }] }

def target (name cluster database : String) (index : Nat) : PoolTarget where
  name := name
  cluster := cluster
  serverHost := "pgpod-" ++ cluster ++ "-1"
  database := database
  lookupRole := "pgpod_pooler"
  lookupSecretIndex := index

def spec (name : String) : PoolerSpec where
  pooler := ⟨"front", front_valid⟩
  pools := [target name "mydb" "app" 0, target "shop" "other" "shop" 1]

/-- The condition holds of a manifest whose pools have plain names. -/
theorem commands_address_pools_plain :
    (manifest none).validate = .ok () ∧
      ∀ verb p, Serves (spec "app") "mydb" verb p →
        p.Calls (Issues (Addresses .plain (spec "app") "mydb" verb)) := by
  have haccepted : (manifest none).validate = .ok () := by decide +kernel
  have hread : ReadsAs "app" "app" := Words.lone_self (by decide) (by decide)
  refine ⟨haccepted, ?_⟩
  refine (commands_address_pools_iff .plain ⟨manifest none, haccepted⟩ ⟨[], [], [], []⟩
    ⟨spec "app", by decide +kernel⟩ (by rfl) "mydb").mpr ?_
  intro x hx
  obtain rfl : x = "app" := by simpa using (show x ∈ ["app"] from hx)
  exact ⟨"app", hx, hread⟩

/-- **An empty alias pauses the co-tenant**: the manifest is accepted, and the command for the one
pool of `mydb` is the bare verb, which acts on `shop` of the other cluster. -/
theorem empty_alias_sends_bare_verb :
    (manifest (some "")).validate = .ok () ∧
    poolerSpecOf ⟨[], [], [], []⟩ (manifest (some "")) (spec "").pooler = .ok (spec "") ∧
    (spec "").validate = .ok () ∧ readCommands (AdminCommand.pool .pause "").render = [["PAUSE"]] ∧
    "shop" ∈ (spec "").poolsFor "other" ∧ (∀ D : Doorman, D.acts ["PAUSE"] "shop") ∧
    ∀ D, ¬ (handle (spec "") (.pause "mydb" none)).Calls
      (Issues (Addresses D (spec "") "mydb" .pause)) := by
  refine ⟨by decide +kernel, by rfl, by decide +kernel, by decide, by decide,
    fun D => D.bare .pause "shop", fun D hcalls => ?_⟩
  have hsent := (Serves.pause none).calls.mp hcalls "" (by decide)
  exact hsent.spares ["PAUSE"] (by decide) "other" (by decide) "shop" (by decide)
    (D.bare .pause "shop")

end CommandSample

end Control

end Pgpod
