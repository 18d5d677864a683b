import Pgpod.Control.World
import Pgpod.Effect.Yields

/-!
# What most operations leave alone

Between the few operations that write registry rows or make and remove
containers, the rows stand and every reference finds a container of the same
spec, whatever the containers do on their own.
-/

namespace Pgpod

open Effect

namespace World

/-- What a change of a container that keeps its ID and its spec does to the lookup. -/
theorem find_update {f : Container → Container} (hid : ∀ c, (f c).id = c.id)
    (hspec : ∀ c, (f c).spec = c.spec) (w : World) (ref ref' : String) :
    (w.update ref f).find ref' = (w.find ref').map fun c => if c.answersTo ref then f c else c := by
  have hanswers : ∀ c : Container,
      (if c.answersTo ref then f c else c).answersTo ref' = c.answersTo ref' := by
    intro c
    split
    · unfold Container.answersTo Container.name
      rw [hid, hspec]
    · rfl
  unfold find update
  rw [List.find?_map]
  simp only [Function.comp_def, hanswers]

/-- Rows of clusters and poolers, and the spec behind each reference. -/
structure Kept (w u : World) : Prop where
  clusters : u.registry.clusters = w.registry.clusters
  poolers : u.registry.poolers = w.registry.poolers
  specs : ∀ ref, (u.find ref).map Container.spec = (w.find ref).map Container.spec

namespace Kept

variable {w u v : World}

theorem refl (w : World) : Kept w w := ⟨rfl, rfl, fun _ => rfl⟩

theorem trans (h : Kept w u) (h' : Kept u v) : Kept w v :=
  ⟨h'.clusters.trans h.clusters, h'.poolers.trans h.poolers,
    fun ref => (h'.specs ref).trans (h.specs ref)⟩

theorem update {f : Container → Container} (hid : ∀ c, (f c).id = c.id)
    (hspec : ∀ c, (f c).spec = c.spec) (w : World) (ref : String) : Kept w (w.update ref f) := by
  refine ⟨rfl, rfl, fun ref' => ?_⟩
  rw [find_update hid hspec, Option.map_map]
  refine congrArg (Option.map · _) (funext fun c => ?_)
  simp only [Function.comp_def]
  split
  · exact hspec c
  · rfl

theorem halt (w : World) (ref : String) (code : Int) : Kept w (w.halt ref code) :=
  update (fun c => by split <;> rfl) (fun c => by split <;> rfl) w ref

theorem boot (A : Agent.Code) (w : World) (ref : String) : Kept w (w.boot A ref) :=
  update (fun c => by split <;> rfl) (fun c => by split <;> rfl) w ref

theorem setVolume (w : World) (name : String) (v : Option Volume) : Kept w (w.setVolume name v) :=
  ⟨rfl, rfl, fun _ => rfl⟩

theorem absorb (w : World) (c : Container) (q : Prog AgentOp (Except String Int))
    (s : AgentState) : Kept w (w.absorb c q s) := by
  unfold World.absorb
  have hupdate : Kept w (w.update c.id fun c' =>
      { c' with status := .running ⟨some q, s.postmaster⟩, reports := s.reports }) :=
    update (fun _ => by rfl) (fun _ => by rfl) w c.id
  cases c.volume with
  | none => exact hupdate
  | some name => exact hupdate.trans (setVolume _ name _)

theorem drift (w : World) (d : Drift) : Kept w (w.drift d) := by
  cases d with
  | agentStep id choice =>
    simp only [World.drift]
    split
    · split
      · split
        · exact absorb _ _ _ _
        · exact refl w
      · exact refl w
    · exact refl w
  | finish id =>
    simp only [World.drift]
    split
    · split
      · split
        · exact update (fun _ => by rfl) (fun _ => by rfl) w id
        · exact refl w
      · exact refl w
    · exact refl w
  | die id code => exact halt w id code

theorem runStatement (w : World) (c : Container) (stmt : Statement) :
    Kept w (w.runStatement c stmt) := by
  unfold World.runStatement
  cases c.volume with
  | none => exact refl w
  | some name => exact setVolume w name _

theorem execIn (w : World) (c : Container) (proc : Process) (ch : CtlChoice) (cmd : ExecCommand) :
    Kept w (w.execIn c proc ch cmd).2 := by
  cases cmd with
  | pgIsReady => exact refl w
  | isInRecovery => exact refl w
  | psql stmt =>
    simp only [World.execIn]
    split
    · split
      · exact runStatement w c stmt
      · exact refl w
    · exact refl w
  | catPgVersion =>
    simp only [World.execIn]
    split
    · exact refl w
    · exact refl w
  | vacuumdbAnalyze => exact refl w
  | poolerControl verb args => exact refl w

end Kept

end World

/-- A call leaves the world as it was, or as carrying it out makes it. -/
theorem podmanCall_kept {α : Type} {ch : CtlChoice} {w w' : World} {r : Except Error α}
    (h : w.Kept w') : w.Kept (podmanCall ch w r w').2 := by
  unfold podmanCall
  split
  · split
    · exact h
    · exact .refl w
  · split
    · exact h
    · exact .refl w

/-- The operation writes no row of a cluster or a pooler, and makes or removes no container. -/
def Calm : ∀ ⦃β : Type⦄, CtlOp β → Prop
  | _, .registry (.putCluster ..) | _, .registry (.setClusterPhase ..)
  | _, .registry (.deleteCluster _) | _, .registry (.putPooler ..)
  | _, .registry (.deletePooler _) => False
  | _, .podman (.createContainer _) | _, .podman (.remove _) => False
  | _, _ => True

theorem RegistryOp.perform_calm {β : Type} {op : RegistryOp β} (h : Calm (.registry op))
    (c : CtlChoice) (R : Registry) :
    (op.perform c R).2.clusters = R.clusters ∧ (op.perform c R).2.poolers = R.poolers := by
  cases op with
  | putCluster => exact h.elim
  | setClusterPhase => exact h.elim
  | deleteCluster => exact h.elim
  | putPooler => exact h.elim
  | deletePooler => exact h.elim
  | putInstance rec => simp only [perform]; split <;> exact ⟨rfl, rfl⟩
  | recordEvent => simp only [perform]; split <;> exact ⟨rfl, rfl⟩
  | _ => exact ⟨rfl, rfl⟩

theorem PodmanOp.perform_calm {β : Type} (A : Agent.Code) {op : PodmanOp β} (h : Calm (.podman op))
    (ch : CtlChoice) (w : World) : w.Kept (op.perform A ch w).2 := by
  have hsame : ∀ {u : World}, u.registry = w.registry → u.containers = w.containers → w.Kept u := by
    intro u hr hc
    exact ⟨by rw [hr], by rw [hr], fun ref => by unfold World.find; rw [hc]⟩
  cases op with
  | createContainer => exact h.elim
  | remove => exact h.elim
  | pullImageIfAbsent image =>
    simp only [perform]
    split
    · exact .refl w
    · split
      · exact podmanCall_kept (hsame rfl rfl)
      · exact .refl w
  | imageId image => exact podmanCall_kept (.refl w)
  | ensureNetwork name =>
    simp only [perform]
    split
    · exact podmanCall_kept (.refl w)
    · exact podmanCall_kept (hsame rfl rfl)
  | removeNetwork name => exact podmanCall_kept (hsame rfl rfl)
  | createVolume name =>
    simp only [perform]
    split
    · exact podmanCall_kept (.refl w)
    · exact podmanCall_kept (hsame rfl rfl)
  | volumeExists name => exact podmanCall_kept (.refl w)
  | removeVolume name =>
    simp only [perform]
    split
    · exact .refl w
    · exact podmanCall_kept (hsame rfl rfl)
  | secretExists name => exact podmanCall_kept (.refl w)
  | secretValue name => exact podmanCall_kept (.refl w)
  | putSecret name value =>
    simp only [perform]
    split
    · exact hsame rfl rfl
    · exact podmanCall_kept (hsame rfl rfl)
  | removeSecret name => exact podmanCall_kept (hsame rfl rfl)
  | probe ref => exact podmanCall_kept (.refl w)
  | start ref =>
    simp only [perform]
    split
    · exact podmanCall_kept (.boot A w ref)
    · exact .refl w
  | stop ref timeout =>
    simp only [perform]
    split
    · exact podmanCall_kept (.halt w ref ch.code)
    · exact .refl w
  | waitForExit ref timeout =>
    simp only [perform]
    split
    · exact podmanCall_kept (.refl w)
    · exact .refl w
  | logs ref =>
    simp only [perform]
    split
    · exact podmanCall_kept (.refl w)
    · exact .refl w
  | exec ref cmd =>
    simp only [perform]
    split
    · split
      · exact podmanCall_kept (.execIn w _ _ ch cmd)
      · exact .refl w
    · exact .refl w

/-- Podman keeps no rows. -/
theorem PodmanOp.perform_poolers {β : Type} (A : Agent.Code) (op : PodmanOp β) (ch : CtlChoice)
    (w : World) : (op.perform A ch w).2.registry.poolers = w.registry.poolers := by
  have hcall : ∀ {α : Type} {r : Except Error α} {w' : World}, w'.registry = w.registry →
      (podmanCall ch w r w').2.registry.poolers = w.registry.poolers := by
    intro α r w' h
    unfold podmanCall
    split
    · split
      · rw [h]
      · rfl
    · split
      · rw [h]
      · rfl
  have hcalm : Calm (.podman op) → (op.perform A ch w).2.registry.poolers = w.registry.poolers :=
    fun h => (perform_calm A h ch w).poolers
  cases op with
  | createContainer spec =>
    simp only [perform]
    split
    · next id w' hcreate =>
      refine hcall ?_
      unfold World.create at hcreate
      split at hcreate
      · split at hcreate
        · cases hcreate
        · obtain ⟨-, rfl⟩ := Prod.mk.inj (Option.some.inj hcreate)
          rfl
      · cases hcreate
    · rfl
  | remove ref =>
    simp only [perform]
    split
    · exact hcall rfl
    · rfl
  | _ => exact hcalm trivial

section Machine

variable {A : Agent.Code}

theorem hostMachine_drift {w u : World} (h : (hostMachine A).drift w u) : w.Kept u := by
  obtain ⟨d, rfl⟩ := h
  exact .drift w d

/-- **Frame**: a calm operation keeps the rows and the containers. -/
theorem hostMachine_calm {β : Type} {op : CtlOp β} {w u : World} {b : β} (hop : Calm op)
    (h : (hostMachine A).step op w b u) : w.Kept u := by
  obtain ⟨ch, h⟩ := h
  change CtlOp.perform A op ch w = (b, u) at h
  cases op with
  | registry op =>
    obtain ⟨hclusters, hpoolers⟩ := RegistryOp.perform_calm hop ch w.registry
    obtain ⟨-, rfl⟩ := Prod.mk.inj h
    exact ⟨hclusters, hpoolers, fun _ => rfl⟩
  | podman op =>
    have hkept := PodmanOp.perform_calm A hop ch w
    change op.perform A ch w = (b, u) at h
    rw [h] at hkept
    exact hkept
  | host op =>
    obtain ⟨-, rfl⟩ := Prod.mk.inj h
    exact .refl w

/-- The operation writes no row of a pooler. -/
def LeavesPoolers : ∀ ⦃β : Type⦄, CtlOp β → Prop
  | _, .registry (.putPooler ..) | _, .registry (.deletePooler _) => False
  | _, _ => True

theorem hostMachine_poolers {β : Type} {op : CtlOp β} {w u : World} {b : β}
    (hop : LeavesPoolers op) (h : (hostMachine A).step op w b u) :
    u.registry.poolers = w.registry.poolers := by
  obtain ⟨ch, h⟩ := h
  change CtlOp.perform A op ch w = (b, u) at h
  cases op with
  | registry op =>
    obtain ⟨-, rfl⟩ := Prod.mk.inj h
    have hcalm : Calm (.registry op) → (op.perform ch w.registry).2.poolers = w.registry.poolers :=
      fun h => (RegistryOp.perform_calm h ch w.registry).2
    cases op with
    | putPooler => exact hop.elim
    | deletePooler => exact hop.elim
    | putCluster =>
      simp only
      split
      · rfl
      · unfold Registry.putCluster
        split <;> rfl
    | setClusterPhase =>
      simp only
      split <;> rfl
    | deleteCluster =>
      simp only
      split <;> rfl
    | _ => exact hcalm trivial
  | podman op =>
    have hpoolers := PodmanOp.perform_poolers A op ch w
    change op.perform A ch w = (b, u) at h
    rw [h] at hpoolers
    exact hpoolers
  | host op =>
    obtain ⟨-, rfl⟩ := Prod.mk.inj h
    rfl

theorem stable_kept (w : World) : (hostMachine A).Stable (World.Kept w) :=
  fun _ _ hd h => h.trans (hostMachine_drift hd)

/-- A calm operation, and what its answer says on rows and containers that are kept. -/
theorem yields_ask {β : Type} {op : CtlOp (Except Error β)} {w : World} {fact : β → Prop}
    (hop : Calm op)
    (hfact : ∀ u a v, w.Kept u → (hostMachine A).step op u (.ok a) v → fact a) :
    (hostMachine A).Yields (World.Kept w) (Task.ask op) fun a u => fact a ∧ w.Kept u :=
  .ask (stable_kept w) (fun a => (Machine.Stable.const (fact a)).and (stable_kept w))
    fun u a v h hstep => ⟨hfact u a v h hstep, h.trans (hostMachine_calm hop hstep)⟩

/-- A task of calm operations keeps the rows and the containers. -/
theorem yields_calm {α : Type} {t : Control.CtlTask α} (w : World) (ht : t.run.Calls Calm) :
    (hostMachine A).Yields (World.Kept w) t fun _ => World.Kept w :=
  .of_calls (stable_kept w) (fun _ _ _ _ _ hop h hstep => h.trans (hostMachine_calm hop hstep)) ht

end Machine

/-! ## Answers that what is kept decides -/

namespace Control

variable {A : Agent.Code} {w : World}

theorem cluster_answer {k : ClusterId} {u v : World} {a : Option ClusterRecord} (h : w.Kept u)
    (hstep : (hostMachine A).step (.registry (.cluster k)) u (.ok a) v) :
    a = w.registry.cluster k.name := by
  obtain ⟨ch, hstep⟩ := hstep
  have hanswer := congrArg Prod.fst hstep
  simp only [hostExec, CtlOp.perform, RegistryOp.perform] at hanswer
  split at hanswer
  · cases hanswer
  · rw [← Except.ok.inj hanswer]
    unfold Registry.cluster
    rw [h.clusters]

theorem pooler_answer {k : PoolerId} {u v : World} {a : Option PoolerRecord} (h : w.Kept u)
    (hstep : (hostMachine A).step (.registry (.pooler k)) u (.ok a) v) :
    a = w.registry.pooler k.name := by
  obtain ⟨ch, hstep⟩ := hstep
  have hanswer := congrArg Prod.fst hstep
  simp only [hostExec, CtlOp.perform, RegistryOp.perform] at hanswer
  split at hanswer
  · cases hanswer
  · rw [← Except.ok.inj hanswer]
    unfold Registry.pooler
    rw [h.poolers]

/-- A probe that answers shows the environment of the container's spec. -/
theorem probe_answer {ref : String} {c : Container} {u v : World} {a : Option ContainerProbe}
    (hfound : w.find ref = some c) (h : w.Kept u)
    (hstep : (hostMachine A).step (.podman (.probe ref)) u (.ok a) v) :
    ∃ p, a = some p ∧ p.env = c.spec.envLines := by
  obtain ⟨ch, hstep⟩ := hstep
  have hanswer := congrArg Prod.fst hstep
  simp only [hostExec, CtlOp.perform, PodmanOp.perform, podmanCall] at hanswer
  split at hanswer
  · cases hanswer
  · rw [← Except.ok.inj hanswer]
    have hspec := h.specs ref
    rw [hfound] at hspec
    obtain ⟨c', hc', heq⟩ := Option.map_eq_some_iff.mp hspec
    rw [hc']
    exact ⟨c'.probe, rfl, by rw [← heq]; rfl⟩

end Control

end Pgpod
