import Pgpod.Control.Kept

/-!
# The ledger: rows, containers by what they were made of, images, networks

What `apply` compares a manifest with is a small part of the host: no volume, no
secret and no process is in it.  A container on its own changes nothing of the
ledger, and a run on the host is a run on the ledger.
-/

namespace Pgpod

open Effect

/-- A container as far as it cannot change while it exists. -/
structure Tag where
  id : String
  spec : ContainerSpec
  image : Image

namespace Tag

def answersTo (t : Tag) (ref : String) : Bool := t.id = ref || t.spec.name = some ref

end Tag

structure Ledger where
  clusters : List ClusterRecord
  instances : List InstanceRecord
  shelf : List Tag
  nextId : Nat
  images : String → Option Image
  networks : String → Option (Option String)

namespace Ledger

def rows (L : Ledger) : Registry := { clusters := L.clusters, instances := L.instances }

def find (L : Ledger) (ref : String) : Option Tag := L.shelf.find? fun t => t.answersTo ref

def setImage (L : Ledger) (name : String) (image : Image) : Ledger :=
  { L with images := fun n => if n = name then some image else L.images n }

def setNetwork (L : Ledger) (name : String) (subnet : Option (Option String)) : Ledger :=
  { L with networks := fun n => if n = name then subnet else L.networks n }

def drop (L : Ledger) (ref : String) : Ledger :=
  { L with shelf := L.shelf.filter fun t => !t.answersTo ref }

def withRows (L : Ledger) (R : Registry) : Ledger :=
  { L with clusters := R.clusters, instances := R.instances }

/-- A container was made: its name was free and its image there. -/
def Made (L : Ledger) (spec : ContainerSpec) (id : String) (L' : Ledger) : Prop :=
  ∃ image, L.images spec.image = some image ∧ (∀ n, spec.name = some n → L.find n = none) ∧
    id = "id-" ++ toString L.nextId ∧
    L' = { L with nextId := L.nextId + 1, shelf := L.shelf ++ [⟨id, spec, image⟩] }

/-- What a probe that answers shows of a container. -/
def Shows (t : Tag) (p : ContainerProbe) : Prop :=
  p.id = t.id ∧ p.env = t.spec.envLines ∧ p.imageId = some t.image.id

/-- What an operation may answer and do. -/
def step : ∀ ⦃β : Type⦄, CtlOp β → Ledger → β → Ledger → Prop
  | _, .registry (.cluster k), L, b, L' => L' = L ∧ ∀ a, b = .ok a → a = L.rows.cluster k.name
  | _, .registry (.instances k), L, b, L' =>
    L' = L ∧ ∀ a, b = .ok a → a = L.rows.instancesOf k.name
  | _, .registry (.putCluster m phase), L, b, L' => match b with
    | .ok g => g = (L.rows.putCluster m phase).1 ∧ L' = L.withRows (L.rows.putCluster m phase).2
    | .error _ => L' = L
  | _, .registry (.setClusterPhase k phase), L, b, L' => match b with
    | .ok _ => L' = L.withRows (L.rows.updateCluster k.name fun r => { r with phase := phase.asStr })
    | .error _ => L' = L
  | _, .registry (.deleteCluster k), L, b, L' => match b with
    | .ok _ => L' = L.withRows (L.rows.deleteCluster k.name)
    | .error _ => L' = L
  | _, .registry (.putInstance rec), L, b, L' => match b with
    | .ok _ => L' = L.withRows (L.rows.putInstance rec)
    | .error _ => L' = L
  | _, .podman (.pullImageIfAbsent image), L, b, L' =>
    (L' = L ∨ L.images image = none ∧ ∃ found, L' = L.setImage image found) ∧
      ∀ u, b = .ok u → (L'.images image).isSome = true
  | _, .podman (.imageId image), L, b, L' =>
    L' = L ∧ ∀ a, b = .ok a → a = (L.images image).map Image.id
  | _, .podman (.ensureNetwork name), L, b, L' =>
    (L' = L ∨ L.networks name = none ∧ ∃ subnet, L' = L.setNetwork name (some subnet)) ∧
      ∀ a, b = .ok a → L'.networks name = some a
  | _, .podman (.removeNetwork name), L, _, L' => L' = L ∨ L' = L.setNetwork name none
  | _, .podman (.probe ref), L, b, L' => L' = L ∧ match b with
    | .ok none => L.find ref = none
    | .ok (some p) => ∃ t, L.find ref = some t ∧ Shows t p
    | .error _ => True
  | _, .podman (.createContainer spec), L, b, L' =>
    (L' = L ∨ ∃ id, L.Made spec id L') ∧ ∀ id, b = .ok id → L.Made spec id L'
  | _, .podman (.remove ref), L, b, L' => (L' = L ∨ L' = L.drop ref) ∧ ∀ u, b = .ok u → L' = L.drop ref
  | _, _, L, _, L' => L' = L

def machine : Machine CtlOp Ledger where
  step := step
  drift _ _ := False

theorem eq_of_drifts {L L' : Ledger} (h : machine.Drifts L L') : L = L' := by
  induction h with
  | refl => rfl
  | tail _ hd _ => exact hd.elim

end Ledger

/-! ## The host's ledger -/

def Container.tag (c : Container) : Tag := ⟨c.id, c.spec, c.image⟩

namespace World

def ledger (w : World) : Ledger where
  clusters := w.registry.clusters
  instances := w.registry.instances
  shelf := w.containers.map Container.tag
  nextId := w.nextId
  images := w.images
  networks := w.networks

theorem ledger_find (w : World) (ref : String) :
    w.ledger.find ref = (w.find ref).map Container.tag := by
  unfold Ledger.find find ledger
  rw [List.find?_map]
  rfl

theorem ledger_drop (w : World) (ref : String) : (w.drop ref).ledger = w.ledger.drop ref := by
  unfold drop Ledger.drop ledger
  simp only [List.filter_map]
  rfl

theorem ledger_update {f : Container → Container} (hf : ∀ c, (f c).tag = c.tag) (w : World)
    (ref : String) : (w.update ref f).ledger = w.ledger := by
  unfold update ledger
  simp only [List.map_map]
  congr 1
  refine List.map_congr_left fun c _ => ?_
  simp only [Function.comp_apply]
  split
  · exact hf c
  · rfl

theorem ledger_halt (w : World) (ref : String) (code : Int) :
    (w.halt ref code).ledger = w.ledger :=
  ledger_update (fun c => by split <;> rfl) w ref

theorem ledger_boot (A : Agent.Code) (w : World) (ref : String) :
    (w.boot A ref).ledger = w.ledger :=
  ledger_update (fun c => by split <;> rfl) w ref

theorem ledger_absorb (w : World) (c : Container) (q : Prog AgentOp (Except String Int))
    (s : AgentState) : (w.absorb c q s).ledger = w.ledger := by
  have hupdate : (w.update c.id fun c' =>
      { c' with status := .running ⟨some q, s.postmaster⟩, reports := s.reports }).ledger =
        w.ledger := ledger_update (fun _ => by rfl) w c.id
  unfold absorb
  cases c.volume with
  | none => exact hupdate
  | some name => exact hupdate

theorem ledger_drift (w : World) (d : Drift) : (w.drift d).ledger = w.ledger := by
  cases d with
  | agentStep id choice =>
    simp only [drift]
    split
    · split
      · split
        · exact ledger_absorb _ _ _ _
        · rfl
      · rfl
    · rfl
  | finish id =>
    simp only [drift]
    split
    · split
      · split
        · exact ledger_update (fun _ => by rfl) w id
        · rfl
      · rfl
    · rfl
  | die id code => exact ledger_halt w id code

theorem ledger_execIn (w : World) (c : Container) (proc : Process) (ch : CtlChoice)
    (cmd : ExecCommand) : (w.execIn c proc ch cmd).2.ledger = w.ledger := by
  cases cmd with
  | psql stmt =>
    have hrun : (w.runStatement c stmt).ledger = w.ledger := by
      unfold runStatement
      cases c.volume <;> rfl
    simp only [execIn]
    split
    · split
      · exact hrun
      · rfl
    · rfl
  | catPgVersion =>
    simp only [execIn]
    split <;> rfl
  | _ => rfl

theorem ledger_create {w w' : World} {spec : ContainerSpec} {id : String}
    (h : w.create spec = some (id, w')) : w.ledger.Made spec id w'.ledger := by
  unfold create at h
  cases himage : w.images spec.image with
  | none => simp [himage] at h
  | some image =>
    cases hmounts : w.mountsOf spec with
    | none => simp [himage, hmounts] at h
    | some mounts =>
      simp only [himage, hmounts] at h
      split at h
      · cases h
      · next hfree =>
        obtain ⟨rfl, rfl⟩ := Prod.mk.inj (Option.some.inj h)
        refine ⟨image, himage, fun n hn => ?_, rfl, ?_⟩
        · rw [ledger_find]
          cases hfind : w.find n with
          | none => rfl
          | some c => simp [hn, hfind] at hfree
        · simp [ledger, Container.tag]

end World

/-- A call failed, and may have been carried out, or it gave its answer and was. -/
theorem podmanCall_cases {α : Type} {ch : CtlChoice} {w w' u : World} {r b : Except Error α}
    (h : podmanCall ch w r w' = (b, u)) :
    ((∃ e, b = .error e) ∧ (u = w ∨ u = w')) ∨ ∃ a, r = .ok a ∧ b = .ok a ∧ u = w' := by
  unfold podmanCall at h
  split at h
  · obtain ⟨rfl, rfl⟩ := Prod.mk.inj h
    refine .inl ⟨⟨_, rfl⟩, ?_⟩
    split
    · exact .inr rfl
    · exact .inl rfl
  · cases r with
    | ok a =>
      obtain ⟨rfl, rfl⟩ := Prod.mk.inj h
      exact .inr ⟨a, rfl, rfl, rfl⟩
    | error e =>
      obtain ⟨rfl, rfl⟩ := Prod.mk.inj h
      exact .inl ⟨⟨e, rfl⟩, .inl rfl⟩

/-- A call that changes nothing of the ledger. -/
theorem podmanCall_ledger {α : Type} {ch : CtlChoice} {w w' u : World} {r b : Except Error α}
    (h : podmanCall ch w r w' = (b, u)) (hw : w'.ledger = w.ledger) :
    u.ledger = w.ledger ∧ ∀ a, b = .ok a → r = .ok a := by
  rcases podmanCall_cases h with ⟨⟨e, rfl⟩, rfl | rfl⟩ | ⟨a, hr, rfl, rfl⟩
  · exact ⟨rfl, nofun⟩
  · exact ⟨hw, nofun⟩
  · refine ⟨hw, fun a' ha => ?_⟩
    rw [hr, Except.ok.inj ha]

theorem RegistryOp.ledger_step {β : Type} {op : RegistryOp β} {ch : CtlChoice} {w : World} {b : β}
    {R : Registry} (h : op.perform ch w.registry = (b, R)) :
    Ledger.step (.registry op) w.ledger b { w with registry := R }.ledger := by
  cases op with
  | cluster k =>
    obtain ⟨rfl, rfl⟩ := Prod.mk.inj h
    refine ⟨rfl, fun a ha => ?_⟩
    split at ha
    · cases ha
    · exact (Except.ok.inj ha).symm
  | instances k =>
    obtain ⟨rfl, rfl⟩ := Prod.mk.inj h
    refine ⟨rfl, fun a ha => ?_⟩
    split at ha
    · cases ha
    · exact (Except.ok.inj ha).symm
  | putCluster m phase =>
    simp only [perform] at h
    split at h
    · obtain ⟨rfl, rfl⟩ := Prod.mk.inj h
      rfl
    · obtain ⟨rfl, rfl⟩ := Prod.mk.inj h
      simp only [Ledger.step]
      unfold Registry.putCluster
      have hsame : w.ledger.rows.cluster m.metadata.name = w.registry.cluster m.metadata.name := rfl
      rw [hsame]
      cases w.registry.cluster m.metadata.name <;> exact ⟨rfl, rfl⟩
  | setClusterPhase k phase =>
    simp only [perform] at h
    split at h
    · obtain ⟨rfl, rfl⟩ := Prod.mk.inj h
      rfl
    · obtain ⟨rfl, rfl⟩ := Prod.mk.inj h
      rfl
  | deleteCluster k =>
    simp only [perform] at h
    split at h
    · obtain ⟨rfl, rfl⟩ := Prod.mk.inj h
      rfl
    · obtain ⟨rfl, rfl⟩ := Prod.mk.inj h
      rfl
  | putInstance rec =>
    simp only [perform] at h
    split at h
    · obtain ⟨rfl, rfl⟩ := Prod.mk.inj h
      rfl
    · obtain ⟨rfl, rfl⟩ := Prod.mk.inj h
      rfl
  | listClusters =>
    obtain ⟨-, rfl⟩ := Prod.mk.inj h
    rfl
  | listPoolers =>
    obtain ⟨-, rfl⟩ := Prod.mk.inj h
    rfl
  | poolersForCluster k =>
    obtain ⟨-, rfl⟩ := Prod.mk.inj h
    rfl
  | pooler k =>
    obtain ⟨-, rfl⟩ := Prod.mk.inj h
    rfl
  | putPooler m containerName containerId hostPort phase pools =>
    simp only [perform] at h
    split at h
    · obtain ⟨rfl, rfl⟩ := Prod.mk.inj h
      rfl
    · obtain ⟨rfl, rfl⟩ := Prod.mk.inj h
      simp only [Ledger.step]
      unfold Registry.putPooler
      cases w.registry.pooler m.metadata.name <;> rfl
  | deletePooler k =>
    simp only [perform] at h
    split at h
    · obtain ⟨rfl, rfl⟩ := Prod.mk.inj h
      rfl
    · obtain ⟨rfl, rfl⟩ := Prod.mk.inj h
      rfl
  | recordEvent k ordinal level message =>
    simp only [perform] at h
    split at h
    · obtain ⟨rfl, rfl⟩ := Prod.mk.inj h
      rfl
    · obtain ⟨rfl, rfl⟩ := Prod.mk.inj h
      rfl

theorem PodmanOp.ledger_step {β : Type} {A : Agent.Code} {op : PodmanOp β} {ch : CtlChoice}
    {w u : World} {b : β} (h : op.perform A ch w = (b, u)) :
    Ledger.step (.podman op) w.ledger b u.ledger := by
  cases op with
  | pullImageIfAbsent image =>
    simp only [perform] at h
    split at h
    · next hthere =>
      obtain ⟨rfl, rfl⟩ := Prod.mk.inj h
      exact ⟨.inl rfl, fun _ _ => hthere⟩
    · next hnone =>
      have habsent : w.ledger.images image = none := by simpa [World.ledger] using hnone
      split at h
      · next found _ =>
        rcases podmanCall_cases h with ⟨⟨e, rfl⟩, rfl | rfl⟩ | ⟨a, -, rfl, rfl⟩
        · exact ⟨.inl rfl, by simp⟩
        · exact ⟨.inr ⟨habsent, found, rfl⟩, by simp⟩
        · refine ⟨.inr ⟨habsent, found, rfl⟩, fun _ _ => ?_⟩
          simp [World.ledger, World.setImage]
      · obtain ⟨rfl, rfl⟩ := Prod.mk.inj h
        exact ⟨.inl rfl, by simp⟩
  | imageId image =>
    simp only [perform] at h
    obtain ⟨hsame, hanswer⟩ := podmanCall_ledger h rfl
    exact ⟨hsame, fun a ha => (Except.ok.inj (hanswer a ha)).symm⟩
  | ensureNetwork name =>
    simp only [perform] at h
    split at h
    · next subnet hnet =>
      obtain ⟨hsame, hanswer⟩ := podmanCall_ledger h rfl
      refine ⟨.inl hsame, fun a ha => ?_⟩
      rw [hsame, ← Except.ok.inj (hanswer a ha)]
      exact hnet
    · next hnet =>
      rcases podmanCall_cases h with ⟨⟨e, rfl⟩, rfl | rfl⟩ | ⟨a, hr, rfl, rfl⟩
      · exact ⟨.inl rfl, by simp⟩
      · exact ⟨.inr ⟨hnet, _, rfl⟩, by simp⟩
      · refine ⟨.inr ⟨hnet, _, rfl⟩, fun a' ha => ?_⟩
        rw [← Except.ok.inj ha, ← Except.ok.inj hr]
        simp [World.ledger, World.setNetwork]
  | removeNetwork name =>
    simp only [perform] at h
    rcases podmanCall_cases h with ⟨-, rfl | rfl⟩ | ⟨-, -, -, rfl⟩
    · exact .inl rfl
    · exact .inr rfl
    · exact .inr rfl
  | probe ref =>
    simp only [perform] at h
    obtain ⟨hsame, hanswer⟩ := podmanCall_ledger h rfl
    refine ⟨hsame, ?_⟩
    rw [World.ledger_find]
    cases b with
    | error e => trivial
    | ok found =>
      have hfind := Except.ok.inj (hanswer found rfl)
      cases found with
      | none =>
        rw [Option.map_eq_none_iff] at hfind ⊢
        exact hfind
      | some p =>
        obtain ⟨c, hc, rfl⟩ := Option.map_eq_some_iff.mp hfind
        exact ⟨c.tag, by rw [hc]; rfl, rfl, rfl, rfl⟩
  | createContainer spec =>
    simp only [perform] at h
    split at h
    · next id w' hcreate =>
      have hmade := World.ledger_create hcreate
      rcases podmanCall_cases h with ⟨⟨e, rfl⟩, rfl | rfl⟩ | ⟨a, hr, rfl, rfl⟩
      · exact ⟨.inl rfl, by simp⟩
      · exact ⟨.inr ⟨id, hmade⟩, by simp⟩
      · refine ⟨.inr ⟨id, hmade⟩, fun a' ha => ?_⟩
        rw [← Except.ok.inj ha, ← Except.ok.inj hr]
        exact hmade
    · obtain ⟨rfl, rfl⟩ := Prod.mk.inj h
      exact ⟨.inl rfl, by simp⟩
  | remove ref =>
    simp only [perform] at h
    split at h
    · rcases podmanCall_cases h with ⟨⟨e, rfl⟩, rfl | rfl⟩ | ⟨a, hr, rfl, rfl⟩
      · exact ⟨.inl rfl, by simp⟩
      · exact ⟨.inr (w.ledger_drop ref), by simp⟩
      · exact ⟨.inr (w.ledger_drop ref), fun _ _ => w.ledger_drop ref⟩
    · obtain ⟨rfl, rfl⟩ := Prod.mk.inj h
      exact ⟨.inl rfl, by simp⟩
  | createVolume name =>
    simp only [perform] at h
    split at h
    · exact (podmanCall_ledger h rfl).1
    · exact (podmanCall_ledger h rfl).1
  | volumeExists name =>
    simp only [perform] at h
    exact (podmanCall_ledger h rfl).1
  | removeVolume name =>
    simp only [perform] at h
    split at h
    · obtain ⟨rfl, rfl⟩ := Prod.mk.inj h
      rfl
    · exact (podmanCall_ledger h rfl).1
  | secretExists name =>
    simp only [perform] at h
    exact (podmanCall_ledger h rfl).1
  | secretValue name =>
    simp only [perform] at h
    exact (podmanCall_ledger h rfl).1
  | putSecret name value =>
    simp only [perform] at h
    split at h
    · obtain ⟨rfl, rfl⟩ := Prod.mk.inj h
      rfl
    · exact (podmanCall_ledger h rfl).1
  | removeSecret name =>
    simp only [perform] at h
    exact (podmanCall_ledger h rfl).1
  | start ref =>
    simp only [perform] at h
    split at h
    · exact (podmanCall_ledger h (w.ledger_boot A ref)).1
    · obtain ⟨rfl, rfl⟩ := Prod.mk.inj h
      rfl
  | stop ref timeout =>
    simp only [perform] at h
    split at h
    · exact (podmanCall_ledger h (w.ledger_halt ref ch.code)).1
    · obtain ⟨rfl, rfl⟩ := Prod.mk.inj h
      rfl
  | waitForExit ref timeout =>
    simp only [perform] at h
    split at h
    · exact (podmanCall_ledger h rfl).1
    · obtain ⟨rfl, rfl⟩ := Prod.mk.inj h
      rfl
  | logs ref =>
    simp only [perform] at h
    split at h
    · exact (podmanCall_ledger h rfl).1
    · obtain ⟨rfl, rfl⟩ := Prod.mk.inj h
      rfl
  | exec ref cmd =>
    simp only [perform] at h
    split at h
    · split at h
      · exact (podmanCall_ledger h (w.ledger_execIn _ _ ch cmd)).1
      · obtain ⟨rfl, rfl⟩ := Prod.mk.inj h
        rfl
    · obtain ⟨rfl, rfl⟩ := Prod.mk.inj h
      rfl

section Host

variable {A : Agent.Code} {α : Type} {p q : Prog CtlOp α} {w u : World}

theorem hostMachine_ledger {β : Type} {op : CtlOp β} {b : β}
    (h : (hostMachine A).step op w b u) : Ledger.step op w.ledger b u.ledger := by
  obtain ⟨ch, h⟩ := h
  change CtlOp.perform A op ch w = (b, u) at h
  cases op with
  | registry op =>
    obtain ⟨rfl, rfl⟩ := Prod.mk.inj h
    exact RegistryOp.ledger_step rfl
  | podman op => exact PodmanOp.ledger_step h
  | host op =>
    obtain ⟨-, rfl⟩ := Prod.mk.inj h
    rfl

/-- **Refinement**: a run on the host is a run on its ledger. -/
theorem hostMachine_reach (h : (hostMachine A).Reach p w q u) :
    Ledger.machine.Reach p w.ledger q u.ledger := by
  refine h.simulate World.ledger (fun _ _ _ _ _ hstep => hostMachine_ledger hstep) fun s t hd => ?_
  obtain ⟨d, rfl⟩ := hd
  exact s.ledger_drift d

end Host

end Pgpod
