import Pgpod.Agent.Elf

/-!
# What the traversal reaches

Without the names seen, each file that a root leads to would look up all it needs.  The
traversal looks each name up once, for the first file that asks for it, and visits what
it finds; and it ends.
-/

namespace Pgpod

namespace Elf

/-- A file that a root leads to, with the search paths of the files on the way. -/
inductive Reached (fs : FileSystem) (roots : List PathBuf) : PathBuf → List PathBuf → Prop
  | root {path : PathBuf} : path ∈ roots → Reached fs roots path []
  | library {path found : PathBuf} {inherited : List PathBuf} {info : DynamicInfo} {name : String} :
    Reached fs roots path inherited → fs.dynamicInfo path = .ok (some info) → name ∈ info.needed →
    isGlibcCore name = false → findLibrary fs name (info.searchPaths ++ inherited) = some found →
    Reached fs roots found (info.searchPaths ++ inherited)

/-- A file that is reached needs the name, and would look for it on these paths. -/
def Wants (fs : FileSystem) (roots search : List PathBuf) (name : String) : Prop :=
  ∃ path inherited info, Reached fs roots path inherited ∧ fs.dynamicInfo path = .ok (some info) ∧
    name ∈ info.needed ∧ isGlibcCore name = false ∧ search = info.searchPaths ++ inherited

theorem Wants.reached {fs : FileSystem} {roots search : List PathBuf} {name : String}
    (h : Wants fs roots search name) {found : PathBuf}
    (hfound : findLibrary fs name search = some found) : Reached fs roots found search := by
  obtain ⟨path, inherited, info, hreached, hinfo, hname, hcore, rfl⟩ := h
  exact .library hreached hinfo hname hcore hfound

/-! ## Who asks for what -/

/-- A name, and the paths it is looked for on. -/
abbrev Ask := String × List PathBuf

/-- The names outside the glibc core, on these paths. -/
def asks (search : List PathBuf) (names : List String) : List Ask :=
  (names.filter fun name => !isGlibcCore name).map fun name => (name, search)

/-- What a file asks for: on its own search paths, and on those of the files that led to it. -/
def asksOf (fs : FileSystem) (path : PathBuf) (inherited : List PathBuf) : List Ask :=
  match fs.dynamicInfo path with
  | .ok (some info) => asks (info.searchPaths ++ inherited) info.needed
  | _ => []

def answer (fs : FileSystem) (ask : Ask) : Option PathBuf := findLibrary fs ask.1 ask.2

/-- What the answer asks for. -/
def follow (fs : FileSystem) (ask : Ask) : List Ask :=
  match answer fs ask with
  | some lib => asksOf fs lib ask.2
  | none => []

def rootAsks (fs : FileSystem) (roots : List PathBuf) : List Ask :=
  roots.flatMap fun root => asksOf fs root []

/-- The first to ask for its name: the roots ask in their order, and after them what was found, in
the order in which it was asked for. -/
def FirstAsked (fs : FileSystem) (roots : List PathBuf) (ask : Ask) : Prop :=
  ∃ n, ask ∈ Worklist.rounds Prod.fst (follow fs) (rootAsks fs roots) n

/-- A root cannot be read, or a library that is found for the first who asks for it. -/
def Unreadable (fs : FileSystem) (roots : List PathBuf) : Prop :=
  (∃ root ∈ roots, ∃ e, fs.dynamicInfo root = .error e) ∨
    ∃ ask lib e, FirstAsked fs roots ask ∧ answer fs ask = some lib ∧ fs.dynamicInfo lib = .error e

/-- Nothing is looked up for a file without a dynamic section. -/
def infoOf (o : Option DynamicInfo) : DynamicInfo := o.getD ⟨[], []⟩

section Asks

variable {fs : FileSystem} {roots : List PathBuf}

theorem mem_asks {search : List PathBuf} {names : List String} {ask : Ask} :
    ask ∈ asks search names ↔ ask.1 ∈ names ∧ isGlibcCore ask.1 = false ∧ ask.2 = search := by
  rw [asks, List.mem_map]
  constructor
  · rintro ⟨name, hname, rfl⟩
    rw [List.mem_filter, Bool.not_eq_true'] at hname
    exact ⟨hname.1, hname.2, rfl⟩
  · rintro ⟨hname, hplain, rfl⟩
    exact ⟨ask.1, List.mem_filter.mpr ⟨hname, by rw [hplain]; rfl⟩, rfl⟩

theorem asksOf_eq {path : PathBuf} {o : Option DynamicInfo} (h : fs.dynamicInfo path = .ok o)
    (inherited : List PathBuf) :
    asksOf fs path inherited = asks ((infoOf o).searchPaths ++ inherited) (infoOf o).needed := by
  rw [asksOf, h]
  cases o <;> rfl

theorem mem_asksOf {path : PathBuf} {inherited : List PathBuf} {ask : Ask} :
    ask ∈ asksOf fs path inherited ↔ ∃ info, fs.dynamicInfo path = .ok (some info) ∧
      ask.1 ∈ info.needed ∧ isGlibcCore ask.1 = false ∧ ask.2 = info.searchPaths ++ inherited := by
  rw [asksOf]
  split
  · next info hinfo =>
    rw [mem_asks]
    constructor
    · intro h
      exact ⟨info, hinfo, h⟩
    · rintro ⟨info', hinfo', h⟩
      obtain rfl := Option.some.inj (Except.ok.inj (hinfo.symm.trans hinfo'))
      exact h
  · next hnone =>
    constructor
    · intro h
      cases h
    · rintro ⟨info, hinfo, -⟩
      exact absurd hinfo (hnone info)

theorem mem_follow {ask next : Ask} :
    next ∈ follow fs ask ↔ ∃ lib, answer fs ask = some lib ∧ next ∈ asksOf fs lib ask.2 := by
  rw [follow]
  cases answer fs ask with
  | none => simp
  | some lib => simp

/-- A file that is a root asks for no name that the roots do not ask for. -/
theorem exists_rootAsk {root : PathBuf} (hroot : root ∈ roots) {inherited : List PathBuf}
    {ask : Ask} (h : ask ∈ asksOf fs root inherited) : ∃ first ∈ rootAsks fs roots, first.1 = ask.1 := by
  obtain ⟨info, hinfo, hname, hplain, -⟩ := mem_asksOf.mp h
  refine ⟨(ask.1, info.searchPaths ++ []), ?_, rfl⟩
  exact List.mem_flatMap.mpr ⟨root, hroot, mem_asksOf.mpr ⟨info, hinfo, hname, hplain, rfl⟩⟩

/-- Who asks first is a file that is reached. -/
theorem FirstAsked.wants {ask : Ask} (h : FirstAsked fs roots ask) : Wants fs roots ask.2 ask.1 := by
  obtain ⟨n, hn⟩ := h
  refine Worklist.rounds_induction (P := fun ask => Wants fs roots ask.2 ask.1)
    (fun ask hask => ?_) (fun ask hask next hnext => ?_) hn
  · obtain ⟨root, hroot, hask⟩ := List.mem_flatMap.mp hask
    obtain ⟨info, hinfo, hname, hplain, hsearch⟩ := mem_asksOf.mp hask
    exact ⟨root, [], info, .root hroot, hinfo, hname, hplain, hsearch⟩
  · obtain ⟨lib, hlib, hnext⟩ := mem_follow.mp hnext
    obtain ⟨info, hinfo, hname, hplain, hsearch⟩ := mem_asksOf.mp hnext
    exact ⟨lib, ask.2, info, hask.reached hlib, hinfo, hname, hplain, hsearch⟩

end Asks

section Traversal

variable {fs : FileSystem} {roots skipBelow : List PathBuf}

/-! ## One look-up after another -/

/-- What a list of look-ups does: the names are seen, and each that is new pays for what is found. -/
structure LookedUp (fs : FileSystem) (names : List String) (s : State) (out : State × List Item) :
    Prop where
  resolved : out.1.resolved = s.resolved
  seen : ∀ name, name ∈ out.1.seenNames ↔ name ∈ s.seenNames ∨ name ∈ names
  pays : names.toFinset ⊆ fs.names →
    (fs.names \ out.1.seenNames).card + out.2.length ≤ (fs.names \ s.seenNames).card

/-- What the look-up of one new name adds to the queue. -/
def fetched (fs : FileSystem) (wanted : String → Bool) (search : List PathBuf) (name : String) :
    List Item :=
  if wanted name then ((findLibrary fs name search).map fun lib => (lib, search)).toList else []

theorem length_fetched (wanted : String → Bool) (search : List PathBuf) (name : String) :
    (fetched fs wanted search name).length ≤ 1 := by
  rw [fetched]
  split_ifs
  · cases findLibrary fs name search <;> simp
  · simp

theorem lookUp_new {wanted : String → Bool} {search : List PathBuf} {name : String}
    {names : List String} {s : State} (h : name ∉ s.seenNames) :
    lookUp fs wanted search (name :: names) s =
      let rest := lookUp fs wanted search names { s with seenNames := insert name s.seenNames }
      (rest.1, fetched fs wanted search name ++ rest.2) := by
  rw [lookUp, if_neg h, fetched]
  dsimp only
  by_cases hwanted : wanted name = true
  · rw [hwanted]
    cases findLibrary fs name search <;> rfl
  · rw [Bool.not_eq_true] at hwanted
    rw [hwanted]
    rfl

theorem lookUp_spec (wanted : String → Bool) (search : List PathBuf) (names : List String) (s : State) :
    LookedUp fs names s (lookUp fs wanted search names s) := by
  induction names generalizing s with
  | nil => exact ⟨rfl, by simp [lookUp], by simp [lookUp]⟩
  | cons name names ih =>
    have hsubset (hnames : (name :: names).toFinset ⊆ fs.names) : names.toFinset ⊆ fs.names := by
      intro n hn
      refine hnames ?_
      rw [List.mem_toFinset] at hn ⊢
      exact List.mem_cons_of_mem _ hn
    by_cases hseen : name ∈ s.seenNames
    · rw [lookUp, if_pos hseen]
      have h := ih s
      refine ⟨h.resolved, fun n => ?_, fun hnames => h.pays (hsubset hnames)⟩
      rw [h.seen, List.mem_cons]
      constructor
      · rintro (hn | hn)
        · exact .inl hn
        · exact .inr (.inr hn)
      · rintro (hn | rfl | hn)
        · exact .inl hn
        · exact .inl hseen
        · exact .inr hn
    · have h := ih { s with seenNames := insert name s.seenNames }
      rw [lookUp_new hseen]
      refine ⟨h.resolved, fun n => ?_, fun hnames => ?_⟩
      · rw [h.seen, Finset.mem_insert, List.mem_cons, or_comm (a := n = name), or_assoc]
      · have hname : name ∈ fs.names := hnames (by simp)
        have hless := h.pays (hsubset hnames)
        have hone : (fetched fs wanted search name).length ≤ 1 := length_fetched wanted search name
        have hcard : (fs.names \ insert name s.seenNames).card + 1 = (fs.names \ s.seenNames).card := by
          rw [Finset.sdiff_insert]
          exact Finset.card_erase_add_one (Finset.mem_sdiff.mpr ⟨hname, hseen⟩)
        dsimp only at hless ⊢
        rw [List.length_append]
        omega

theorem needed_subset {path : PathBuf} {info : DynamicInfo} (h : fs.dynamicInfo path = .ok (some info)) :
    info.needed.toFinset ⊆ fs.names := by
  intro name hname
  exact fs.needed_mem h name (List.mem_toFinset.mp hname)

/-- The items that the answers put in the queue. -/
def answers (fs : FileSystem) (list : List Ask) : List Item :=
  list.filterMap fun ask => (answer fs ask).map fun lib => (lib, ask.2)

theorem answers_append (as bs : List Ask) :
    answers fs (as ++ bs) = answers fs as ++ answers fs bs :=
  List.filterMap_append

/-- Neither of the glibc core nor a root. -/
def Fresh (roots : List PathBuf) (item : Item) : Bool :=
  !isGlibcCore item.1.fileName && !roots.contains item.1

/-- Not asked for before. -/
def unseen (s : State) (list : List Ask) : List Ask :=
  (Worklist.firsts Prod.fst list).filter fun ask => ask.1 ∉ s.seenNames

/-- **The look-ups of a file** put in the queue the answers to what it is the first to ask for. -/
theorem lookUp_fresh {wanted : String → Bool}
    (hwanted : ∀ name, isGlibcCore name = false → wanted name = true) (search : List PathBuf)
    (names : List String) (s : State) :
    (lookUp fs wanted search names s).2.filter (Fresh roots) =
      (answers fs (unseen s (asks search names))).filter (Fresh roots) := by
  induction names generalizing s with
  | nil => rfl
  | cons name names ih =>
    cases hplain : isGlibcCore name with
    | true =>
      have hasks : asks search (name :: names) = asks search names := by simp [asks, hplain]
      rw [hasks]
      by_cases hseen : name ∈ s.seenNames
      · rw [lookUp, if_pos hseen, ih]
      · have hfetched : (fetched fs wanted search name).filter (Fresh roots) = [] := by
          rw [fetched]
          split_ifs
          · cases hlib : findLibrary fs name search with
            | none => rfl
            | some lib => simp [Fresh, findLibrary_eq_some hlib, hplain]
          · rfl
        have hsame : unseen { s with seenNames := insert name s.seenNames } (asks search names) =
            unseen s (asks search names) := by
          refine List.filter_congr fun ask hask => ?_
          have hne : ask.1 ≠ name := by
            rintro rfl
            rw [(mem_asks.mp (Worklist.mem_of_mem_firsts hask)).2.1] at hplain
            cases hplain
          simp [hne]
        rw [lookUp_new hseen]
        dsimp only
        rw [List.filter_append, hfetched, List.nil_append, ih, hsame]
    | false =>
      have hasks : asks search (name :: names) = (name, search) :: asks search names := by
        simp [asks, hplain]
      rw [hasks]
      by_cases hseen : name ∈ s.seenNames
      · have hsame : unseen s ((name, search) :: asks search names) = unseen s (asks search names) := by
          rw [unseen, Worklist.firsts, List.filter_cons_of_neg (by simpa using hseen),
            List.filter_filter, unseen]
          refine List.filter_congr fun ask _ => ?_
          by_cases hname : ask.1 = name
          · simp [hname, hseen]
          · simp [hname]
        rw [lookUp, if_pos hseen, ih, hsame]
      · have hsame : unseen s ((name, search) :: asks search names) =
            (name, search) :: unseen { s with seenNames := insert name s.seenNames }
              (asks search names) := by
          rw [unseen, Worklist.firsts, List.filter_cons_of_pos (by simpa using hseen),
            List.filter_filter, unseen]
          congr 1
          refine List.filter_congr fun ask _ => ?_
          simp [Bool.and_comm]
        have hfetched : fetched fs wanted search name = answers fs [(name, search)] := by
          rw [fetched, if_pos (hwanted name hplain)]
          cases hlib : findLibrary fs name search <;> simp [answers, answer, hlib]
        have hcons : answers fs (unseen s ((name, search) :: asks search names)) =
            answers fs [(name, search)] ++ answers fs
              (unseen { s with seenNames := insert name s.seenNames } (asks search names)) := by
          rw [hsame, ← List.singleton_append, answers_append]
        rw [lookUp_new hseen, hcons, hfetched]
        dsimp only
        rw [List.filter_append, List.filter_append, ih]

/-! ## The roots -/

/-- What the roots put in the queue, and the names they need. -/
structure Seeded (fs : FileSystem) (roots : List PathBuf) (s : State) (out : State × List Item) :
    Prop where
  resolved : out.1.resolved = s.resolved
  readable : ∀ root ∈ roots, ∃ o, fs.dynamicInfo root = .ok o
  seen : ∀ name, isGlibcCore name = false →
    (name ∈ out.1.seenNames ↔ name ∈ s.seenNames ∨ ∃ ask ∈ rootAsks fs roots, ask.1 = name)
  pays : (fs.names \ out.1.seenNames).card + out.2.length ≤
    roots.length + (fs.names \ s.seenNames).card

theorem exists_asks {search : List PathBuf} {names : List String} {name : String}
    (hplain : isGlibcCore name = false) : (∃ ask ∈ asks search names, ask.1 = name) ↔ name ∈ names := by
  constructor
  · rintro ⟨ask, hask, rfl⟩
    exact (mem_asks.mp hask).1
  · intro hname
    exact ⟨(name, search), mem_asks.mpr ⟨hname, hplain, rfl⟩, rfl⟩

theorem rootAsks_cons (root : PathBuf) (roots : List PathBuf) :
    rootAsks fs (root :: roots) = asksOf fs root [] ++ rootAsks fs roots := by
  rw [rootAsks, List.flatMap_cons]
  rfl

theorem seed_spec {roots : List PathBuf} {s : State} {out : State × List Item}
    (h : seed fs roots s = .ok out) : Seeded fs roots s out := by
  induction roots generalizing s out with
  | nil =>
    obtain rfl := Except.ok.inj h
    exact ⟨rfl, by simp, by simp [rootAsks], by simp⟩
  | cons root roots ih =>
    rw [seed] at h
    cases hinfo : fs.dynamicInfo root with
    | error e =>
      rw [hinfo] at h
      cases h
    | ok info =>
      cases info with
      | none =>
        rw [hinfo] at h
        have hrest := ih h
        refine ⟨hrest.resolved, List.forall_mem_cons.mpr ⟨⟨_, hinfo⟩, hrest.readable⟩,
          fun name hplain => ?_, ?_⟩
        · rw [hrest.seen name hplain, rootAsks_cons, asksOf, hinfo, List.nil_append]
        · have hpays := hrest.pays
          rw [List.length_cons]
          omega
      | some info =>
        rw [hinfo] at h
        dsimp only at h
        generalize hout : lookUp fs (fun _ => true) info.searchPaths info.needed s = looked at h
        have hlook : LookedUp fs info.needed s looked := hout ▸ lookUp_spec _ _ _ _
        cases hseed : seed fs roots looked.1 with
        | error e =>
          rw [hseed] at h
          cases h
        | ok rest =>
          rw [hseed] at h
          obtain rfl := Except.ok.inj h
          have hrest := ih hseed
          refine ⟨hrest.resolved.trans hlook.resolved,
            List.forall_mem_cons.mpr ⟨⟨_, hinfo⟩, hrest.readable⟩, fun name hplain => ?_, ?_⟩
          · rw [hrest.seen name hplain, hlook.seen, or_assoc, rootAsks_cons, asksOf_eq hinfo]
            simp only [List.mem_append, or_and_right, exists_or, exists_asks hplain]
            rfl
          · have hpays := hrest.pays
            have hless := hlook.pays (needed_subset hinfo)
            dsimp only
            rw [List.length_cons, List.cons_append, List.length_cons, List.length_append]
            omega

theorem unseen_append (s : State) (as bs : List Ask) {s' : State}
    (hseen : ∀ ask ∈ bs, ask.1 ∈ s'.seenNames ↔ ask.1 ∈ s.seenNames ∨ ∃ a ∈ as, a.1 = ask.1) :
    unseen s (as ++ bs) = unseen s as ++ unseen s' bs := by
  rw [unseen, Worklist.firsts_append, List.filter_append, List.filter_filter, unseen, unseen]
  congr 1
  refine List.filter_congr fun ask hask => ?_
  rw [← Bool.decide_and, decide_eq_decide, hseen ask (Worklist.mem_of_mem_firsts hask), not_or,
    not_exists]
  simp only [not_and, ne_eq]

/-- The roots put in the queue the answers to what they ask for. -/
theorem seed_fresh {roots' : List PathBuf} {s : State} {out : State × List Item}
    (hsub : ∀ root ∈ roots', root ∈ roots) (h : seed fs roots' s = .ok out) :
    out.2.filter (Fresh roots) = (answers fs (unseen s (rootAsks fs roots'))).filter (Fresh roots) := by
  induction roots' generalizing s out with
  | nil =>
    obtain rfl := Except.ok.inj h
    rfl
  | cons root roots' ih =>
    rw [List.forall_mem_cons] at hsub
    rw [seed] at h
    cases hinfo : fs.dynamicInfo root with
    | error e =>
      rw [hinfo] at h
      cases h
    | ok info =>
      rw [rootAsks_cons, asksOf_eq hinfo]
      cases info with
      | none =>
        rw [hinfo] at h
        exact ih hsub.2 h
      | some info =>
        rw [hinfo] at h
        dsimp only at h
        generalize hout : lookUp fs (fun _ => true) info.searchPaths info.needed s = looked at h
        have hlook : LookedUp fs info.needed s looked := hout ▸ lookUp_spec _ _ _ _
        cases hseed : seed fs roots' looked.1 with
        | error e =>
          rw [hseed] at h
          cases h
        | ok rest =>
          rw [hseed] at h
          obtain rfl := Except.ok.inj h
          have hstale : Fresh roots (root, info.searchPaths) = false := by simp [Fresh, hsub.1]
          have hfound := @lookUp_fresh fs roots (fun _ => true) (fun _ _ => rfl) info.searchPaths
            info.needed s
          rw [hout] at hfound
          have hseen : ∀ ask ∈ rootAsks fs roots', ask.1 ∈ looked.1.seenNames ↔ ask.1 ∈ s.seenNames ∨
              ∃ a ∈ asks (info.searchPaths ++ []) info.needed, a.1 = ask.1 := by
            intro ask hask
            obtain ⟨r, -, hask⟩ := List.mem_flatMap.mp hask
            obtain ⟨-, -, -, hplain, -⟩ := mem_asksOf.mp hask
            rw [hlook.seen, exists_asks hplain]
          change ((root, info.searchPaths) :: (looked.2 ++ rest.2)).filter _ = (answers fs
            (unseen s (asks (info.searchPaths ++ []) info.needed ++ rootAsks fs roots'))).filter _
          rw [List.filter_cons_of_neg (by rw [hstale]; exact Bool.false_ne_true), List.filter_append,
            hfound, ih hsub.2 hseed, unseen_append s _ _ hseen, answers_append, List.filter_append,
            List.append_nil]

theorem seed_error {roots : List PathBuf} {s : State} {e : String} (h : seed fs roots s = .error e) :
    ∃ root ∈ roots, ∃ e', fs.dynamicInfo root = .error e' := by
  induction roots generalizing s e with
  | nil => cases h
  | cons root roots ih =>
    rw [List.exists_mem_cons_iff]
    rw [seed] at h
    cases hinfo : fs.dynamicInfo root with
    | error e' => exact .inl ⟨e', rfl⟩
    | ok o =>
      rw [hinfo] at h
      refine .inr ?_
      cases o with
      | none => exact ih h
      | some info =>
        dsimp only at h
        split at h
        · next hseed => exact ih hseed
        · cases h

/-! ## A visit -/

def Below (skipBelow : List PathBuf) (path : PathBuf) : Prop :=
  skipBelow.any (fun d => path.startsWith d) = true

theorem visit_core {s : State} {item : Item} (hcore : isGlibcCore item.1.fileName = true) :
    visit fs roots skipBelow s item = .ok (s, []) := by
  simp [visit, hcore]

/-- A file outside the glibc core is staged, unless it is elsewhere, and looks up what it needs. -/
theorem visit_spec {s : State} {item : Item} {out : State × List Item}
    (hcore : isGlibcCore item.1.fileName = false)
    (h : visit fs roots skipBelow s item = .ok out) :
    ∃ s₁ o, fs.dynamicInfo item.1 = .ok o ∧ s₁.seenNames = s.seenNames ∧
      (∀ f, f ∈ s₁.resolved ↔ f ∈ s.resolved ∨ f = item.1 ∧ ¬ Below skipBelow item.1 ∧ item.1 ∉ roots) ∧
      LookedUp fs (infoOf o).needed s₁ out ∧
      out.2.filter (Fresh roots) =
        (answers fs (unseen s₁ (asksOf fs item.1 item.2))).filter (Fresh roots) := by
  let s₁ : State :=
    if !skipBelow.any (fun d => item.1.startsWith d) && !roots.contains item.1 then
      { s with resolved := insert item.1 s.resolved } else s
  have hseen : s₁.seenNames = s.seenNames := by
    dsimp only [s₁]
    split_ifs <;> rfl
  have hresolved (f : PathBuf) : f ∈ s₁.resolved ↔
      f ∈ s.resolved ∨ f = item.1 ∧ ¬ Below skipBelow item.1 ∧ item.1 ∉ roots := by
    dsimp only [s₁]
    split_ifs with hstage
    · rw [Bool.and_eq_true, Bool.not_eq_true', Bool.not_eq_true', List.contains_eq_mem,
        decide_eq_false_iff_not] at hstage
      rw [Finset.mem_insert, Below, hstage.1, or_comm]
      simp [hstage.2]
    · rw [Bool.and_eq_true, Bool.not_eq_true', Bool.not_eq_true', List.contains_eq_mem,
        decide_eq_false_iff_not, ← Bool.not_eq_true] at hstage
      constructor
      · exact .inl
      · rintro (hf | ⟨-, hstaged⟩)
        · exact hf
        · exact absurd hstaged hstage
  rw [visit, hcore] at h
  cases hinfo : fs.dynamicInfo item.1 with
  | error e =>
    rw [hinfo] at h
    cases h
  | ok o =>
    rw [hinfo] at h
    have hout : out = lookUp fs (fun name => !isGlibcCore name) ((infoOf o).searchPaths ++ item.2)
        (infoOf o).needed s₁ := by
      cases o with
      | none => exact (Except.ok.inj h).symm
      | some info => exact (Except.ok.inj h).symm
    rw [hout, asksOf_eq hinfo]
    exact ⟨s₁, o, rfl, hseen, hresolved, lookUp_spec _ _ _ _,
      lookUp_fresh (fun name hplain => by rw [hplain]; rfl) _ _ _⟩

theorem visit_error {s : State} {item : Item} {e : String}
    (h : visit fs roots skipBelow s item = .error e) :
    isGlibcCore item.1.fileName = false ∧ fs.dynamicInfo item.1 = .error e := by
  cases hcore : isGlibcCore item.1.fileName with
  | true =>
    rw [visit_core hcore] at h
    cases h
  | false =>
    refine ⟨rfl, ?_⟩
    rw [visit, hcore] at h
    cases hinfo : fs.dynamicInfo item.1 with
    | error e' =>
      rw [hinfo] at h
      have hsame : (Except.error e' : Except String (State × List Item)) = .error e := h
      rw [Except.error.inj hsame]
    | ok o =>
      rw [hinfo] at h
      cases o <;> cases h

/-! ## The invariant -/

/-- Between two visits: of the first asks some are done with, and the queue has the answers to the
others. -/
structure Asking (fs : FileSystem) (roots skipBelow : List PathBuf) (s : State) (queue : List Item)
    (done pending : List Ask) : Prop where
  worked : Worklist.WorkedOff Prod.fst (follow fs) (rootAsks fs roots) done pending
  seen : ∀ name, isGlibcCore name = false →
    (name ∈ s.seenNames ↔ ∃ ask ∈ rootAsks fs roots ++ done.flatMap (follow fs), ask.1 = name)
  queued : queue.filter (Fresh roots) = (answers fs pending).filter (Fresh roots)
  readable : ∀ ask ∈ done, ∀ lib, answer fs ask = some lib → ∃ o, fs.dynamicInfo lib = .ok o
  resolved : ∀ path, path ∈ s.resolved ↔
    (∃ ask ∈ done, answer fs ask = some path) ∧ ¬ Below skipBelow path ∧ path ∉ roots

/-- What cannot be read of it was found for one who asks first. -/
theorem Asking.firstAsked {s : State} {queue : List Item} {done pending : List Ask}
    (h : Asking fs roots skipBelow s queue done pending) {ask : Ask} (hask : ask ∈ done ++ pending) :
    FirstAsked fs roots ask := by
  obtain ⟨n, hn⟩ := h.worked.within
  exact ⟨n, hn.subset hask⟩

section Readable

variable (hroots : ∀ root ∈ roots, ∃ o, fs.dynamicInfo root = .ok o)

include hroots

/-- An ask without an answer, or with a root for one, is done with. -/
theorem Asking.skip {s : State} {queue : List Item} {done pending : List Ask} {ask : Ask}
    (h : Asking fs roots skipBelow s queue done (ask :: pending))
    (hstale : ∀ lib, answer fs ask = some lib → lib ∈ roots) :
    Asking fs roots skipBelow s queue (done ++ [ask]) pending := by
  have hold : ∀ next ∈ follow fs ask, ∃ first ∈ rootAsks fs roots ++ done.flatMap (follow fs),
      first.1 = next.1 := by
    intro next hnext
    obtain ⟨lib, hlib, hnext⟩ := mem_follow.mp hnext
    obtain ⟨first, hfirst, hname⟩ := exists_rootAsk (hstale lib hlib) hnext
    exact ⟨first, List.mem_append_left _ hfirst, hname⟩
  refine ⟨h.worked.skip hold, fun name hplain => ?_, ?_, ?_, fun path => ?_⟩
  · rw [h.seen name hplain, List.flatMap_append, List.flatMap_singleton, ← List.append_assoc]
    constructor
    · rintro ⟨first, hfirst, hname⟩
      exact ⟨first, List.mem_append_left _ hfirst, hname⟩
    · rintro ⟨first, hfirst, rfl⟩
      obtain hfirst | hfirst := List.mem_append.mp hfirst
      · exact ⟨first, hfirst, rfl⟩
      · exact hold first hfirst
  · rw [h.queued, answers, List.filterMap_cons]
    cases hlib : answer fs ask with
    | none => rfl
    | some lib =>
      have hroot : Fresh roots (lib, ask.2) = false := by simp [Fresh, hstale lib hlib]
      exact List.filter_cons_of_neg (by rw [hroot]; exact Bool.false_ne_true)
  · simp only [List.forall_mem_append, List.forall_mem_singleton]
    exact ⟨h.readable, fun lib hlib => hroots lib (hstale lib hlib)⟩
  · rw [h.resolved path]
    constructor
    · rintro ⟨⟨first, hfirst, hpath⟩, hrest⟩
      exact ⟨⟨first, List.mem_append_left _ hfirst, hpath⟩, hrest⟩
    · rintro ⟨⟨first, hfirst, hpath⟩, hbelow, hroot⟩
      obtain hfirst | hfirst := List.mem_append.mp hfirst
      · exact ⟨⟨first, hfirst, hpath⟩, hbelow, hroot⟩
      · rw [List.mem_singleton.mp hfirst] at hpath
        exact absurd (hstale path hpath) hroot

/-- Either all is done with, or the next ask found the fresh item that is first in the queue. -/
theorem Asking.settle {s : State} {queue : List Item} {done pending : List Ask}
    (h : Asking fs roots skipBelow s queue done pending) :
    (queue.filter (Fresh roots) = [] ∧ ∃ done, Asking fs roots skipBelow s queue done []) ∨
      ∃ done ask pending lib, Asking fs roots skipBelow s queue done (ask :: pending) ∧
        answer fs ask = some lib ∧
        queue.filter (Fresh roots) = (lib, ask.2) :: (answers fs pending).filter (Fresh roots) := by
  induction pending generalizing done with
  | nil => exact .inl ⟨h.queued, done, h⟩
  | cons ask pending ih =>
    by_cases hstale : ∀ lib, answer fs ask = some lib → lib ∈ roots
    · exact ih (h.skip hroots hstale)
    · push Not at hstale
      obtain ⟨lib, hlib, hroot⟩ := hstale
      obtain ⟨-, -, -, -, -, -, hplain, -⟩ :=
        (h.firstAsked (List.mem_append_right _ List.mem_cons_self)).wants
      have hfresh : Fresh roots (lib, ask.2) = true := by
        simp [Fresh, findLibrary_eq_some hlib, hplain, hroot]
      refine .inr ⟨done, ask, pending, lib, h, hlib, ?_⟩
      rw [h.queued, answers, List.filterMap_cons, hlib]
      exact List.filter_cons_of_pos hfresh

end Readable

/-- A visit of a root, or of a file of the glibc core, brings nothing. -/
theorem Asking.visit_stale {s s' : State} {item : Item} {queue found : List Item}
    {done pending : List Ask} (h : Asking fs roots skipBelow s (item :: queue) done pending)
    (hstale : Fresh roots item = false) (hvisit : visit fs roots skipBelow s item = .ok (s', found)) :
    Asking fs roots skipBelow s' (queue ++ found) done pending := by
  have hqueue : queue.filter (Fresh roots) = (answers fs pending).filter (Fresh roots) := by
    rw [← h.queued, List.filter_cons_of_neg (by rw [hstale]; exact Bool.false_ne_true)]
  cases hcore : isGlibcCore item.1.fileName with
  | true =>
    rw [visit_core hcore] at hvisit
    obtain ⟨rfl, rfl⟩ := Prod.mk.inj (Except.ok.inj hvisit)
    rw [List.append_nil]
    exact ⟨h.worked, h.seen, hqueue, h.readable, h.resolved⟩
  | false =>
    have hroot : item.1 ∈ roots := by simpa [Fresh, hcore] using hstale
    obtain ⟨s₁, o, hinfo, hseen, hresolved, hlook, hfresh⟩ := visit_spec hcore hvisit
    -- the root has asked for all its names before
    have hold : ∀ ask ∈ asksOf fs item.1 item.2, ask.1 ∈ s.seenNames := by
      intro ask hask
      obtain ⟨-, -, -, hplain, -⟩ := mem_asksOf.mp hask
      obtain ⟨first, hfirst, hname⟩ := exists_rootAsk hroot hask
      exact (h.seen ask.1 hplain).mpr ⟨first, List.mem_append_left _ hfirst, hname⟩
    have hnone : unseen s₁ (asksOf fs item.1 item.2) = [] := by
      rw [unseen, List.filter_eq_nil_iff]
      intro ask hask
      rw [hseen]
      simpa using hold ask (Worklist.mem_of_mem_firsts hask)
    rw [hnone] at hfresh
    rw [asksOf_eq hinfo] at hold
    refine ⟨h.worked, fun name hplain => ?_, ?_, h.readable, fun path => ?_⟩
    · rw [hlook.seen, hseen, ← h.seen name hplain, or_iff_left_iff_imp]
      exact fun hname => hold (name, _) (mem_asks.mpr ⟨hname, hplain, rfl⟩)
    · rw [List.filter_append, hfresh, hqueue]
      exact List.append_nil _
    · rw [hlook.resolved, hresolved, ← h.resolved path, or_iff_left_iff_imp]
      rintro ⟨-, -, hout⟩
      exact absurd hroot hout

/-- A visit of a fresh file is done with one ask, and adds those that are new. -/
theorem Asking.visit_fresh {s s' : State} {ask : Ask} {item : Item} {queue found : List Item}
    {done pending : List Ask} (h : Asking fs roots skipBelow s (item :: queue) done (ask :: pending))
    (hlib : answer fs ask = some item.1) (hsearch : ask.2 = item.2) (hfresh : Fresh roots item = true)
    (hvisit : visit fs roots skipBelow s item = .ok (s', found)) :
    ∃ new, Asking fs roots skipBelow s' (queue ++ found) (done ++ [ask]) (pending ++ new) := by
  have hcore : isGlibcCore item.1.fileName = false := by
    rw [Fresh, Bool.and_eq_true, Bool.not_eq_true'] at hfresh
    exact hfresh.1
  obtain ⟨s₁, o, hinfo, hseen, hresolved, hlook, hfound⟩ := visit_spec hcore hvisit
  have hfollow : follow fs ask = asksOf fs item.1 item.2 := by
    rw [follow, hlib, hsearch]
  have hnew : unseen s₁ (follow fs ask) = (Worklist.firsts Prod.fst (follow fs ask)).filter
      fun b => ∀ c ∈ rootAsks fs roots ++ done.flatMap (follow fs), c.1 ≠ b.1 := by
    refine List.filter_congr fun b hb => ?_
    have hplain : isGlibcCore b.1 = false := by
      rw [hfollow, asksOf_eq hinfo] at hb
      exact (mem_asks.mp (Worklist.mem_of_mem_firsts hb)).2.1
    rw [decide_eq_decide, hseen, h.seen b.1 hplain]
    push Not
    rfl
  refine ⟨_, h.worked.step, fun name hplain => ?_, ?_, ?_, fun path => ?_⟩
  · rw [hlook.seen, hseen, h.seen name hplain, List.flatMap_append, List.flatMap_singleton,
      ← List.append_assoc, hfollow, asksOf_eq hinfo]
    simp only [List.mem_append, or_and_right, exists_or, exists_asks hplain]
  · have hqueued := h.queued
    rw [List.filter_cons_of_pos hfresh, answers, List.filterMap_cons, hlib] at hqueued
    have hrest : queue.filter (Fresh roots) = (answers fs pending).filter (Fresh roots) :=
      (List.cons.inj (hqueued.trans (List.filter_cons_of_pos hfresh))).2
    rw [List.filter_append, hrest, hfound, ← hfollow, hnew, ← List.filter_append, ← answers_append]
  · simp only [List.forall_mem_append, List.forall_mem_singleton]
    refine ⟨h.readable, fun lib' hlib' => ?_⟩
    obtain rfl := Option.some.inj (hlib.symm.trans hlib')
    exact ⟨o, hinfo⟩
  · rw [hlook.resolved, hresolved, h.resolved path]
    simp only [List.mem_append, List.mem_singleton, or_and_right, exists_or, exists_eq_left, hlib,
      Option.some.injEq]
    constructor
    · rintro (hold | ⟨rfl, hstaged⟩)
      · exact .inl hold
      · exact .inr ⟨rfl, hstaged⟩
    · rintro (hold | ⟨rfl, hstaged⟩)
      · exact .inl hold
      · exact .inr ⟨rfl, hstaged⟩

/-! ## The whole traversal -/

theorem visit_pays {s s' : State} {item : Item} {found : List Item}
    (h : visit fs roots skipBelow s item = .ok (s', found)) :
    (fs.names \ s'.seenNames).card + found.length ≤ (fs.names \ s.seenNames).card := by
  by_cases hcore : isGlibcCore item.1.fileName = true
  · rw [visit_core hcore] at h
    obtain ⟨rfl, rfl⟩ := Prod.mk.inj (Except.ok.inj h)
    simp
  · rw [Bool.not_eq_true] at hcore
    obtain ⟨s₁, o, hinfo, hseen, -, hlook, -⟩ := visit_spec hcore h
    have hsubset : (infoOf o).needed.toFinset ⊆ fs.names := by
      cases o with
      | none => simp [infoOf]
      | some info => exact needed_subset hinfo
    rw [← hseen]
    exact hlook.pays hsubset

/-- **The traversal ends**, whatever the files need of each other. -/
theorem resolveDependencies_isSome (fs : FileSystem) (roots skipBelow : List PathBuf) :
    (resolveDependencies fs roots skipBelow).isSome := by
  rw [resolveDependencies, resolveWithin]
  cases hseed : seed fs roots ⟨∅, ∅⟩ with
  | error e => rfl
  | ok out =>
    have hpays := (seed_spec hseed).pays
    rw [Finset.sdiff_empty] at hpays
    dsimp only
    rw [Option.isSome_map]
    exact Worklist.run_isSome (fun s => (fs.names \ s.seenNames).card) (fun h => visit_pays h) hpays

/-- At the start all first asks are those of the roots. -/
theorem asking_seed {out : State × List Item} (h : seed fs roots ⟨∅, ∅⟩ = .ok out) :
    Asking fs roots skipBelow out.1 out.2 [] (Worklist.firsts Prod.fst (rootAsks fs roots)) := by
  have hseed := seed_spec h
  refine ⟨.begin, fun name hplain => ?_, ?_, fun ask hask => absurd hask List.not_mem_nil,
    fun path => ?_⟩
  · rw [hseed.seen name hplain, List.flatMap_nil, List.append_nil]
    simp
  · have hall : unseen ⟨∅, ∅⟩ (rootAsks fs roots) = Worklist.firsts Prod.fst (rootAsks fs roots) :=
      List.filter_eq_self.mpr fun ask _ => by simp
    rw [seed_fresh (fun root hroot => hroot) h, hall]
  · rw [hseed.resolved]
    simp

def UnderWay (fs : FileSystem) (roots skipBelow : List PathBuf) (s : State) (queue : List Item) :
    Prop :=
  ∃ done pending, Asking fs roots skipBelow s queue done pending

theorem underWay_visit (hroots : ∀ root ∈ roots, ∃ o, fs.dynamicInfo root = .ok o) {s s' : State}
    {item : Item} {queue found : List Item}
    (hI : UnderWay fs roots skipBelow s (item :: queue))
    (h : visit fs roots skipBelow s item = .ok (s', found)) :
    UnderWay fs roots skipBelow s' (queue ++ found) := by
  obtain ⟨done, pending, hI⟩ := hI
  cases hfresh : Fresh roots item with
  | false => exact ⟨done, pending, hI.visit_stale hfresh h⟩
  | true =>
    obtain ⟨hempty, -⟩ | ⟨done, ask, pending, lib, hI, hlib, hfirst⟩ := hI.settle hroots
    · rw [List.filter_cons_of_pos hfresh] at hempty
      cases hempty
    · rw [List.filter_cons_of_pos hfresh] at hfirst
      obtain rfl := (List.cons.inj hfirst).1
      obtain ⟨new, hnew⟩ := hI.visit_fresh hlib rfl hfresh h
      exact ⟨_, _, hnew⟩

/-- **A traversal that ends with a set** read all that was found for those who ask first; and that
is the set, without the roots and what is staged already. -/
theorem resolveDependencies_ok {set : Finset PathBuf}
    (h : resolveDependencies fs roots skipBelow = some (.ok set)) :
    ¬ Unreadable fs roots ∧ ∀ path, path ∈ set ↔
      (∃ ask, FirstAsked fs roots ask ∧ answer fs ask = some path) ∧ ¬ Below skipBelow path ∧
        path ∉ roots := by
  rw [resolveDependencies, resolveWithin] at h
  cases hseed : seed fs roots ⟨∅, ∅⟩ with
  | error e =>
    rw [hseed] at h
    cases h
  | ok out =>
    rw [hseed] at h
    obtain ⟨result, hrun, hresult⟩ := Option.map_eq_some_iff.mp h
    cases result with
    | error e => cases hresult
    | ok s =>
      obtain rfl := Except.ok.inj hresult
      have hroots := (seed_spec hseed).readable
      have hstart : UnderWay fs roots skipBelow out.1 out.2 := ⟨_, _, asking_seed hseed⟩
      obtain ⟨done, pending, hend⟩ := Worklist.run_ok (underWay_visit hroots) hstart hrun
      obtain ⟨-, done, hdone⟩ | ⟨done, ask, pending, lib, -, -, hfirst⟩ := hend.settle hroots
      · refine ⟨?_, fun path => ?_⟩
        · rintro (⟨root, hroot, e, he⟩ | ⟨ask, lib, e, hfirst, hlib, he⟩)
          · obtain ⟨o, ho⟩ := hroots root hroot
            cases ho.symm.trans he
          · obtain ⟨o, ho⟩ := hdone.readable ask (hdone.worked.mem_iff.mpr hfirst) lib hlib
            cases ho.symm.trans he
        · rw [hdone.resolved]
          simp only [hdone.worked.mem_iff]
          rfl
      · cases hfirst

/-- A traversal that fails met a file that cannot be read. -/
theorem resolveDependencies_error {e : String}
    (h : resolveDependencies fs roots skipBelow = some (.error e)) : Unreadable fs roots := by
  rw [resolveDependencies, resolveWithin] at h
  cases hseed : seed fs roots ⟨∅, ∅⟩ with
  | error e => exact .inl (seed_error hseed)
  | ok out =>
    rw [hseed] at h
    obtain ⟨result, hrun, hresult⟩ := Option.map_eq_some_iff.mp h
    cases result with
    | ok s => cases hresult
    | error e =>
      have hroots := (seed_spec hseed).readable
      have hstart : UnderWay fs roots skipBelow out.1 out.2 := ⟨_, _, asking_seed hseed⟩
      obtain ⟨s, item, queue, ⟨done, pending, hI⟩, hvisit⟩ :=
        Worklist.run_error (underWay_visit hroots) hstart hrun
      obtain ⟨hcore, he⟩ := visit_error hvisit
      have hfresh : Fresh roots item = true := by
        rw [Fresh, hcore, Bool.not_false, Bool.true_and, Bool.not_eq_true', List.contains_eq_mem,
          decide_eq_false_iff_not]
        intro hroot
        obtain ⟨o, ho⟩ := hroots item.1 hroot
        cases ho.symm.trans he
      obtain ⟨hempty, -⟩ | ⟨done, ask, pending, lib, hI, hlib, hfirst⟩ := hI.settle hroots
      · rw [List.filter_cons_of_pos hfresh] at hempty
        cases hempty
      · rw [List.filter_cons_of_pos hfresh] at hfirst
        obtain rfl := (List.cons.inj hfirst).1
        exact .inr ⟨ask, lib, e, hI.firstAsked (List.mem_append_right _ List.mem_cons_self), hlib, he⟩

end Traversal

end Elf

end Pgpod
