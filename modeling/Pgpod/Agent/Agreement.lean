import Pgpod.Agent.Closure

/-!
# When the traversal misses nothing

A name is looked up for the first file that asks for it, and for no other.  When the first
asks find whatever is to be staged, the order of the roots does not matter and nothing is
missed; a library that no first ask finds is lost.
-/

namespace Pgpod

namespace Elf

/-- What the traversal is for: it ends, the order of the roots does not change the set, and
what any file that is reached finds is in the set, or staged without it. -/
structure Resolves (fs : FileSystem) (roots skipBelow : List PathBuf) : Prop where
  ends : (resolveDependencies fs roots skipBelow).isSome
  unordered : ∀ roots', roots'.Perm roots →
    (resolveDependencies fs roots' skipBelow).map Except.toOption =
      (resolveDependencies fs roots skipBelow).map Except.toOption
  complete : ∀ set, resolveDependencies fs roots skipBelow = some (.ok set) →
    ∀ name search lib, Wants fs roots search name → findLibrary fs name search = some lib →
      lib ∈ set ∨ Below skipBelow lib ∨ lib ∈ roots

/-- In this order of the roots every file that matters can be read, and what a file finds and is to
be staged is found for one that asks first. -/
structure FirstAsksSuffice (fs : FileSystem) (roots skipBelow : List PathBuf) : Prop where
  readable : ¬ Unreadable fs roots
  found : ∀ name search lib, Wants fs roots search name → findLibrary fs name search = some lib →
    ¬ Below skipBelow lib → lib ∉ roots → ∃ ask, FirstAsked fs roots ask ∧ answer fs ask = some lib

variable {fs : FileSystem} {roots roots' skipBelow : List PathBuf}

theorem Reached.perm (h : roots'.Perm roots) {path : PathBuf} {inherited : List PathBuf}
    (hreached : Reached fs roots path inherited) : Reached fs roots' path inherited := by
  induction hreached with
  | root hroot => exact .root (h.mem_iff.mpr hroot)
  | library _ hinfo hname hcore hlib ih => exact .library ih hinfo hname hcore hlib

theorem Wants.perm (h : roots'.Perm roots) {search : List PathBuf} {name : String}
    (hwants : Wants fs roots search name) : Wants fs roots' search name := by
  obtain ⟨path, inherited, info, hreached, hrest⟩ := hwants
  exact ⟨path, inherited, info, hreached.perm h, hrest⟩

/-! ## One order -/

theorem resolveDependencies_cases (fs : FileSystem) (roots skipBelow : List PathBuf) :
    (∃ set, resolveDependencies fs roots skipBelow = some (.ok set)) ∨
      ∃ e, resolveDependencies fs roots skipBelow = some (.error e) := by
  obtain ⟨result, hresult⟩ :=
    Option.isSome_iff_exists.mp (resolveDependencies_isSome fs roots skipBelow)
  cases result with
  | ok set => exact .inl ⟨set, hresult⟩
  | error e => exact .inr ⟨e, hresult⟩

/-- What is in the set is found for some file. -/
theorem mem_resolved {set : Finset PathBuf}
    (h : resolveDependencies fs roots skipBelow = some (.ok set)) {path : PathBuf} (hpath : path ∈ set) :
    (∃ name search, Wants fs roots search name ∧ findLibrary fs name search = some path) ∧
      ¬ Below skipBelow path ∧ path ∉ roots := by
  obtain ⟨⟨ask, hfirst, hlib⟩, hout⟩ := ((resolveDependencies_ok h).2 path).mp hpath
  exact ⟨⟨ask.1, ask.2, hfirst.wants, hlib⟩, hout⟩

/-- **When the first asks suffice**, the set is all that is to be staged. -/
theorem FirstAsksSuffice.resolved (h : FirstAsksSuffice fs roots skipBelow) :
    ∃ set, resolveDependencies fs roots skipBelow = some (.ok set) ∧ ∀ path, path ∈ set ↔
      (∃ name search, Wants fs roots search name ∧ findLibrary fs name search = some path) ∧
        ¬ Below skipBelow path ∧ path ∉ roots := by
  obtain ⟨set, hset⟩ | ⟨e, he⟩ := resolveDependencies_cases fs roots skipBelow
  · refine ⟨set, hset, fun path => ⟨mem_resolved hset, ?_⟩⟩
    rintro ⟨⟨name, search, hwants, hlib⟩, hbelow, hroot⟩
    exact ((resolveDependencies_ok hset).2 path).mpr
      ⟨h.found name search path hwants hlib hbelow hroot, hbelow, hroot⟩
  · exact absurd (resolveDependencies_error he) h.readable

/-- Nor does less do. -/
theorem firstAsksSuffice_of_complete {set : Finset PathBuf}
    (h : resolveDependencies fs roots skipBelow = some (.ok set))
    (hcomplete : ∀ name search lib, Wants fs roots search name → findLibrary fs name search = some lib →
      lib ∈ set ∨ Below skipBelow lib ∨ lib ∈ roots) : FirstAsksSuffice fs roots skipBelow := by
  obtain ⟨hreadable, hmem⟩ := resolveDependencies_ok h
  refine ⟨hreadable, fun name search lib hwants hlib hbelow hroot => ?_⟩
  obtain hset | hskipped | hstaged := hcomplete name search lib hwants hlib
  · exact ((hmem lib).mp hset).1
  · exact absurd hskipped hbelow
  · exact absurd hstaged hroot

/-! ## Every order -/

theorem resolves_of_unreadable (h : ∀ roots', roots'.Perm roots → Unreadable fs roots') :
    Resolves fs roots skipBelow := by
  have hfails (roots' : List PathBuf) (hperm : roots'.Perm roots) :
      (resolveDependencies fs roots' skipBelow).map Except.toOption = some none := by
    obtain ⟨set, hset⟩ | ⟨e, he⟩ := resolveDependencies_cases fs roots' skipBelow
    · exact absurd (h roots' hperm) (resolveDependencies_ok hset).1
    · rw [he]
      rfl
  refine ⟨resolveDependencies_isSome fs roots skipBelow, fun roots' hperm => ?_, fun set hset => ?_⟩
  · rw [hfails roots' hperm, hfails roots (.refl roots)]
  · exact absurd (h roots (.refl roots)) (resolveDependencies_ok hset).1

theorem resolves_of_suffice
    (h : ∀ roots', roots'.Perm roots → FirstAsksSuffice fs roots' skipBelow) :
    Resolves fs roots skipBelow := by
  obtain ⟨set, hset, hmem⟩ := (h roots (.refl roots)).resolved
  refine ⟨resolveDependencies_isSome fs roots skipBelow, fun roots' hperm => ?_,
    fun set' hset' name search lib hwants hlib => ?_⟩
  · obtain ⟨set', hset', hmem'⟩ := (h roots' hperm).resolved
    have hsame : set' = set := by
      ext path
      rw [hmem, hmem', hperm.mem_iff]
      refine and_congr_left' (exists_congr fun name => exists_congr fun search => ?_)
      exact and_congr_left' ⟨fun hwants => hwants.perm hperm.symm, fun hwants => hwants.perm hperm⟩
    rw [hset, hset', hsame]
  · obtain rfl := Except.ok.inj (Option.some.inj (hset.symm.trans hset'))
    by_cases hbelow : Below skipBelow lib
    · exact .inr (.inl hbelow)
    · by_cases hroot : lib ∈ roots
      · exact .inr (.inr hroot)
      · exact .inl ((hmem lib).mpr ⟨⟨name, search, hwants, hlib⟩, hbelow, hroot⟩)

/-- What a set misses in one order it misses in every order with the same set. -/
theorem Resolves.suffice (h : Resolves fs roots skipBelow) {set : Finset PathBuf}
    (hset : resolveDependencies fs roots skipBelow = some (.ok set)) (hperm : roots'.Perm roots) :
    FirstAsksSuffice fs roots' skipBelow := by
  have hset' : resolveDependencies fs roots' skipBelow = some (.ok set) := by
    have hsame := h.unordered roots' hperm
    rw [hset] at hsame
    obtain ⟨set', hset'⟩ | ⟨e, he⟩ := resolveDependencies_cases fs roots' skipBelow
    · rw [hset'] at hsame
      rw [hset', Option.some.inj (Option.some.inj hsame)]
    · rw [he] at hsame
      cases hsame
  refine firstAsksSuffice_of_complete hset' fun name search lib hwants hlib => ?_
  rw [hperm.mem_iff]
  exact h.complete set hset name search lib (hwants.perm hperm.symm) hlib

/-- **The dependencies of an installation.**  The traversal always ends.  The order of the roots
does not matter, and nothing that a file needs and finds is left behind, exactly when the first
asks suffice in every order, or in every order a file cannot be read. -/
theorem dependencies_resolved (fs : FileSystem) (roots skipBelow : List PathBuf) :
    (resolveDependencies fs roots skipBelow).isSome ∧
      (Resolves fs roots skipBelow ↔
        (∀ roots', roots'.Perm roots → Unreadable fs roots') ∨
          ∀ roots', roots'.Perm roots → FirstAsksSuffice fs roots' skipBelow) := by
  refine ⟨resolveDependencies_isSome fs roots skipBelow, fun h => ?_, ?_⟩
  · obtain ⟨set, hset⟩ | ⟨e, he⟩ := resolveDependencies_cases fs roots skipBelow
    · exact .inr fun roots' hperm => h.suffice hset hperm
    · refine .inl fun roots' hperm => ?_
      have hsame := h.unordered roots' hperm
      rw [he] at hsame
      obtain ⟨set', hset'⟩ | ⟨e', he'⟩ := resolveDependencies_cases fs roots' skipBelow
      · rw [hset'] at hsame
        cases hsame
      · exact resolveDependencies_error he'
  · rintro (hfails | hsuffice)
    · exact resolves_of_unreadable hfails
    · exact resolves_of_suffice hsuffice

namespace Sample

def tool : PathBuf := .of "/usr/lib/postgresql/17/bin/postgres"

def extension : PathBuf := .of "/usr/lib/postgresql/17/lib/vector.so"

def library : PathBuf := .of "/opt/lib/libopt.so.1"

/-- Two files need one library, and the second says where it is. -/
def needs (path : PathBuf) : Option DynamicInfo :=
  if path = tool then some ⟨["libopt.so.1"], []⟩
  else if path = extension then some ⟨["libopt.so.1"], [.of "/opt/lib"]⟩
  else none

def files : FileSystem where
  isFile path := path = library
  dynamicInfo path := .ok (needs path)
  names := {"libopt.so.1"}
  needed_mem := by
    intro path info hinfo name hname
    have hneeds : needs path = some info := Except.ok.inj hinfo
    rw [needs] at hneeds
    rw [Finset.mem_singleton]
    split_ifs at hneeds <;> cases hneeds <;> simpa using hname

/-- The extension's library is staged or not, as the extension comes first or second. -/
theorem library_lost : ¬ Resolves files [tool, extension] [] := by
  intro h
  have hperm : [extension, tool].Perm [tool, extension] := .swap _ _ _
  have hdiffer : ¬ ((resolveDependencies files [extension, tool] []).map Except.toOption =
      (resolveDependencies files [tool, extension] []).map Except.toOption) := by decide +kernel
  exact hdiffer (h.unordered _ hperm)

/-- Where the extension's directory is staged as a whole, the order does not matter. -/
theorem library_below : Resolves files [tool, extension] [.of "/opt"] := by
  refine (dependencies_resolved files [tool, extension] [.of "/opt"]).2.mpr
    (.inr fun roots' hperm => ⟨?_, fun name search lib hwants hlib hbelow hroot => ?_⟩)
  · rintro (⟨root, hroot, e, he⟩ | ⟨ask, lib, e, hfirst, hlib, he⟩) <;> cases he
  · have hfile := List.find?_some hlib
    rw [Bool.and_eq_true] at hfile
    obtain rfl : lib = library := by simpa [files] using hfile.2
    have hstaged : Below [.of "/opt"] library := by
      unfold Below
      decide +kernel
    exact absurd hstaged hbelow

end Sample

end Elf

end Pgpod
