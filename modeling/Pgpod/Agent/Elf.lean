import Pgpod.Core.Words
import Pgpod.Core.Worklist
import Mathlib.Data.Finset.Card

/-!
# The libraries an installation needs

Staging an old installation, the agent follows the `DT_NEEDED` entries of its binaries.
A name is looked up for the first file that needs it, and for no other.
-/

namespace Pgpod

namespace Elf

/-! ## Paths -/

/-- A path as its components, the root first if it is absolute. -/
structure PathBuf where
  components : List String
deriving DecidableEq, Repr

/-- The texts between slashes. -/
def pieces (s : String) : List String := (s.toList.splitOn '/').map String.ofList

/-- Empty pieces and dots say nothing, a dot at the start apart. -/
def normalParts : List String → List String
  | [] => []
  | first :: rest => (if first = "" then [] else [first]) ++ rest.filter fun c => c ≠ "" ∧ c ≠ "."

namespace PathBuf

def isAbsolute (s : String) : Bool := s.toList.head? = some '/'

def of (s : String) : PathBuf := ⟨(if isAbsolute s then ["/"] else []) ++ normalParts (pieces s)⟩

/-- An absolute path replaces the directory. -/
def join (dir : PathBuf) (s : String) : PathBuf :=
  if isAbsolute s ∨ dir.components = [] then of s
  else ⟨dir.components ++ (pieces s).filter fun c => c ≠ "" ∧ c ≠ "."⟩

def startsWith (path dir : PathBuf) : Bool := dir.components.isPrefixOf path.components

/-- The last component, if it is a name. -/
def fileName (path : PathBuf) : String :=
  match path.components.getLast? with
  | some c => if c = "/" ∨ c = "." ∨ c = ".." then "" else c
  | none => ""

end PathBuf

/-! ## The files -/

structure DynamicInfo where
  needed : List String
  searchPaths : List PathBuf
deriving DecidableEq

/-- What the agent can see: which paths are files, and what reading one for its dynamic
section gives.  All files together need finitely many names. -/
structure FileSystem where
  isFile : PathBuf → Bool
  dynamicInfo : PathBuf → Except String (Option DynamicInfo)
  names : Finset String
  needed_mem : ∀ {path info}, dynamicInfo path = .ok (some info) → ∀ name ∈ info.needed, name ∈ names

/-- The text after the last slash. -/
def baseName (soname : String) : String := (pieces soname).getLast?.getD soname

/-- The text before the first `.so`. -/
def stem : List Char → List Char
  | [] => []
  | c :: cs => if ['.', 's', 'o'].isPrefixOf (c :: cs) then [] else c :: stem cs

def coreStems : List String :=
  ["libc", "libm", "libpthread", "libdl", "librt", "libresolv", "libutil", "libnsl", "libanl",
    "libmvec", "libBrokenLocale", "libthread_db", "libSegFault", "libpcprofile"]

def isGlibcCore (soname : String) : Bool :=
  let base := baseName soname
  if "ld-linux".toList.isPrefixOf base.toList || "ld64".toList.isPrefixOf base.toList ||
      base = "ld.so" then true
  else if "libnss_".toList.isPrefixOf base.toList then true
  else coreStems.contains (String.ofList (stem base.toList))

def defaultDirs : List PathBuf :=
  ["/usr/local/lib", "/usr/local/lib64", "/lib/x86_64-linux-gnu", "/usr/lib/x86_64-linux-gnu",
    "/lib/aarch64-linux-gnu", "/usr/lib/aarch64-linux-gnu", "/lib64", "/usr/lib64", "/lib",
    "/usr/lib"].map PathBuf.of

/-- A path that ends in a slash, or a slash and a dot, is no file. -/
def namesFile (soname : String) : Bool :=
  (pieces soname).getLast?.any fun c => c ≠ "" ∧ c ≠ "."

def findLibrary (fs : FileSystem) (soname : String) (searchPaths : List PathBuf) : Option PathBuf :=
  ((searchPaths ++ defaultDirs).map fun dir => dir.join soname).find? fun candidate =>
    namesFile soname && fs.isFile candidate

theorem exists_pieces (s : String) : ∃ front base, pieces s = front ++ [base] ∧ '/' ∉ base.toList := by
  have hne : s.toList.splitOn '/' ≠ [] := List.splitOn_ne_nil _ _
  refine ⟨(s.toList.splitOn '/').dropLast.map String.ofList,
    String.ofList ((s.toList.splitOn '/').getLast hne), ?_, ?_⟩
  · rw [pieces, ← List.map_singleton, ← List.map_append, List.dropLast_append_getLast]
  · rw [String.toList_ofList]
    exact Words.not_mem_of_mem_splitOn (List.getLast_mem hne)

theorem pieces_of_free {s : String} (h : '/' ∉ s.toList) : pieces s = [s] := by
  rw [pieces, List.splitOn_eq_singleton h, List.map_singleton, String.ofList_toList]

theorem getLast?_normalParts {front : List String} {base : String} (hempty : base ≠ "")
    (hdot : base ≠ ".") : (normalParts (front ++ [base])).getLast? = some base := by
  cases front with
  | nil => simp [normalParts, hempty]
  | cons first front => simp [normalParts, List.filter_append, hempty, hdot, ← List.append_assoc]

/-- The last component of a joined path that can be a file is the name's own. -/
theorem getLast?_join {dir : PathBuf} {soname base : String} {front : List String}
    (hpieces : pieces soname = front ++ [base]) (hempty : base ≠ "") (hdot : base ≠ ".") :
    (dir.join soname).components.getLast? = some base := by
  rw [PathBuf.join]
  split_ifs with h
  · have hlast : (normalParts (front ++ [base])).getLast? = some base :=
      getLast?_normalParts hempty hdot
    rw [PathBuf.of, hpieces, List.getLast?_append, hlast]
    rfl
  · rw [hpieces, List.filter_append]
    simp [hempty, hdot]

/-- A library is of the glibc core exactly when the name it is found by is. -/
theorem isGlibcCore_join {dir : PathBuf} {soname : String} (h : namesFile soname = true) :
    isGlibcCore (dir.join soname).fileName = isGlibcCore soname := by
  obtain ⟨front, base, hpieces, hfree⟩ := exists_pieces soname
  have hbase : baseName soname = base := by simp [baseName, hpieces]
  rw [namesFile, hpieces] at h
  simp only [List.getLast?_append, List.getLast?_singleton, Option.some_or, Option.any_some,
    decide_eq_true_eq] at h
  have hslash : base ≠ "/" := by
    rintro rfl
    exact hfree (by decide)
  have hself : isGlibcCore base = isGlibcCore soname := by
    rw [isGlibcCore, isGlibcCore, hbase, baseName, pieces_of_free hfree]
    rfl
  rw [PathBuf.fileName, getLast?_join hpieces h.1 h.2, ← hself]
  by_cases hup : base = ".."
  · rw [hup]
    decide +kernel
  · simp only [hslash, h.2, hup, or_self, if_false]

theorem findLibrary_eq_some {fs : FileSystem} {soname : String} {search : List PathBuf}
    {found : PathBuf} (h : findLibrary fs soname search = some found) :
    isGlibcCore found.fileName = isGlibcCore soname := by
  have hfile := List.find?_some h
  obtain ⟨dir, -, rfl⟩ := List.mem_map.mp (List.mem_of_find?_eq_some h)
  rw [Bool.and_eq_true] at hfile
  exact isGlibcCore_join hfile.1

/-! ## The traversal -/

/-- A file, and the search paths of the files that led to it. -/
abbrev Item := PathBuf × List PathBuf

structure State where
  resolved : Finset PathBuf
  seenNames : Finset String

/-- Look each name up that was not seen before and is wanted. -/
def lookUp (fs : FileSystem) (wanted : String → Bool) (search : List PathBuf) :
    List String → State → State × List Item
  | [], s => (s, [])
  | name :: names, s =>
    if name ∈ s.seenNames then lookUp fs wanted search names s
    else
      let s := { s with seenNames := insert name s.seenNames }
      let rest := lookUp fs wanted search names s
      if !wanted name then rest
      else match findLibrary fs name search with
        | some found => (rest.1, (found, search) :: rest.2)
        | none => rest

/-- The roots, each followed by what it needs. -/
def seed (fs : FileSystem) : List PathBuf → State → Except String (State × List Item)
  | [], s => .ok (s, [])
  | root :: roots, s =>
    match fs.dynamicInfo root with
    | .error e => .error e
    | .ok none => seed fs roots s
    | .ok (some info) =>
      let (s, found) := lookUp fs (fun _ => true) info.searchPaths info.needed s
      match seed fs roots s with
      | .error e => .error e
      | .ok (s, items) => .ok (s, (root, info.searchPaths) :: found ++ items)

def visit (fs : FileSystem) (roots skipBelow : List PathBuf) (s : State) (item : Item) :
    Except String (State × List Item) :=
  let (path, inherited) := item
  let core := isGlibcCore path.fileName
  let stagedAlready := skipBelow.any fun d => path.startsWith d
  let s := if !core && !stagedAlready && !roots.contains path then
      { s with resolved := insert path s.resolved } else s
  -- its own dependencies are glibc's business
  if core then .ok (s, [])
  else match fs.dynamicInfo path with
    | .error e => .error e
    | .ok none => .ok (s, [])
    | .ok (some info) =>
      .ok (lookUp fs (fun name => !isGlibcCore name) (info.searchPaths ++ inherited) info.needed s)

/-- The libraries that the roots need, or none when the steps do not suffice. -/
def resolveWithin (fs : FileSystem) (roots skipBelow : List PathBuf) (fuel : Nat) :
    Option (Except String (Finset PathBuf)) :=
  match seed fs roots ⟨∅, ∅⟩ with
  | .error e => some (.error e)
  | .ok (s, queue) =>
    (Worklist.run (visit fs roots skipBelow) fuel s queue).map fun out => out.map State.resolved

def resolveDependencies (fs : FileSystem) (roots skipBelow : List PathBuf) :
    Option (Except String (Finset PathBuf)) :=
  resolveWithin fs roots skipBelow (roots.length + fs.names.card)

end Elf

end Pgpod
