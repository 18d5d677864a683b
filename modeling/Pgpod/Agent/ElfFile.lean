import Pgpod.Agent.Elf
import Pgpod.Core.Bytes
import Pgpod.Effect.Logged
import Mathlib.Algebra.Group.Nat.Defs

/-!
# Reading the dynamic section of a file

Every offset, count and size is taken from the file as it stands.  The log holds the
buffers and the reads that are asked for and the arithmetic that wraps.
-/

namespace Pgpod

open Effect Bytes

namespace Elf

/-! ## The file -/

/-- A file that is open, and the largest offset its file system positions at. -/
structure File where
  bytes : List UInt8
  limit : Nat
  length_le : bytes.length ≤ limit
  limit_lt : limit < 2 ^ 63

inductive Event
  /-- A zeroed buffer. -/
  | buffer (size : Nat)
  | read (offset size : Nat)
  /-- Arithmetic of `u64` that wraps, or panics where overflow is checked. -/
  | overflow
deriving DecidableEq

inductive Stop
  /-- `return Ok(None)`. -/
  | notElf
  | io (why : String)
  | panic (why : String)
deriving DecidableEq

abbrev Reading := Logged Event Stop

def seek (f : File) (offset : Nat) : Reading Unit :=
  if offset ≤ f.limit then pure () else .stop (.io "Invalid argument (os error 22)")

/-- `vec![0u8; size]`. -/
def buffer (size : Nat) : Reading Unit := do
  .tell (.buffer size)
  if size < 2 ^ 63 then pure () else .stop (.panic "capacity overflow")

/-- The part of a file at an offset. -/
def slice (bytes : List UInt8) (offset size : Nat) : List UInt8 := (bytes.drop offset).take size

/-- `read_exact` at the offset sought; at the end of the file the caller returns `Ok(None)`. -/
def readExact (f : File) (offset size : Nat) : Reading (List UInt8) := do
  .tell (.read offset size)
  if offset + size ≤ f.bytes.length then pure (slice f.bytes offset size) else .stop .notElf

/-- The most that one `read` gives. -/
def MAX_RW_COUNT : Nat := 0x7ffff000

def read (f : File) (offset size : Nat) : Reading (List UInt8) := do
  .tell (.read offset size)
  return slice f.bytes offset (min size MAX_RW_COUNT)

/-- A result of `u64` arithmetic. -/
def u64 (n : Nat) : Reading Nat :=
  if n < 2 ^ 64 then pure n else do
    .tell .overflow
    return n % 2 ^ 64

def add64 (a b : Nat) : Reading Nat := u64 (a + b)

def mul64 (a b : Nat) : Reading Nat := u64 (a * b)

/-! ## Little-endian integers -/

def leNat : List UInt8 → Nat
  | [] => 0
  | b :: bs => b.toNat + 256 * leNat bs

def u16le (b : List UInt8) : Nat := leNat (b.take 2)

def u32le (b : List UInt8) : Nat := leNat (b.take 4)

def u64le (b : List UInt8) : Nat := leNat (b.take 8)

/-! ## Headers -/

def MAGIC : List UInt8 := [0x7f, 0x45, 0x4c, 0x46]

/-- 64-bit little-endian only. -/
def isElf64 (ident : List UInt8) : Bool :=
  ident.take 4 = MAGIC && ident[4]? = some 2 && ident[5]? = some 1

def phoff (header : List UInt8) : Nat := u64le (header.drop 32)

def phentsize (header : List UInt8) : Nat := u16le (header.drop 54)

def phnum (header : List UInt8) : Nat := u16le (header.drop 56)

structure Load where
  vaddr : Nat
  offset : Nat
  filesz : Nat
deriving DecidableEq

/-- What the program headers say: the loadable segments, and where the dynamic section is. -/
structure Segments where
  loads : List Load
  dynamic : Option (Nat × Nat)
deriving DecidableEq

def PT_LOAD : Nat := 1

def PT_DYNAMIC : Nat := 2

def Segments.add (s : Segments) (ph : List UInt8) : Segments :=
  let offset := u64le (ph.drop 8)
  let filesz := u64le (ph.drop 32)
  if u32le ph = PT_LOAD then { s with loads := s.loads ++ [⟨u64le (ph.drop 16), offset, filesz⟩] }
  else if u32le ph = PT_DYNAMIC then { s with dynamic := some (offset, filesz) }
  else s

/-- The headers from the `i`th on. -/
def readHeaders (f : File) (phoff phentsize : Nat) : Nat → Nat → Segments → Reading Segments
  | 0, _, s => pure s
  | n + 1, i, s => do
    buffer phentsize
    let start ← add64 phoff (← mul64 i phentsize)
    seek f start
    let ph ← readExact f start phentsize
    readHeaders f phoff phentsize n (i + 1) (s.add ph)

/-! ## The dynamic section -/

structure Entries where
  needed : List Nat
  rpath : List Nat
  strtab : Option Nat
  strsz : Nat
deriving DecidableEq

def Entries.empty : Entries := ⟨[], [], none, 0⟩

def DT_NULL : Nat := 0

def DT_NEEDED : Nat := 1

def DT_STRTAB : Nat := 5

def DT_STRSZ : Nat := 10

def DT_RPATH : Nat := 15

def DT_RUNPATH : Nat := 29

def Entries.add (e : Entries) (tag val : Nat) : Entries :=
  if tag = DT_NEEDED then { e with needed := e.needed ++ [val] }
  else if tag = DT_RPATH ∨ tag = DT_RUNPATH then { e with rpath := e.rpath ++ [val] }
  else if tag = DT_STRTAB then { e with strtab := some val }
  else if tag = DT_STRSZ then { e with strsz := val }
  else e

/-- `chunks_exact`. -/
def chunksExact (size : Nat) (bytes : List UInt8) : List (List UInt8) :=
  (List.range (bytes.length / size)).map fun i => (bytes.drop (size * i)).take size

/-- The entries up to the first `DT_NULL`. -/
def readEntries : List (List UInt8) → Entries → Entries
  | [], e => e
  | chunk :: chunks, e =>
    if u64le chunk = DT_NULL then e
    else readEntries chunks (e.add (u64le chunk) (u64le (chunk.drop 8)))

def vaddrToOffset (vaddr : Nat) : List Load → Reading (Option Nat)
  | [] => pure none
  | load :: loads =>
    if load.vaddr ≤ vaddr then do
      let stop ← add64 load.vaddr load.filesz
      if vaddr < stop then do
        let offset ← add64 load.offset (vaddr - load.vaddr)
        return some offset
      else vaddrToOffset vaddr loads
    else vaddrToOffset vaddr loads

/-! ## Strings -/

def stringAt (strtab : List UInt8) (offset : Nat) : Option String :=
  if strtab.length ≤ offset then none
  else ((strtab.drop offset).findIdx? (· = 0)).map fun p =>
    String.ofList (fromUtf8Lossy ((strtab.drop offset).take p))

/-- Replace every `pattern`, from the left; `skip` characters belong to the last one. -/
def replaceFrom (pattern new : List Char) : Nat → List Char → List Char
  | _, [] => []
  | skip + 1, _ :: cs => replaceFrom pattern new skip cs
  | 0, c :: cs =>
    if pattern.isPrefixOf (c :: cs) then new ++ replaceFrom pattern new (pattern.length - 1) cs
    else c :: replaceFrom pattern new 0 cs

/-- `$ORIGIN` is the directory of the file being read. -/
def expandOrigin (origin : String) (part : List Char) : PathBuf :=
  let braced := replaceFrom "$\x7bORIGIN\x7d".toList origin.toList 0 part
  .of (String.ofList (replaceFrom "$ORIGIN".toList origin.toList 0 braced))

def Entries.info (origin : String) (strtab : List UInt8) (e : Entries) : DynamicInfo where
  needed := e.needed.filterMap (stringAt strtab)
  searchPaths := (e.rpath.filterMap (stringAt strtab)).flatMap fun s =>
    ((s.toList.splitOn ':').filter fun part => !part.isEmpty).map (expandOrigin origin)

/-! ## `dynamic_info` -/

/-- How much of the string table is read. -/
def Entries.cap (e : Entries) : Nat := if e.strsz = 0 then 2 ^ 20 else e.strsz

def readStrtab (origin : String) (f : File) (e : Entries) : Option Nat → Reading DynamicInfo
  | none => .stop .notElf
  | some offset => do
    buffer e.cap
    seek f offset
    let strtab ← read f offset e.cap
    return e.info origin strtab

def readSection (origin : String) (f : File) (s : Segments) : Reading DynamicInfo :=
  match s.dynamic with
  | none => .stop .notElf
  | some (offset, size) => do
    buffer size
    seek f offset
    let entries ← readExact f offset size
    let e := readEntries (chunksExact 16 entries) .empty
    match e.strtab with
    | none => .stop .notElf
    | some vaddr => do
      let strtab ← vaddrToOffset vaddr s.loads
      readStrtab origin f e strtab

def readTables (origin : String) (f : File) (header : List UInt8) : Reading DynamicInfo :=
  if phoff header = 0 ∨ phentsize header < 56 ∨ phnum header = 0 then .stop .notElf
  else do
    let s ← readHeaders f (phoff header) (phentsize header) (phnum header) 0 ⟨[], none⟩
    readSection origin f s

/-- The body of `dynamic_info`; `origin` is the directory of the file. -/
def readDynamic (origin : String) (f : File) : Reading DynamicInfo := do
  let ident ← readExact f 0 16
  if !isElf64 ident then .stop .notElf
  else do
    seek f 0
    let header ← readExact f 0 64
    readTables origin f header

/-- Read one ELF file's dynamic section. -/
def dynamicInfo (origin : String) (f : File) : Reading (Option DynamicInfo) :=
  let body := readDynamic origin f
  ⟨body.log, match body.result with
    | .ok info => .ok (some info)
    | .error .notElf => .ok none
    | .error e => .error e⟩

end Elf

end Pgpod
