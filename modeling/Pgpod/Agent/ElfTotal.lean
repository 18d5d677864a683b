import Pgpod.Agent.ElfFile
import Mathlib.Tactic.Ring

/-!
# Where reading a file as ELF is total

The reads, the buffers and the arithmetic all stay inside the file exactly when the
header table, the dynamic section and the string table that the file announces lie in it.
-/

namespace Pgpod

open Effect Bytes

namespace Elf

/-! ## What the file announces, in exact arithmetic -/

/-- The header names a table of program headers. -/
def Announced (header : List UInt8) : Prop :=
  phoff header ≠ 0 ∧ 56 ≤ phentsize header ∧ phnum header ≠ 0

/-- The program headers of a table, from the `i`th on. -/
def table (bytes : List UInt8) (phoff phentsize n i : Nat) : List (List UInt8) :=
  (List.range' i n).map fun i => slice bytes (phoff + i * phentsize) phentsize

def segmentsOf (bytes : List UInt8) : Segments :=
  let header := slice bytes 0 64
  (table bytes (phoff header) (phentsize header) (phnum header) 0).foldl Segments.add ⟨[], none⟩

def entriesOf (bytes : List UInt8) (offset size : Nat) : Entries :=
  readEntries (chunksExact 16 (slice bytes offset size)) .empty

def Load.Contains (load : Load) (vaddr : Nat) : Prop :=
  load.vaddr ≤ vaddr ∧ vaddr < load.vaddr + load.filesz

/-- A 64-bit little-endian ELF, whose dynamic section is in the file and names a string
table that a segment contains. -/
structure Resolvable (bytes : List UInt8) : Prop where
  elf : isElf64 (slice bytes 0 16)
  header : 64 ≤ bytes.length
  announced : Announced (slice bytes 0 64)
  dynamic : ∃ offset size, (segmentsOf bytes).dynamic = some (offset, size) ∧
    offset + size ≤ bytes.length ∧ ∃ vaddr, (entriesOf bytes offset size).strtab = some vaddr ∧
      ∃ load ∈ (segmentsOf bytes).loads, load.Contains vaddr

/-- The string table at `vaddr` lies in the file, if a segment contains it, and no segment
looked at before goes past the end of memory. -/
def StrtabFits (length vaddr cap : Nat) : List Load → Prop
  | [] => True
  | load :: loads =>
    if load.vaddr ≤ vaddr then
      load.vaddr + load.filesz < 2 ^ 64 ∧
        if vaddr < load.vaddr + load.filesz then load.offset + (vaddr - load.vaddr) + cap ≤ length
        else StrtabFits length vaddr cap loads
    else StrtabFits length vaddr cap loads

/-- The tables that the header announces lie in the file. -/
def TablesFit (bytes : List UInt8) (header : List UInt8) : Prop :=
  Announced header →
    phoff header + phnum header * phentsize header ≤ bytes.length ∧
      ∀ offset size, (segmentsOf bytes).dynamic = some (offset, size) →
        offset + size ≤ bytes.length ∧
          ∀ vaddr, (entriesOf bytes offset size).strtab = some vaddr →
            StrtabFits bytes.length vaddr (entriesOf bytes offset size).cap (segmentsOf bytes).loads

/-- What a 64-bit little-endian ELF announces lies in the file. -/
def Fits (bytes : List UInt8) : Prop :=
  isElf64 (slice bytes 0 16) → 64 ≤ bytes.length → TablesFit bytes (slice bytes 0 64)

/-- The file is as long as the identification that is read, and the header after it. -/
def Headed (bytes : List UInt8) : Prop :=
  16 ≤ bytes.length ∧ (isElf64 (slice bytes 0 16) → 64 ≤ bytes.length)

/-! ## The steps -/

/-- No arithmetic wraps, and no buffer and no read goes past `size`. -/
def Event.Within (size : Nat) : Event → Prop
  | .buffer n => n ≤ size
  | .read offset n => offset + n ≤ size
  | .overflow => False

/-- The reading goes on to a value or finds no ELF, and stays within `size`. -/
abbrev Sound {α : Type} (size : Nat) (m : Reading α) : Prop := m.Good (·.Within size) (· = .notElf)

section Steps

variable {α : Type} {f : File} {size : Nat}

theorem sound_seek (offset : Nat) (k : Unit → Reading α) :
    Sound size (seek f offset >>= k) ↔ offset ≤ f.limit ∧ Sound size (k ()) := by
  rw [seek]
  by_cases h : offset ≤ f.limit
  · rw [if_pos h, pure_bind]
    exact (and_iff_right h).symm
  · rw [if_neg h, Logged.stop_bind, Sound, Logged.good_stop]
    exact ⟨(nomatch ·), fun hsound => absurd hsound.1 h⟩

theorem sound_buffer (n : Nat) (k : Unit → Reading α) :
    Sound size (buffer n >>= k) ↔ n ≤ size ∧ n < 2 ^ 63 ∧ Sound size (k ()) := by
  rw [buffer, bind_assoc, Sound, Logged.good_tell_bind]
  refine and_congr_right fun _ => ?_
  by_cases h : n < 2 ^ 63
  · rw [if_pos h, pure_bind]
    exact (and_iff_right h).symm
  · rw [if_neg h, Logged.stop_bind, Logged.good_stop]
    exact ⟨(nomatch ·), fun hsound => absurd hsound.1 h⟩

theorem sound_readExact (offset n : Nat) (k : List UInt8 → Reading α) :
    Sound size (readExact f offset n >>= k) ↔ offset + n ≤ size ∧
      (offset + n ≤ f.bytes.length → Sound size (k (slice f.bytes offset n))) := by
  rw [readExact, bind_assoc, Sound, Logged.good_tell_bind]
  refine and_congr_right fun _ => ?_
  by_cases h : offset + n ≤ f.bytes.length
  · rw [if_pos h, pure_bind]
    exact ⟨fun hk _ => hk, fun hk => hk h⟩
  · rw [if_neg h, Logged.stop_bind, Logged.good_stop]
    exact ⟨fun _ hin => absurd hin h, fun _ => rfl⟩

theorem sound_read (offset n : Nat) (k : List UInt8 → Reading α) :
    Sound size (read f offset n >>= k) ↔
      offset + n ≤ size ∧ Sound size (k (slice f.bytes offset (min n MAX_RW_COUNT))) := by
  rw [read, bind_assoc, Sound, Logged.good_tell_bind, pure_bind]
  rfl

theorem sound_u64 (n : Nat) (k : Nat → Reading α) :
    Sound size (u64 n >>= k) ↔ n < 2 ^ 64 ∧ Sound size (k n) := by
  rw [u64]
  by_cases h : n < 2 ^ 64
  · rw [if_pos h, pure_bind]
    exact (and_iff_right h).symm
  · rw [if_neg h, bind_assoc, Sound, Logged.good_tell_bind]
    exact ⟨fun hsound => hsound.1.elim, fun hsound => absurd hsound.1 h⟩

theorem sound_add64 (a b : Nat) (k : Nat → Reading α) :
    Sound size (add64 a b >>= k) ↔ a + b < 2 ^ 64 ∧ Sound size (k (a + b)) := sound_u64 (a + b) k

theorem sound_mul64 (a b : Nat) (k : Nat → Reading α) :
    Sound size (mul64 a b >>= k) ↔ a * b < 2 ^ 64 ∧ Sound size (k (a * b)) := sound_u64 (a * b) k

/-- One buffer, filled from the file. -/
theorem sound_fill (offset n : Nat) (k : List UInt8 → Reading α) :
    (Sound f.bytes.length do
      buffer n
      seek f offset
      let b ← readExact f offset n
      k b) ↔
    offset + n ≤ f.bytes.length ∧ Sound f.bytes.length (k (slice f.bytes offset n)) := by
  have hlimit := f.limit_lt
  have hlength := f.length_le
  rw [sound_buffer, sound_seek, sound_readExact]
  constructor
  · rintro ⟨-, -, -, hin, hk⟩
    exact ⟨hin, hk hin⟩
  · rintro ⟨hin, hk⟩
    exact ⟨by omega, by omega, by omega, hin, fun _ => hk⟩

end Steps

/-! ## The tables -/

section Tables

variable {α : Type} {f : File}

theorem sound_readHeaders (phoff phentsize n i : Nat) (s : Segments) (k : Segments → Reading α) :
    Sound f.bytes.length (readHeaders f phoff phentsize n i s >>= k) ↔
      (n = 0 ∨ phoff + (i + n) * phentsize ≤ f.bytes.length) ∧
        Sound f.bytes.length (k ((table f.bytes phoff phentsize n i).foldl Segments.add s)) := by
  have hlimit := f.limit_lt
  have hlength := f.length_le
  induction n generalizing i s with
  | zero => exact (and_iff_right (.inl rfl)).symm
  | succ n ih =>
    have hsplit : (i + (n + 1)) * phentsize = i * phentsize + phentsize + n * phentsize := by ring
    have hnext : (i + 1 + n) * phentsize = i * phentsize + phentsize + n * phentsize := by ring
    rw [readHeaders]
    simp only [bind_assoc]
    rw [sound_buffer, sound_mul64, sound_add64, sound_seek, sound_readExact, hsplit]
    constructor
    · rintro ⟨-, -, -, -, -, hin, hrest⟩
      obtain ⟨hbound, hk⟩ := (ih ..).mp (hrest hin)
      rw [hnext] at hbound
      refine ⟨.inr ?_, hk⟩
      rcases hbound with rfl | hbound <;> omega
    · rintro ⟨hbound, hk⟩
      have hbound := hbound.resolve_left (Nat.succ_ne_zero n)
      refine ⟨by omega, by omega, by omega, by omega, by omega, by omega, fun _ => ?_⟩
      refine (ih ..).mpr ⟨.inr ?_, hk⟩
      rw [hnext]
      omega

theorem sound_readStrtab (origin : String) (e : Entries) (offset : Nat) :
    Sound f.bytes.length (readStrtab origin f e (some offset)) ↔
      offset + e.cap ≤ f.bytes.length := by
  have hlimit := f.limit_lt
  have hlength := f.length_le
  rw [readStrtab, sound_buffer, sound_seek, sound_read]
  constructor
  · exact fun h => h.2.2.2.1
  · exact fun h => ⟨by omega, by omega, by omega, h, Logged.good_pure _⟩

/-- Each segment up to the one that contains the table. -/
theorem sound_vaddrToOffset (origin : String) (e : Entries) (vaddr : Nat) (loads : List Load) :
    Sound f.bytes.length (vaddrToOffset vaddr loads >>= readStrtab origin f e) ↔
      StrtabFits f.bytes.length vaddr e.cap loads := by
  have hlimit := f.limit_lt
  have hlength := f.length_le
  induction loads with
  | nil => exact ⟨fun _ => trivial, fun _ => (Logged.good_stop _).mpr rfl⟩
  | cons load loads ih =>
    rw [vaddrToOffset, StrtabFits]
    split
    case isFalse => exact ih
    case isTrue =>
      rw [bind_assoc, sound_add64]
      refine and_congr_right fun _ => ?_
      split
      case isFalse => exact ih
      case isTrue =>
        rw [bind_assoc, sound_add64, pure_bind, sound_readStrtab]
        exact ⟨fun h => h.2, fun h => ⟨by omega, h⟩⟩

theorem sound_readSection (origin : String) (s : Segments) :
    Sound f.bytes.length (readSection origin f s) ↔
      ∀ offset size, s.dynamic = some (offset, size) →
        offset + size ≤ f.bytes.length ∧
          ∀ vaddr, (entriesOf f.bytes offset size).strtab = some vaddr →
            StrtabFits f.bytes.length vaddr (entriesOf f.bytes offset size).cap s.loads := by
  rw [readSection]
  cases hdynamic : s.dynamic with
  | none =>
    constructor
    · rintro _ _ _ ⟨⟩
    · exact fun _ => (Logged.good_stop _).mpr rfl
  | some dynamic =>
    obtain ⟨offset, size⟩ := dynamic
    refine (sound_fill offset size _).trans ?_
    constructor
    · rintro ⟨hin, hrest⟩ _ _ ⟨⟩
      refine ⟨hin, fun vaddr hvaddr => ?_⟩
      rw [entriesOf] at hvaddr
      simp only [hvaddr] at hrest
      exact (sound_vaddrToOffset origin _ vaddr s.loads).mp hrest
    · intro h
      obtain ⟨hin, hrest⟩ := h offset size rfl
      refine ⟨hin, ?_⟩
      dsimp only
      split
      case h_1 => exact (Logged.good_stop _).mpr rfl
      case h_2 vaddr hvaddr =>
        exact (sound_vaddrToOffset origin _ vaddr s.loads).mpr (hrest vaddr hvaddr)

end Tables

/-! ## The whole reading -/

theorem not_announced {header : List UInt8} :
    (phoff header = 0 ∨ phentsize header < 56 ∨ phnum header = 0) ↔ ¬Announced header := by
  rw [Announced]
  omega

section Whole

variable {f : File} {size : Nat}

theorem sound_readTables (origin : String) :
    Sound f.bytes.length (readTables origin f (slice f.bytes 0 64)) ↔
      TablesFit f.bytes (slice f.bytes 0 64) := by
  rw [readTables, TablesFit]
  by_cases h : Announced (slice f.bytes 0 64)
  · rw [if_neg (not_announced.not.mpr (not_not.mpr h)), sound_readHeaders, sound_readSection,
      forall_prop_of_true h, Nat.zero_add]
    exact and_congr_left fun _ => or_iff_right h.2.2
  · rw [if_pos (not_announced.mpr h)]
    exact ⟨fun _ hannounced => absurd hannounced h, fun _ => (Logged.good_stop _).mpr rfl⟩

theorem sound_readDynamic (origin : String) (hsize : 64 ≤ f.bytes.length → size = f.bytes.length) :
    Sound size (readDynamic origin f) ↔
      16 ≤ size ∧ (16 ≤ f.bytes.length → isElf64 (slice f.bytes 0 16) → 64 ≤ size) ∧
        Fits f.bytes := by
  have htables : (64 ≤ f.bytes.length →
      Sound size (readTables origin f (slice f.bytes 0 64))) ↔
      (64 ≤ f.bytes.length → TablesFit f.bytes (slice f.bytes 0 64)) := by
    refine forall_congr' fun h => ?_
    rw [hsize h]
    exact sound_readTables origin
  rw [readDynamic, sound_readExact, Nat.zero_add]
  refine and_congr_right fun _ => ?_
  by_cases helf : isElf64 (slice f.bytes 0 16)
  · rw [helf, Bool.not_true, if_neg Bool.false_ne_true, sound_seek, sound_readExact, htables, Fits,
      forall_prop_of_true helf, forall_prop_of_true rfl, Nat.zero_add]
    constructor
    · exact fun h => ⟨fun hident => (h hident).2.1, fun hlen => (h (by omega)).2.2 hlen⟩
    · exact fun h hident => ⟨Nat.zero_le _, h.1 hident, h.2⟩
  · rw [Bool.eq_false_of_not_eq_true helf, Bool.not_false, if_pos rfl]
    constructor
    · exact fun _ => ⟨fun _ h => absurd h Bool.false_ne_true, fun h => absurd h helf⟩
    · exact fun _ _ => (Logged.good_stop _).mpr rfl

end Whole

/-! ## What is found -/

section Found

variable {f : File}

theorem of_readExact {offset n : Nat} {b : List UInt8}
    (h : (readExact f offset n).result = .ok b) :
    offset + n ≤ f.bytes.length ∧ b = slice f.bytes offset n := by
  rw [readExact, Logged.result_tell_bind] at h
  split at h
  case isTrue hin => exact ⟨hin, (Except.ok.inj h).symm⟩
  case isFalse => exact nomatch h

theorem of_u64 {n m : Nat} (h : (u64 n).result = .ok m) : m = n % 2 ^ 64 := by
  rw [u64] at h
  split at h
  case isTrue hlt => exact (Except.ok.inj h).symm.trans (Nat.mod_eq_of_lt hlt).symm
  case isFalse => exact (Except.ok.inj h).symm

/-- In the file, the arithmetic is exact. -/
theorem of_readHeaders {phoff phentsize n i : Nat} {s s' : Segments}
    (hin : phoff + (i + n) * phentsize ≤ f.bytes.length)
    (h : (readHeaders f phoff phentsize n i s).result = .ok s') :
    s' = (table f.bytes phoff phentsize n i).foldl Segments.add s := by
  have hlimit := f.limit_lt
  have hlength := f.length_le
  induction n generalizing i s with
  | zero => exact (Except.ok.inj h).symm
  | succ n ih =>
    have hsplit : (i + (n + 1)) * phentsize = i * phentsize + phentsize + n * phentsize := by ring
    have hnext : (i + 1 + n) * phentsize = i * phentsize + phentsize + n * phentsize := by ring
    rw [readHeaders] at h
    obtain ⟨-, -, h⟩ := Logged.of_result_bind h
    obtain ⟨_, hmul, h⟩ := Logged.of_result_bind h
    obtain ⟨_, hadd, h⟩ := Logged.of_result_bind h
    obtain ⟨-, -, h⟩ := Logged.of_result_bind h
    obtain ⟨_, hread, h⟩ := Logged.of_result_bind h
    have hmul := (of_u64 hmul).trans (Nat.mod_eq_of_lt (by omega))
    have hadd := (of_u64 hadd).trans (Nat.mod_eq_of_lt (by omega))
    rw [(of_readExact hread).2, hadd, hmul] at h
    exact ih (by omega) h

theorem of_vaddrToOffset {vaddr offset : Nat} {loads : List Load}
    (h : (vaddrToOffset vaddr loads).result = .ok (some offset)) :
    ∃ load ∈ loads, load.Contains vaddr := by
  induction loads with
  | nil => exact nomatch h
  | cons load loads ih =>
    have hrest (h : (vaddrToOffset vaddr loads).result = .ok (some offset)) :
        ∃ l ∈ load :: loads, l.Contains vaddr := by
      obtain ⟨l, hl, hcontains⟩ := ih h
      exact ⟨l, List.mem_cons_of_mem load hl, hcontains⟩
    rw [vaddrToOffset] at h
    split at h
    case isFalse => exact hrest h
    case isTrue hle =>
      obtain ⟨stop, hstop, h⟩ := Logged.of_result_bind h
      split at h
      case isFalse => exact hrest h
      case isTrue hlt =>
        refine ⟨load, List.mem_cons_self, hle, hlt.trans_le ?_⟩
        exact (of_u64 hstop).trans_le (Nat.mod_le _ _)

theorem of_readSection {origin : String} {s : Segments} {info : DynamicInfo}
    (h : (readSection origin f s).result = .ok info) :
    ∃ offset size, s.dynamic = some (offset, size) ∧ offset + size ≤ f.bytes.length ∧
      ∃ vaddr, (entriesOf f.bytes offset size).strtab = some vaddr ∧
        ∃ load ∈ s.loads, load.Contains vaddr := by
  rw [readSection] at h
  split at h
  case h_1 => exact nomatch h
  case h_2 offset size hdynamic =>
    obtain ⟨-, -, h⟩ := Logged.of_result_bind h
    obtain ⟨-, -, h⟩ := Logged.of_result_bind h
    obtain ⟨_, hread, h⟩ := Logged.of_result_bind h
    obtain ⟨hin, rfl⟩ := of_readExact hread
    refine ⟨offset, size, hdynamic, hin, ?_⟩
    dsimp only at h
    split at h
    case h_1 => exact nomatch h
    case h_2 vaddr hstrtab =>
      obtain ⟨found, hfound, h⟩ := Logged.of_result_bind h
      cases found with
      | none => exact nomatch h
      | some offset => exact ⟨vaddr, hstrtab, of_vaddrToOffset hfound⟩

/-- **What is read was there to be found.** -/
theorem of_readDynamic {origin : String} {info : DynamicInfo} (hfits : Fits f.bytes)
    (h : (readDynamic origin f).result = .ok info) : Resolvable f.bytes := by
  rw [readDynamic] at h
  obtain ⟨_, hident, h⟩ := Logged.of_result_bind h
  obtain ⟨-, rfl⟩ := of_readExact hident
  split at h
  case isTrue => exact nomatch h
  case isFalse helf =>
    obtain ⟨-, -, h⟩ := Logged.of_result_bind h
    obtain ⟨_, hheader, h⟩ := Logged.of_result_bind h
    obtain ⟨hlength, rfl⟩ := of_readExact hheader
    have helf : isElf64 (slice f.bytes 0 16) := by simpa using helf
    rw [readTables] at h
    split at h
    case isTrue => exact nomatch h
    case isFalse hnot =>
      have hannounced := not_not.mp (not_announced.not.mp hnot)
      obtain ⟨s, hs, h⟩ := Logged.of_result_bind h
      have hin := (hfits helf (by omega) hannounced).1
      rw [of_readHeaders (by rwa [Nat.zero_add]) hs] at h
      exact ⟨helf, by omega, hannounced, of_readSection h⟩

end Found

/-! ## Total -/

/-- Reading the file wraps nowhere, asks for no buffer and no read past `size`, and gives
an answer: none unless there is a dynamic section to resolve. -/
structure Total (origin : String) (f : File) (size : Nat) : Prop where
  exact64 : .overflow ∉ (dynamicInfo origin f).log
  buffers : ∀ n, .buffer n ∈ (dynamicInfo origin f).log → n ≤ size
  reads : ∀ offset n, .read offset n ∈ (dynamicInfo origin f).log → offset + n ≤ size
  returns : ∃ info, (dynamicInfo origin f).result = .ok info
  notElf : ¬Resolvable f.bytes → (dynamicInfo origin f).result = .ok none

theorem total_iff {origin : String} {f : File} {size : Nat}
    (hsize : 64 ≤ f.bytes.length → size = f.bytes.length) :
    Total origin f size ↔ Sound size (readDynamic origin f) := by
  constructor
  · rintro ⟨hexact, hbuffers, hreads, ⟨info, hinfo⟩, -⟩
    refine ⟨fun event hevent => ?_, fun e he => ?_⟩
    · cases event with
      | buffer n => exact hbuffers n hevent
      | read offset n => exact hreads offset n hevent
      | overflow => exact absurd hevent hexact
    · rw [dynamicInfo, he] at hinfo
      cases e with
      | notElf => rfl
      | io why => exact nomatch hinfo
      | panic why => exact nomatch hinfo
  · intro hsound
    have hfits := ((sound_readDynamic origin hsize).mp hsound).2.2
    refine ⟨hsound.log _, fun n => hsound.log _, fun offset n => hsound.log _, ?_, fun hnot => ?_⟩
    · rw [dynamicInfo]
      cases hresult : (readDynamic origin f).result with
      | ok info => exact ⟨some info, rfl⟩
      | error e =>
        cases hsound.stop e hresult
        exact ⟨none, rfl⟩
    · rw [dynamicInfo]
      cases hresult : (readDynamic origin f).result with
      | ok info => exact absurd (of_readDynamic hfits hresult) hnot
      | error e =>
        cases hsound.stop e hresult
        rfl

/-- **Reading a file as ELF is total exactly where its tables fit**: for its own length,
when the file is also as long as the two headers; and for every file, when those two reads,
of a fixed size, are let past its end. -/
theorem total_when_fits (origin : String) (f : File) :
    (Total origin f f.bytes.length ↔ Headed f.bytes ∧ Fits f.bytes) ∧
      (Total origin f (max f.bytes.length 64) ↔ Fits f.bytes) := by
  constructor
  · rw [total_iff fun _ => rfl, sound_readDynamic origin fun _ => rfl, Headed, and_assoc]
    refine and_congr_right fun hident => and_congr_left fun _ => ?_
    exact forall_prop_of_true hident
  · have hsize : 64 ≤ f.bytes.length → max f.bytes.length 64 = f.bytes.length := max_eq_left
    rw [total_iff hsize, sound_readDynamic origin hsize]
    constructor
    · exact fun h => h.2.2
    · exact fun h => ⟨by omega, fun _ _ => by omega, h⟩

namespace Sample

/-- A 64-bit little-endian header: where the program headers are, and how many of 56 bytes. -/
def header (phoff : List UInt8) (phnum : UInt8) : List UInt8 :=
  MAGIC ++ [2, 1] ++ List.replicate 26 0 ++ phoff ++ List.replicate 14 0 ++ [56, 0, phnum, 0] ++
    List.replicate 6 0

def programHeader (type : UInt8) (offset vaddr filesz : List UInt8) : List UInt8 :=
  [type] ++ List.replicate 7 0 ++ offset ++ vaddr ++ List.replicate 8 0 ++ filesz ++
    List.replicate 16 0

/-- A small number in eight bytes. -/
def small (n : UInt8) : List UInt8 := n :: List.replicate 7 0

def top : List UInt8 := List.replicate 8 255

/-- The headers are said to be at the last offset of all. -/
def farHeaders : List UInt8 := header top 1

/-- A dynamic section of 2^63 bytes. -/
def vastSection : List UInt8 :=
  header (small 64) 1 ++ programHeader 2 (small 0) (small 0) (List.replicate 7 0 ++ [128])

/-- A segment of one byte at the last address of all, which is said to be the string table. -/
def lastSegment : List UInt8 :=
  header (small 64) 2 ++ programHeader 1 (small 0) top (small 1) ++
    programHeader 2 (small 176) (small 0) (small 16) ++ small 5 ++ top

/-- Such files, on a file system that positions up to 2^62. -/
def file (bytes : List UInt8) (h : bytes.length ≤ 2 ^ 62) : File := ⟨bytes, 2 ^ 62, h, by decide⟩

set_option maxRecDepth 4000 in
/-- Staging stops with an error, the agent with a panic, and an address wraps. -/
theorem reading_goes_wrong :
    (dynamicInfo "/" (file farHeaders (by decide))).result =
        .error (.io "Invalid argument (os error 22)") ∧
      (dynamicInfo "/" (file vastSection (by decide))).result =
        .error (.panic "capacity overflow") ∧
      .overflow ∈ (dynamicInfo "/" (file lastSegment (by decide))).log ∧
      ¬Total "/" (file farHeaders (by decide)) 64 ∧
      ¬∀ f : File, Total "/" f f.bytes.length := by
  have hfar : (dynamicInfo "/" (file farHeaders (by decide))).result =
      .error (.io "Invalid argument (os error 22)") := by decide
  refine ⟨hfar, by decide, by decide, fun h => ?_, fun h => ?_⟩
  · obtain ⟨info, hinfo⟩ := h.returns
    exact nomatch hfar.symm.trans hinfo
  · obtain ⟨info, hinfo⟩ := (h (file farHeaders (by decide))).returns
    exact nomatch hfar.symm.trans hinfo

end Sample

end Elf

end Pgpod
