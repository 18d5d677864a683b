import Mathlib.Data.List.Basic
import Mathlib.Tactic.Common

/-!
# Text and integers as bytes

UTF-8 read with replacement characters, and big-endian integers.
-/

namespace Bytes

/-! ## UTF-8 -/

def utf8 (cs : List Char) : List UInt8 := cs.flatMap String.utf8EncodeChar

def isContinuation (b : UInt8) : Bool := 0x80 ≤ b && b ≤ 0xBF

/-- The second bytes that the first of three or four allows. -/
def secondAllowed (lead second : UInt8) : Bool :=
  if lead = 0xE0 then 0xA0 ≤ second && second ≤ 0xBF
  else if lead = 0xED then 0x80 ≤ second && second ≤ 0x9F
  else if lead = 0xF0 then 0x90 ≤ second && second ≤ 0xBF
  else if lead = 0xF4 then 0x80 ≤ second && second ≤ 0x8F
  else isContinuation second

/-- How many bytes, at the front of a text that does not start with a character, one
replacement character stands for: those that could start one. -/
def brokenLength (lead : UInt8) (rest : List UInt8) : Nat :=
  let second := rest.head?.any (secondAllowed lead)
  let third := (rest.drop 1).head?.any isContinuation
  if 0xE0 ≤ lead && lead ≤ 0xEF then if second then 2 else 1
  else if 0xF0 ≤ lead && lead ≤ 0xF4 then
    if second then if third then 3 else 2 else 1
  else 1

theorem brokenLength_pos (lead : UInt8) (rest : List UInt8) : 0 < brokenLength lead rest := by
  unfold brokenLength
  dsimp only
  split_ifs <;> omega

/-- `String::from_utf8_lossy`. -/
def fromUtf8Lossy : List UInt8 → List Char
  | [] => []
  | lead :: rest =>
    match (lead :: rest).toByteArray.utf8DecodeChar? 0 with
    | some c => c :: fromUtf8Lossy ((lead :: rest).drop c.utf8Size)
    | none => '\uFFFD' :: fromUtf8Lossy ((lead :: rest).drop (brokenLength lead rest))
termination_by bytes => bytes.length
decreasing_by
  · have hpos := c.utf8Size_pos
    simp only [List.length_drop, List.length_cons]
    omega
  · have hpos := brokenLength_pos lead rest
    simp only [List.length_drop, List.length_cons]
    omega

theorem utf8DecodeChar?_utf8EncodeChar (c : Char) (rest : List UInt8) :
    (String.utf8EncodeChar c ++ rest).toByteArray.utf8DecodeChar? 0 = some c := by
  rw [List.toByteArray_append, ← List.utf8Encode_singleton]
  exact List.utf8DecodeChar?_utf8Encode_singleton_append

/-- **Text is read back**, whatever the characters. -/
theorem fromUtf8Lossy_utf8 (cs : List Char) : fromUtf8Lossy (utf8 cs) = cs := by
  induction cs with
  | nil => rw [utf8, List.flatMap_nil, fromUtf8Lossy]
  | cons c cs ih =>
    have hdecode := utf8DecodeChar?_utf8EncodeChar c (utf8 cs)
    have hdrop : (String.utf8EncodeChar c ++ utf8 cs).drop c.utf8Size = utf8 cs := by
      rw [← String.length_utf8EncodeChar, List.drop_left]
    have hpos := c.utf8Size_pos
    rw [utf8, List.flatMap_cons, ← utf8]
    cases hbytes : String.utf8EncodeChar c ++ utf8 cs with
    | nil =>
      have hlen := congrArg List.length hbytes
      rw [List.length_append, String.length_utf8EncodeChar, List.length_nil] at hlen
      omega
    | cons lead rest =>
      rw [hbytes] at hdecode hdrop
      rw [fromUtf8Lossy, hdecode]
      simp only [hdrop, ih]

theorem utf8EncodeChar_ascii {b : UInt8} (h : b < 0x80) :
    String.utf8EncodeChar (Char.ofNat b.toNat) = [b] := by
  have hall : ∀ n < 128, String.utf8EncodeChar (Char.ofNat n) = [UInt8.ofNat n] := by decide
  rw [hall b.toNat h, UInt8.ofNat_toNat]

/-- A character is read exactly where its encoding stands. -/
theorem utf8DecodeChar?_eq_some_iff {bytes : List UInt8} {c : Char} :
    bytes.toByteArray.utf8DecodeChar? 0 = some c ↔ String.utf8EncodeChar c <+: bytes := by
  constructor
  · intro h
    have hbytes := String.toByteArray_utf8EncodeChar_of_utf8DecodeChar?_eq_some h
    have hlist := congrArg (fun b : ByteArray => b.data.toList) hbytes
    simp only [List.data_toByteArray, ByteArray.data_extract, List.extract_toArray, List.extract_eq_take_drop,
      List.drop_zero, Nat.sub_zero] at hlist
    rw [hlist]
    exact List.take_prefix _ _
  · rintro ⟨rest, rfl⟩
    exact utf8DecodeChar?_utf8EncodeChar c rest

/-- Only the first byte of a character can be a byte of ASCII. -/
theorem le_getElem_utf8EncodeChar {c : Char} {i : Nat} (hi : i < (String.utf8EncodeChar c).length)
    (hpos : 0 < i) : 0x80 ≤ (String.utf8EncodeChar c)[i] := by
  have hfirst : ¬ (String.utf8EncodeChar c)[i].IsUTF8FirstByte := by
    rw [UInt8.isUTF8FirstByte_getElem_utf8EncodeChar]
    omega
  have hascii : ∀ n < 128, (UInt8.ofNat n).IsUTF8FirstByte := by decide
  by_contra hlt
  have := hascii (String.utf8EncodeChar c)[i].toNat (UInt8.lt_iff_toNat_lt.mp (UInt8.not_le.mp hlt))
  rw [UInt8.ofNat_toNat] at this
  exact hfirst this

/-- A byte of ASCII is a character. -/
theorem fromUtf8Lossy_cons_ascii {b : UInt8} (h : b < 0x80) (rest : List UInt8) :
    fromUtf8Lossy (b :: rest) = Char.ofNat b.toNat :: fromUtf8Lossy rest := by
  have hread : (b :: rest).toByteArray.utf8DecodeChar? 0 = some (Char.ofNat b.toNat) := by
    rw [utf8DecodeChar?_eq_some_iff, utf8EncodeChar_ascii h]
    exact ⟨rest, rfl⟩
  have hsize : (Char.ofNat b.toNat).utf8Size = 1 := by
    rw [← String.length_utf8EncodeChar, utf8EncodeChar_ascii h]
    rfl
  rw [fromUtf8Lossy, hread]
  simp only [hsize, List.drop_succ_cons, List.drop_zero]

theorem secondAllowed_ascii {b : UInt8} (h : b < 0x80) (lead : UInt8) :
    secondAllowed lead b = false ∧ isContinuation b = false := by
  have hlow : ∀ n ≥ 0x80, ¬ n ≤ b := fun n hn hle => absurd h (UInt8.not_lt.mpr (UInt8.le_trans hn hle))
  unfold secondAllowed isContinuation
  constructor
  · split_ifs <;> rw [Bool.and_eq_false_iff, decide_eq_false_iff_not] <;>
      exact .inl (hlow _ (by decide))
  · rw [Bool.and_eq_false_iff, decide_eq_false_iff_not]
    exact .inl (hlow _ (by decide))

theorem brokenLength_le (lead : UInt8) (rest : List UInt8) :
    brokenLength lead rest ≤ rest.length + 1 := by
  match rest with
  | [] => simp [brokenLength]
  | [s] => cases h : secondAllowed lead s <;> simp [brokenLength, h]; split_ifs <;> simp
  | s :: t :: rest =>
    cases h : secondAllowed lead s <;> cases ht : isContinuation t <;> simp [brokenLength, h, ht] <;>
      split_ifs <;> omega

/-- What a replacement character stands for ends before the next byte of ASCII. -/
theorem brokenLength_append {lead b : UInt8} (hb : b < 0x80) (front rest : List UInt8) :
    brokenLength lead (front ++ b :: rest) = brokenLength lead front := by
  obtain ⟨hsecond, hthird⟩ := secondAllowed_ascii hb lead
  match front with
  | [] => simp [brokenLength, hsecond]
  | [s] => cases h : secondAllowed lead s <;> simp [brokenLength, h, hthird]
  | s :: t :: front =>
    cases h : secondAllowed lead s <;> cases ht : isContinuation t <;> simp [brokenLength, h, ht]

/-- A text is cut at a byte of ASCII. -/
theorem fromUtf8Lossy_append {b : UInt8} (hb : b < 0x80) (front rest : List UInt8) :
    fromUtf8Lossy (front ++ b :: rest) = fromUtf8Lossy front ++ fromUtf8Lossy (b :: rest) := by
  induction hlen : front.length using Nat.strongRecOn generalizing front with
  | _ n ih =>
    cases front with
    | nil => rw [List.nil_append, fromUtf8Lossy, List.nil_append]
    | cons lead front =>
      rw [List.length_cons] at hlen
      cases hread : (lead :: front).toByteArray.utf8DecodeChar? 0 with
      | some c =>
        have hchar := utf8DecodeChar?_eq_some_iff.mp hread
        have hwhole : (lead :: front ++ b :: rest).toByteArray.utf8DecodeChar? 0 = some c :=
          utf8DecodeChar?_eq_some_iff.mpr (hchar.trans (List.prefix_append _ _))
        have hsize := hchar.length_le
        have hpos := c.utf8Size_pos
        rw [String.length_utf8EncodeChar] at hsize
        rw [List.cons_append, fromUtf8Lossy, fromUtf8Lossy, ← List.cons_append, hwhole, hread]
        dsimp only
        rw [List.drop_append_of_le_length hsize,
          ih ((lead :: front).drop c.utf8Size).length (by simp; omega) _ rfl, List.cons_append]
      | none =>
        have hwhole : (lead :: front ++ b :: rest).toByteArray.utf8DecodeChar? 0 = none := by
          cases hsome : (lead :: front ++ b :: rest).toByteArray.utf8DecodeChar? 0 with
          | none => rfl
          | some c =>
            have hstarts := utf8DecodeChar?_eq_some_iff.mp hsome
            by_cases hfits : (String.utf8EncodeChar c).length ≤ (lead :: front).length
            · have hinside := List.prefix_of_prefix_length_le hstarts (List.prefix_append _ _) hfits
              rw [utf8DecodeChar?_eq_some_iff.mpr hinside] at hread
              cases hread
            · -- the character would run over the byte of ASCII
              have hi : (lead :: front).length < (String.utf8EncodeChar c).length := by omega
              have hbyte := le_getElem_utf8EncodeChar hi (by simp)
              have hsame : (String.utf8EncodeChar c)[(lead :: front).length] = b := by
                rw [hstarts.getElem hi]
                simp
              rw [hsame] at hbyte
              exact absurd hb (UInt8.not_lt.mpr hbyte)
        have hle := brokenLength_le lead front
        have hpos := brokenLength_pos lead front
        rw [List.cons_append, fromUtf8Lossy, fromUtf8Lossy, ← List.cons_append, hwhole, hread]
        dsimp only
        rw [brokenLength_append hb, List.drop_append_of_le_length (by simpa using hle),
          ih ((lead :: front).drop (brokenLength lead front)).length (by simp; omega) _ rfl,
          List.cons_append]

/-- A character of ASCII is its own byte. -/
theorem mem_of_mem_fromUtf8Lossy {b : UInt8} (hb : b < 0x80) {bytes : List UInt8}
    (h : Char.ofNat b.toNat ∈ fromUtf8Lossy bytes) : b ∈ bytes := by
  induction hlen : bytes.length using Nat.strongRecOn generalizing bytes with
  | _ n ih =>
    cases bytes with
    | nil => rw [fromUtf8Lossy] at h; cases h
    | cons lead rest =>
      rw [List.length_cons] at hlen
      rw [fromUtf8Lossy] at h
      split at h
      · next c hread =>
        rcases List.mem_cons.mp h with hc | hrest
        · have hchar := utf8DecodeChar?_eq_some_iff.mp hread
          rw [← hc, utf8EncodeChar_ascii hb] at hchar
          exact hchar.subset List.mem_cons_self
        · have hpos := c.utf8Size_pos
          exact List.mem_of_mem_drop (ih _ (by simp; omega) hrest rfl)
      · rcases List.mem_cons.mp h with hc | hrest
        · have hnone : ∀ n < 128, Char.ofNat n ≠ '\uFFFD' := by decide
          exact absurd hc (hnone b.toNat hb)
        · have hpos := brokenLength_pos lead rest
          exact List.mem_of_mem_drop (ih _ (by simp; omega) hrest rfl)

/-- Characters of ASCII at the front of a text are the bytes at its front. -/
theorem eq_append_of_fromUtf8Lossy {front rest : List Char} {bytes : List UInt8}
    (hfront : ∀ c ∈ front, c.toNat < 128) (h : fromUtf8Lossy bytes = front ++ rest) :
    ∃ more, bytes = front.map (fun c => UInt8.ofNat c.toNat) ++ more ∧ fromUtf8Lossy more = rest := by
  induction front generalizing bytes with
  | nil => exact ⟨bytes, rfl, h⟩
  | cons a front ih =>
    obtain ⟨ha, htail⟩ := List.forall_mem_cons.mp hfront
    have hvalue : (UInt8.ofNat a.toNat).toNat = a.toNat :=
      UInt8.toNat_ofNat_of_lt' (Nat.lt_trans ha (by decide))
    have hbyte : String.utf8EncodeChar a = [UInt8.ofNat a.toNat] := by
      have hlt : UInt8.ofNat a.toNat < 0x80 := by
        rw [UInt8.lt_iff_toNat_lt, hvalue]
        exact ha
      have := utf8EncodeChar_ascii hlt
      rwa [hvalue, Char.ofNat_toNat] at this
    have hsize : a.utf8Size = 1 := by rw [← String.length_utf8EncodeChar, hbyte]; rfl
    cases bytes with
    | nil => rw [fromUtf8Lossy] at h; cases h
    | cons lead more =>
      rw [fromUtf8Lossy] at h
      split at h
      · next c hread =>
        obtain ⟨rfl, hmore⟩ := List.cons.inj h
        have hlead := utf8DecodeChar?_eq_some_iff.mp hread
        rw [hbyte] at hlead
        rw [hsize, List.drop_succ_cons, List.drop_zero] at hmore
        obtain ⟨tail, rfl, hrest⟩ := ih htail hmore
        exact ⟨tail, by rw [(List.cons_prefix_cons.mp hlead).1.symm]; rfl, hrest⟩
      · obtain ⟨rfl, -⟩ := List.cons.inj h
        exact absurd ha (by decide)

/-- A byte of ASCII is in a text only as its character. -/
theorem mem_of_mem_utf8 {b : UInt8} (hb : b < 0x80) {cs : List Char} (h : b ∈ utf8 cs) :
    Char.ofNat b.toNat ∈ cs := by
  obtain ⟨front, rest, hbytes⟩ := List.append_of_mem h
  have hread := fromUtf8Lossy_utf8 cs
  rw [hbytes, fromUtf8Lossy_append hb, fromUtf8Lossy_cons_ascii hb] at hread
  rw [← hread]
  simp

/-- A text without a NUL character has no zero byte. -/
theorem zero_not_mem_utf8 {cs : List Char} (h : '\x00' ∉ cs) : (0 : UInt8) ∉ utf8 cs :=
  fun hmem => h (mem_of_mem_utf8 (by decide) hmem)

/-! ## Big-endian integers -/

def u16ToBe (n : Nat) : List UInt8 := [.ofNat (n / 256), .ofNat n]

def u16OfBe (a b : UInt8) : Nat := a.toNat * 256 + b.toNat

/-- The four bytes of a number below `2 ^ 32`. -/
def u32ToBe (n : Nat) : List UInt8 := [.ofNat (n / 16777216), .ofNat (n / 65536), .ofNat (n / 256), .ofNat n]

def u32OfBe (a b c d : UInt8) : Nat :=
  ((a.toNat * 256 + b.toNat) * 256 + c.toNat) * 256 + d.toNat

/-- Two's complement. -/
def i32ToBe (n : Int) : List UInt8 := u32ToBe (n % 4294967296).toNat

def i32OfBe (a b c d : UInt8) : Int :=
  if u32OfBe a b c d < 2147483648 then u32OfBe a b c d else u32OfBe a b c d - 4294967296

theorem length_u16ToBe (n : Nat) : (u16ToBe n).length = 2 := rfl

theorem length_i32ToBe (n : Int) : (i32ToBe n).length = 4 := rfl

theorem u16OfBe_u16ToBe {n : Nat} (h : n < 65536) :
    u16OfBe (.ofNat (n / 256)) (.ofNat n) = n := by
  simp only [u16OfBe, UInt8.toNat_ofNat']
  omega

theorem u32OfBe_u32ToBe {n : Nat} (h : n < 4294967296) :
    u32OfBe (.ofNat (n / 16777216)) (.ofNat (n / 65536)) (.ofNat (n / 256)) (.ofNat n) = n := by
  simp only [u32OfBe, UInt8.toNat_ofNat']
  omega

theorem i32OfBe_i32ToBe {n : Int} (hlow : -2147483648 ≤ n) (hhigh : n < 2147483648) :
    ∃ a b c d, i32ToBe n = [a, b, c, d] ∧ i32OfBe a b c d = n := by
  refine ⟨_, _, _, _, rfl, ?_⟩
  rw [i32OfBe, u32OfBe_u32ToBe (by omega)]
  split_ifs <;> omega

end Bytes
