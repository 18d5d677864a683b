import Pgpod.Core.Bytes
import Pgpod.Core.Search
import Pgpod.Core.Text
import Pgpod.Core.Words
import Mathlib.Algebra.Group.Nat.Defs

/-!
# Responses of the podman socket

The client reads a response until the connection is closed, and splits what it has read
into the status and the body.  The length that a response declares of itself is not
looked at.
-/

namespace Pgpod

open Bytes

namespace Http

inductive Error
  | unreachable (why : String)
deriving DecidableEq

/-! ## Chunks -/

def hexValue (c : Char) : Option Nat :=
  if c.isDigit then some (c.toNat - '0'.toNat)
  else if 'a' ≤ c ∧ c ≤ 'f' then some (c.toNat - 'a'.toNat + 10)
  else if 'A' ≤ c ∧ c ≤ 'F' then some (c.toNat - 'A'.toNat + 10)
  else none

/-- The number that hexadecimal digits spell after one already read. -/
def hexNumber : Nat → List Char → Option Nat
  | n, [] => some n
  | n, c :: cs => (hexValue c).bind fun d => hexNumber (16 * n + d) cs

/-- `usize::from_str_radix(_, 16)`: a plus sign may stand before the digits. -/
def fromStrRadix16 (cs : List Char) : Option Nat :=
  let digits := match cs with
    | '+' :: rest => rest
    | _ => cs
  if digits.isEmpty then none
  else (hexNumber 0 digits).filter fun n => n < 2 ^ 64

def CRLF : List UInt8 := [13, 10]

theorem find_CRLF_length {input : List UInt8} {n : Nat} (h : Search.find CRLF input = some n) :
    0 < input.length := by
  cases input with
  | nil => cases h
  | cons b input => exact Nat.succ_pos _

/-- The loop of `decode_chunked`: `out` is what has been decoded. -/
def decodeFrom (out input : List UInt8) : Except Error (List UInt8) :=
  match _ : Search.find CRLF input with
  | none => .error (.unreachable "truncated chunk header")
  | some lineEnd =>
    let sizeLine := fromUtf8Lossy (input.take lineEnd)
    -- a chunk header may carry extensions after a `;`
    let sizeHex := Text.trimChars (sizeLine.takeWhile (· ≠ ';'))
    match fromStrRadix16 sizeHex with
    | none => .error (.unreachable ("bad chunk size " ++ Text.debug (String.ofList sizeHex)))
    | some size =>
      let rest := input.drop (lineEnd + 2)
      if size = 0 then .ok out
      else if rest.length < size then .error (.unreachable "truncated chunk body")
      else decodeFrom (out ++ rest.take size) (rest.drop (size + 2))
termination_by input.length
decreasing_by
  have hpos := find_CRLF_length ‹_›
  simp only [List.length_drop]
  omega

def decodeChunked (input : List UInt8) : Except Error (List UInt8) := decodeFrom [] input

/-! ## The response -/

/-- The second word of the status line, as a `u16`. -/
def statusOf (statusLine : String) : Option Nat :=
  (Words.words Text.isWhitespace statusLine.toList)[1]?.bind fun word =>
    parseUnsigned 65536 (String.ofList word)

def isChunked (line : String) : Bool :=
  let line := Text.toAsciiLowercase line
  Text.startsWith line "transfer-encoding:" && Text.contains line "chunked"

/-- Split an HTTP response into status and decoded body. -/
def parseResponse (raw : List UInt8) : Except Error (Nat × String) :=
  match Search.find (CRLF ++ CRLF) raw with
  | none => .error (.unreachable "malformed response: no header terminator")
  | some split =>
    let body := (raw.drop split).drop 4
    match Text.lines (String.ofList (fromUtf8Lossy (raw.take split))) with
    | [] => .error (.unreachable "malformed response: no status line")
    | statusLine :: lines =>
      match statusOf statusLine with
      | none => .error (.unreachable ("malformed status line: " ++ Text.debug statusLine))
      | some status => do
        let body ← if lines.any isChunked then decodeChunked body else .ok body
        return (status, String.ofList (fromUtf8Lossy body))

/-! ## Size lines -/

/-- The first line of a chunk of `size` bytes: the size, blanks, and an extension or none. -/
structure SizeLine (size : Nat) where
  digits : List Char
  digits_ne : digits ≠ []
  spells : hexNumber 0 digits = some size
  blanks : List Char
  isBlank : ∀ c ∈ blanks, c = ' ' ∨ c = '\t'
  extension : Option (List UInt8)
  whole : ∀ text, extension = some text → (13 : UInt8) ∉ text ∧ (10 : UInt8) ∉ text

namespace SizeLine

variable {size : Nat}

def bytes (l : SizeLine size) : List UInt8 :=
  utf8 (l.digits ++ l.blanks) ++ match l.extension with
    | none => []
    | some text => 59 :: text

end SizeLine

/-- Hexadecimal digits are letters and digits. -/
theorem hexValue_range {c : Char} (h : (hexValue c).isSome) :
    48 ≤ c.toNat ∧ c.toNat ≤ 57 ∨ 97 ≤ c.toNat ∧ c.toNat ≤ 102 ∨ 65 ≤ c.toNat ∧ c.toNat ≤ 70 := by
  unfold hexValue at h
  split_ifs at h with hdigit hlower hupper
  · left
    simpa [Char.isDigit, UInt32.le_iff_toNat_le, Char.toNat_val] using hdigit
  · exact .inr (.inl hlower)
  · exact .inr (.inr hupper)
  · cases h

theorem hexValue_plain {c : Char} (h : (hexValue c).isSome) :
    Text.isWhitespace c = false ∧ c ≠ ';' ∧ c ≠ '+' ∧ c ≠ '\r' := by
  refine ⟨?_, ?_, ?_, ?_⟩
  · have hrange := hexValue_range h
    simp only [Text.isWhitespace, Bool.or_eq_false_iff, Bool.and_eq_false_iff, decide_eq_false_iff_not,
      beq_eq_false_iff_ne]
    omega
  all_goals
    rintro rfl
    exact absurd h (by decide)

theorem isSome_of_hexNumber {n m : Nat} {cs : List Char} (h : hexNumber n cs = some m) :
    ∀ c ∈ cs, (hexValue c).isSome := by
  induction cs generalizing n with
  | nil => exact fun _ hc => absurd hc List.not_mem_nil
  | cons c cs ih =>
    obtain ⟨d, hd, hrest⟩ := Option.bind_eq_some_iff.mp h
    exact List.forall_mem_cons.mpr ⟨Option.isSome_of_eq_some hd, ih hrest⟩

theorem fromStrRadix16_eq {cs : List Char} {n : Nat} (hne : cs ≠ []) (h : hexNumber 0 cs = some n)
    (hlt : n < 2 ^ 64) : fromStrRadix16 cs = some n := by
  have hsign : ∀ rest, cs ≠ '+' :: rest := by
    rintro rest rfl
    exact (hexValue_plain (isSome_of_hexNumber h '+' List.mem_cons_self)).2.2.1 rfl
  unfold fromStrRadix16
  split
  · next rest => exact absurd rfl (hsign rest)
  · rw [if_neg (by simpa using hne), h, Option.filter_some, if_pos (decide_eq_true hlt)]

namespace SizeLine

variable {size : Nat}

theorem lossy_bytes (l : SizeLine size) : fromUtf8Lossy l.bytes = l.digits ++ l.blanks ++
    match l.extension with
    | none => []
    | some text => ';' :: fromUtf8Lossy text := by
  unfold bytes
  cases l.extension with
  | none => rw [List.append_nil, List.append_nil, fromUtf8Lossy_utf8]
  | some text =>
    dsimp only
    rw [fromUtf8Lossy_append (by decide), fromUtf8Lossy_utf8, fromUtf8Lossy_cons_ascii (by decide)]
    rfl

/-- The line ends where it is ended. -/
theorem cr_not_mem (l : SizeLine size) : (13 : UInt8) ∉ l.bytes := by
  unfold bytes
  rw [List.mem_append, not_or]
  constructor
  · intro hmem
    have hcr : '\r' ∈ l.digits ++ l.blanks := mem_of_mem_utf8 (by decide) hmem
    rcases List.mem_append.mp hcr with hcr | hcr
    · exact (hexValue_plain (isSome_of_hexNumber l.spells _ hcr)).2.2.2 rfl
    · exact absurd (l.isBlank _ hcr) (by decide)
  · cases htext : l.extension with
    | none => exact List.not_mem_nil
    | some text => exact List.not_mem_cons_of_ne_of_not_mem (by decide) (l.whole text htext).1

/-- The digits are what is before the extension, trimmed. -/
theorem trimChars_sizeText (l : SizeLine size) :
    Text.trimChars ((fromUtf8Lossy l.bytes).takeWhile (· ≠ ';')) = l.digits := by
  have hplain := isSome_of_hexNumber l.spells
  have hfree : ∀ c ∈ l.digits ++ l.blanks, decide (c ≠ ';') = true := by
    intro c hc
    refine decide_eq_true ?_
    rcases List.mem_append.mp hc with hc | hc
    · exact (hexValue_plain (hplain c hc)).2.1
    · rintro rfl
      exact absurd (l.isBlank _ hc) (by decide)
  have htext : (fromUtf8Lossy l.bytes).takeWhile (· ≠ ';') = l.digits ++ l.blanks := by
    rw [lossy_bytes, List.takeWhile_append_of_pos hfree]
    cases l.extension <;> simp
  have hblank : ∀ c ∈ l.blanks, Text.isWhitespace c = true := by
    intro c hc
    rcases l.isBlank c hc with rfl | rfl <;> decide
  rw [htext]
  exact Text.trimChars_append l.digits_ne (fun c hc => (hexValue_plain (hplain c hc)).1) hblank

end SizeLine

/-- One round of the loop. -/
theorem decodeFrom_line {size : Nat} (l : SizeLine size) (hsize : size < 2 ^ 64)
    (out after : List UInt8) :
    decodeFrom out (l.bytes ++ CRLF ++ after) =
      if size = 0 then .ok out
      else if after.length < size then .error (.unreachable "truncated chunk body")
      else decodeFrom (out ++ after.take size) (after.drop (size + 2)) := by
  have hfind : Search.find CRLF (l.bytes ++ CRLF ++ after) = some l.bytes.length := by
    rw [List.append_assoc, CRLF, Search.find_append l.cr_not_mem]
    simp [Search.find]
  have hdrop : (l.bytes ++ CRLF ++ after).drop (l.bytes.length + 2) = after := by
    rw [List.append_assoc, ← List.drop_drop, List.drop_left]
    rfl
  have htake : (l.bytes ++ CRLF ++ after).take l.bytes.length = l.bytes := by
    rw [List.append_assoc, List.take_left]
  rw [decodeFrom]
  split
  · next h => rw [hfind] at h; cases h
  · next lineEnd h =>
    obtain rfl := Option.some.inj (hfind.symm.trans h)
    simp only [htake, hdrop, l.trimChars_sizeText, fromStrRadix16_eq l.digits_ne l.spells hsize]

/-- Without the end of its line a size is not read. -/
theorem decodeFrom_unended {out input : List UInt8} (h : Search.find CRLF input = none) :
    decodeFrom out input = .error (.unreachable "truncated chunk header") := by
  rw [decodeFrom]
  split
  · rfl
  · next heq => rw [h] at heq; cases heq

end Http

end Pgpod
