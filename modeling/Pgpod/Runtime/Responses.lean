import Pgpod.Runtime.Http

/-!
# What a response is read as

Responses as they may be written: any fields beside the one of the framing, and the
body in one piece or in chunks, however these are cut and their sizes spelled.  Written
whole, a response is read as its status and body.  Cut short, it is an error in chunks,
and in one piece it is one only if not even the head is whole.
-/

namespace Pgpod

open Bytes

namespace Http

/-! ## Lines -/

/-- A line of the head. -/
def IsLine (line : List UInt8) : Prop :=
  line ≠ [] ∧ (13 : UInt8) ∉ line ∧ (10 : UInt8) ∉ line

/-- What stands before the colon, in lower case. -/
def fieldName (line : List UInt8) : List Char :=
  (line.takeWhile (· ≠ 58)).map fun b => (Char.ofNat b.toNat).toLower

/-- A field that says nothing of the body's length. -/
def IsOther (line : List UInt8) : Prop :=
  IsLine line ∧ fieldName line ≠ "content-length".toList ∧
    fieldName line ≠ "transfer-encoding".toList

/-- A field as it is spelled: the case of its name and its value are free, and there may be blanks
around the value. -/
structure Field (name value : List Char) where
  spelledName : List Char
  name_eq : spelledName.map Char.toLower = name
  lead : List Char
  spelledValue : List Char
  value_eq : spelledValue.map Char.toLower = value
  trail : List Char
  isBlank : ∀ c ∈ lead ++ trail, c = ' ' ∨ c = '\t'

namespace Field

variable {name value : List Char}

def text (f : Field name value) : List Char :=
  f.spelledName ++ ':' :: (f.lead ++ f.spelledValue ++ f.trail)

def bytes (f : Field name value) : List UInt8 := utf8 f.text

end Field

/-! ## Chunks -/

structure Chunk where
  data : List UInt8
  data_ne : data ≠ []
  size : SizeLine data.length

namespace Chunk

def bytes (c : Chunk) : List UInt8 := c.size.bytes ++ CRLF ++ c.data ++ CRLF

end Chunk

/-! ## Responses -/

/-- How the end of the body is told. -/
inductive Framing (body : List UInt8)
  | contentLength (digits : List Char) (isDigit : ∀ c ∈ digits, c.isDigit = true)
      (isLength : digits ≠ [] ∧ Nat.ofDigitChars 10 digits 0 = body.length)
      (field : Field "content-length".toList digits)
  | chunked (field : Field "transfer-encoding".toList "chunked".toList) (chunks : List Chunk)
      (whole : chunks.flatMap Chunk.data = body) (last : SizeLine 0) (trailer : List (List UInt8))

namespace Framing

variable {body : List UInt8}

def isChunked : Framing body → Bool
  | contentLength .. => false
  | chunked .. => true

def line : Framing body → List UInt8
  | contentLength _ _ _ field => field.bytes
  | chunked field .. => field.bytes

def content : Framing body → List UInt8
  | contentLength .. => body
  | chunked _ chunks _ last trailer =>
    chunks.flatMap Chunk.bytes ++ (last.bytes ++ CRLF ++ (trailer.flatMap (· ++ CRLF) ++ CRLF))

/-- How much of the content holds the body. -/
def bodyEnd : Framing body → Nat
  | contentLength .. => body.length
  | chunked _ chunks .. => (chunks.flatMap Chunk.bytes).length - 2

end Framing

structure Response where
  status : Nat
  status_lt : status < 1000
  reason : Option (List UInt8)
  reason_whole : ∀ text, reason = some text → (13 : UInt8) ∉ text ∧ (10 : UInt8) ∉ text
  before : List (List UInt8)
  after : List (List UInt8)
  others : ∀ line ∈ before ++ after, IsOther line
  body : String
  framing : Framing (utf8 body.toList)

namespace Response

def digits (r : Response) : List Char :=
  [(r.status / 100).digitChar, (r.status / 10 % 10).digitChar, (r.status % 10).digitChar]

def statusLine (r : Response) : List UInt8 :=
  utf8 ("HTTP/1.1 ".toList ++ r.digits) ++ match r.reason with
    | none => []
    | some text => 32 :: text

def fields (r : Response) : List (List UInt8) := r.before ++ r.framing.line :: r.after

/-- The lines of the head, without the end of the last. -/
def head (r : Response) : List UInt8 := r.statusLine ++ r.fields.flatMap (CRLF ++ ·)

def encode (r : Response) : List UInt8 := r.head ++ (CRLF ++ CRLF) ++ r.framing.content

/-- Where the content starts. -/
def headLength (r : Response) : Nat := r.head.length + 4

/-- The first `k` bytes of the response lack one of the body. -/
def Lacks (r : Response) (k : Nat) : Prop :=
  r.body ≠ "" ∧ k < r.headLength + r.framing.bodyEnd

end Response

/-! ## The head -/

theorem toLower_eq_or (c : Char) : c.toLower = c ∨ 65 ≤ c.toNat ∧ c.toNat ≤ 90 := by
  unfold Char.toLower
  split
  · next h => exact .inr (by simpa [UInt32.le_iff_toNat_le, Char.toNat_val] using h)
  · exact .inl rfl

/-- Letters alone have a lower case that is not themselves. -/
theorem eq_of_toLower {c d : Char} (h : c.toLower = d) (hd : d.isLower = false) : c = d := by
  have hletters : ∀ n < 128, 65 ≤ n → n ≤ 90 → (Char.ofNat n).toLower.isLower = true := by decide
  rcases toLower_eq_or c with hc | ⟨hlow, hhigh⟩
  · rw [← hc, h]
  · have hletter := hletters c.toNat (by omega) hlow hhigh
    rw [Char.ofNat_toNat, h, hd] at hletter
    cases hletter

theorem ascii_of_toLower {c : Char} (h : c.toLower.toNat < 128) : c.toNat < 128 := by
  rcases toLower_eq_or c with hc | hc
  · rwa [hc] at h
  · omega

/-- The lines of a head are read back as they decode. -/
theorem lossy_join (first : List UInt8) (rest : List (List UInt8)) :
    fromUtf8Lossy (first ++ rest.flatMap (CRLF ++ ·)) =
      fromUtf8Lossy first ++ (rest.map fromUtf8Lossy).flatMap ('\r' :: '\n' :: ·) := by
  induction rest generalizing first with
  | nil => simp
  | cons line rest ih =>
    have hcut : first ++ (line :: rest).flatMap (CRLF ++ ·) =
        first ++ 13 :: 10 :: (line ++ rest.flatMap (CRLF ++ ·)) := by simp [CRLF]
    rw [hcut, fromUtf8Lossy_append (by decide), fromUtf8Lossy_cons_ascii (by decide),
      fromUtf8Lossy_cons_ascii (by decide), ih]
    simp

theorem lossy_line {line : List UInt8} (h : IsLine line) :
    fromUtf8Lossy line ≠ [] ∧ '\n' ∉ fromUtf8Lossy line ∧ '\r' ∉ fromUtf8Lossy line := by
  refine ⟨?_, fun hmem => h.2.2 (mem_of_mem_fromUtf8Lossy (by decide) hmem),
    fun hmem => h.2.1 (mem_of_mem_fromUtf8Lossy (by decide) hmem)⟩
  cases line with
  | nil => exact absurd rfl h.1
  | cons b line =>
    rw [fromUtf8Lossy]
    split <;> exact List.cons_ne_nil _ _

theorem lines_join {first : List UInt8} {rest : List (List UInt8)}
    (h : ∀ line ∈ first :: rest, IsLine line) :
    Text.lines (String.ofList (fromUtf8Lossy (first ++ rest.flatMap (CRLF ++ ·)))) =
      (first :: rest).map fun line => String.ofList (fromUtf8Lossy line) := by
  rw [lossy_join, Text.lines_join, ← List.map_cons (f := fromUtf8Lossy), List.map_map]
  · rfl
  · rw [← List.map_cons (f := fromUtf8Lossy)]
    intro l hl
    obtain ⟨line, hline, rfl⟩ := List.mem_map.mp hl
    exact lossy_line (h line hline)

/-- The head ends at the first empty line. -/
theorem find_head {first : List UInt8} {rest : List (List UInt8)}
    (h : ∀ line ∈ first :: rest, IsLine line) (content : List UInt8) :
    Search.find (CRLF ++ CRLF) (first ++ rest.flatMap (CRLF ++ ·) ++ (CRLF ++ CRLF) ++ content) =
      some (first ++ rest.flatMap (CRLF ++ ·)).length := by
  induction rest generalizing first with
  | nil =>
    have hfirst := (h first (by simp)).2.1
    rw [List.flatMap_nil, List.append_nil, List.append_assoc]
    change Search.find (13 :: _) _ = _
    rw [Search.find_append hfirst]
    simp [Search.find, CRLF]
  | cons line rest ih =>
    have hfirst := (h first List.mem_cons_self).2.1
    have ih := @ih line fun l hl => h l (List.mem_cons_of_mem _ hl)
    obtain ⟨hne, hcr, -⟩ := h line (by simp)
    have hskip : ∀ xs : List UInt8, Search.find (CRLF ++ CRLF) (13 :: 10 :: (line ++ xs)) =
        (Search.find (CRLF ++ CRLF) (line ++ xs)).map (· + 2) := by
      intro xs
      cases line with
      | nil => exact absurd rfl hne
      | cons b line =>
        have hb : 13 ≠ b := fun heq => hcr (heq ▸ List.mem_cons_self)
        simp [Search.find, CRLF, hb, Option.map_map, Function.comp_def]
    have hcut : first ++ (line :: rest).flatMap (CRLF ++ ·) ++ (CRLF ++ CRLF) ++ content =
        first ++ 13 :: 10 :: (line ++ (rest.flatMap (CRLF ++ ·) ++ (CRLF ++ CRLF) ++ content)) := by
      simp [CRLF]
    rw [hcut]
    change Search.find (13 :: _) _ = _
    rw [Search.find_append hfirst]
    change (Search.find (CRLF ++ CRLF) _).map _ = _
    rw [hskip, ← List.append_assoc, ← List.append_assoc, ih]
    simp [CRLF]
    omega

/-! ## Fields -/

/-- Only a field of that name tells that there are chunks. -/
theorem not_isChunked {line : List UInt8} (h : fieldName line ≠ "transfer-encoding".toList) :
    isChunked (String.ofList (fromUtf8Lossy line)) = false := by
  rw [Bool.eq_false_iff]
  intro hchunked
  obtain ⟨hstart, -⟩ := Bool.and_eq_true_iff.mp hchunked
  simp only [Text.startsWith, Text.toAsciiLowercase, decide_eq_true_eq, String.toList_ofList] at hstart
  obtain ⟨tail, htail⟩ := hstart
  obtain ⟨front, rest, hlossy, hfront, -⟩ := List.map_eq_append_iff.mp htail.symm
  have hfield : "transfer-encoding:".toList = "transfer-encoding".toList ++ [':'] := by decide
  have hascii : ∀ c ∈ front, c.toNat < 128 := by
    intro c hc
    have hall : ("transfer-encoding:".toList).all (·.toNat < 128) = true := by decide
    have hlower : c.toLower ∈ "transfer-encoding:".toList := hfront ▸ List.mem_map_of_mem hc
    exact ascii_of_toLower (by simpa using List.all_eq_true.mp hall _ hlower)
  obtain ⟨more, hline, -⟩ := eq_append_of_fromUtf8Lossy hascii hlossy
  rw [hfield] at hfront
  obtain ⟨name, colon, rfl, hname, hcolon⟩ := List.map_eq_append_iff.mp hfront
  obtain ⟨c, rfl, hc⟩ := List.map_eq_singleton_iff.mp hcolon
  obtain rfl := eq_of_toLower hc (by decide)
  have hvalue : ∀ c ∈ name, (UInt8.ofNat c.toNat).toNat = c.toNat := fun c hc =>
    UInt8.toNat_ofNat_of_lt' (Nat.lt_trans (hascii c (by simp [hc])) (by decide))
  have hfree : ∀ b ∈ name.map fun c => UInt8.ofNat c.toNat, decide (b ≠ 58) = true := by
    intro b hb
    obtain ⟨c, hc, rfl⟩ := List.mem_map.mp hb
    refine decide_eq_true fun hcolon => ?_
    have htoNat : c.toNat = 58 := by rw [← hvalue c hc, hcolon]; rfl
    have hmem : c.toLower ∈ "transfer-encoding".toList := hname ▸ List.mem_map_of_mem hc
    rw [← Char.ofNat_toNat c, htoNat] at hmem
    exact absurd hmem (by decide)
  apply h
  rw [fieldName, hline, List.map_append, List.append_assoc, List.takeWhile_append_of_pos hfree]
  simp only [List.map_cons, List.map_nil, List.cons_append, List.nil_append]
  rw [List.takeWhile_cons_of_neg (by decide), List.append_nil, List.map_map, ← hname]
  refine List.map_congr_left fun c hc => ?_
  rw [Function.comp_apply, hvalue c hc, Char.ofNat_toNat]

namespace Field

variable {name value : List Char}

theorem lossy_bytes (f : Field name value) : fromUtf8Lossy f.bytes = f.text :=
  fromUtf8Lossy_utf8 f.text

/-- Neither end of a line is in the field if it is not in its name and its value. -/
theorem not_mem_text (f : Field name value) {c : Char} (hc : c = '\r' ∨ c = '\n') (hname : c ∉ name)
    (hvalue : c ∉ value) : c ∉ f.text := by
  have hlower : c.toLower = c := by rcases hc with rfl | rfl <;> decide
  have hspelled : ∀ {cs ds : List Char}, cs.map Char.toLower = ds → c ∉ ds → c ∉ cs := by
    rintro cs _ rfl hds hcs
    exact hds (hlower ▸ List.mem_map_of_mem hcs)
  have hblank : c ∉ f.lead ++ f.trail := by
    intro hmem
    rcases f.isBlank c hmem with rfl | rfl <;> exact absurd hc (by decide)
  rw [List.mem_append, not_or] at hblank
  have hcolon : c ≠ ':' := by rcases hc with rfl | rfl <;> decide
  simp only [text, List.mem_append, List.mem_cons, not_or]
  exact ⟨hspelled f.name_eq hname, hcolon, ⟨hblank.1, hspelled f.value_eq hvalue⟩, hblank.2⟩

theorem isLine (f : Field name value) (hcr : '\r' ∉ name ++ value) (hlf : '\n' ∉ name ++ value) :
    IsLine f.bytes := by
  rw [List.mem_append, not_or] at hcr hlf
  refine ⟨fun hnil => ?_, fun hmem => ?_, fun hmem => ?_⟩
  · have htext := f.lossy_bytes
    rw [hnil, fromUtf8Lossy] at htext
    simp [text] at htext
  · exact f.not_mem_text (.inl rfl) hcr.1 hcr.2 (mem_of_mem_utf8 (by decide) hmem)
  · exact f.not_mem_text (.inr rfl) hlf.1 hlf.2 (mem_of_mem_utf8 (by decide) hmem)

theorem map_toLower_text (f : Field name value) : f.text.map Char.toLower =
    name ++ ':' :: (f.lead.map Char.toLower ++ value ++ f.trail.map Char.toLower) := by
  simp only [text, List.map_append, List.map_cons, f.name_eq, f.value_eq]
  rfl

theorem isChunked_bytes (f : Field "transfer-encoding".toList "chunked".toList) :
    isChunked (String.ofList (fromUtf8Lossy f.bytes)) = true := by
  have hname : "transfer-encoding:".toList = "transfer-encoding".toList ++ [':'] := by decide
  simp only [isChunked, Text.startsWith, Text.toAsciiLowercase, String.toList_ofList, f.lossy_bytes,
    f.map_toLower_text, Bool.and_eq_true, decide_eq_true_eq, Text.contains_eq_true, hname]
  refine ⟨⟨_, List.append_assoc _ _ _⟩, "transfer-encoding".toList ++ ':' :: f.lead.map Char.toLower,
    f.trail.map Char.toLower, by simp⟩

theorem not_isChunked_bytes (f : Field "content-length".toList value) :
    isChunked (String.ofList (fromUtf8Lossy f.bytes)) = false := by
  have hstart : Text.startsWith (Text.toAsciiLowercase (String.ofList f.text))
      "transfer-encoding:" = false := by
    have ht : "transfer-encoding:".toList = 't' :: "ransfer-encoding:".toList := by decide
    have hc : "content-length".toList = 'c' :: "ontent-length".toList := by decide
    simp only [Text.startsWith, Text.toAsciiLowercase, String.toList_ofList, f.map_toLower_text, ht, hc]
    exact decide_eq_false fun hprefix => absurd (List.cons_prefix_cons.mp hprefix).1 (by decide)
  rw [f.lossy_bytes, isChunked, hstart, Bool.false_and]

end Field

/-! ## The status line -/

namespace Response

theorem isDigit_of_mem_digits (r : Response) {c : Char} (hc : c ∈ r.digits) : c.isDigit = true := by
  have hlt := r.status_lt
  simp only [digits, List.mem_cons, List.not_mem_nil, or_false] at hc
  rcases hc with rfl | rfl | rfl <;> rw [Nat.isDigit_digitChar] <;> exact decide_eq_true (by omega)

theorem isLine_statusLine (r : Response) : IsLine r.statusLine := by
  have hfree : ∀ b : UInt8, b < 0x80 → Char.ofNat b.toNat ∉ "HTTP/1.1 ".toList →
      (Char.ofNat b.toNat).isDigit = false → b ≠ 32 →
      (∀ text, r.reason = some text → b ∉ text) → b ∉ r.statusLine := by
    intro b hb hversion hdigit hne hreason hmem
    rcases List.mem_append.mp hmem with hmem | hmem
    · rcases List.mem_append.mp (mem_of_mem_utf8 hb hmem) with hmem | hmem
      · exact hversion hmem
      · rw [r.isDigit_of_mem_digits hmem] at hdigit
        cases hdigit
    · cases htext : r.reason with
      | none => rw [htext] at hmem; cases hmem
      | some text =>
        rw [htext] at hmem
        exact (List.mem_cons.mp hmem).elim hne (hreason text htext)
  refine ⟨?_, ?_, ?_⟩
  · intro hnil
    have hlossy := fromUtf8Lossy_utf8 ("HTTP/1.1 ".toList ++ r.digits)
    rw [(List.append_eq_nil_iff.mp hnil).1, fromUtf8Lossy] at hlossy
    simp at hlossy
  · exact hfree 13 (by decide) (by decide) (by decide) (by decide) fun text h => (r.reason_whole text h).1
  · exact hfree 10 (by decide) (by decide) (by decide) (by decide) fun text h => (r.reason_whole text h).2

theorem lossy_statusLine (r : Response) : fromUtf8Lossy r.statusLine =
    "HTTP/1.1".toList ++ ' ' :: (r.digits ++ match r.reason with
      | none => []
      | some text => ' ' :: fromUtf8Lossy text) := by
  have hversion : "HTTP/1.1 ".toList = "HTTP/1.1".toList ++ [' '] := by decide
  unfold statusLine
  cases r.reason with
  | none => rw [List.append_nil, fromUtf8Lossy_utf8, hversion]; simp
  | some text =>
    dsimp only
    rw [fromUtf8Lossy_append (by decide), fromUtf8Lossy_utf8, fromUtf8Lossy_cons_ascii (by decide),
      hversion]
    simp only [List.append_assoc, List.cons_append, List.nil_append]
    rfl

theorem parseUnsigned_digits (r : Response) :
    parseUnsigned 65536 (String.ofList r.digits) = some r.status := by
  have hlt := r.status_lt
  have hsign : (r.status / 100).digitChar ≠ '+' := by
    intro hplus
    have hdigit := r.isDigit_of_mem_digits (c := (r.status / 100).digitChar) (by simp [digits])
    rw [hplus] at hdigit
    cases hdigit
  have hall : r.digits.all Char.isDigit = true :=
    List.all_eq_true.mpr fun c hc => r.isDigit_of_mem_digits hc
  have hvalue : Nat.ofDigitChars 10 r.digits 0 = r.status := by
    simp only [digits, Nat.ofDigitChars_cons, Nat.ofDigitChars_nil]
    have hdigit : ∀ n < 10, n.digitChar.toNat - '0'.toNat = n := by decide
    rw [hdigit _ (by omega), hdigit _ (by omega), hdigit _ (by omega)]
    omega
  have hparse : parseUnsigned 65536 (String.ofList r.digits) = parseDigits 65536 r.digits := by
    rw [parseUnsigned, String.toList_ofList, digits]
    split
    · next h => exact absurd (List.cons.inj h).1 hsign
    · rfl
  rw [hparse, parseDigits, if_neg (by rw [hall]; simp [digits]), hvalue]
  exact if_pos (by omega)

/-- The status is read off the second word. -/
theorem statusOf_statusLine (r : Response) :
    statusOf (String.ofList (fromUtf8Lossy r.statusLine)) = some r.status := by
  have hversion : ∀ c ∈ "HTTP/1.1".toList, Text.isWhitespace c = false := by
    have hall : "HTTP/1.1".toList.all (fun c => !Text.isWhitespace c) = true := by decide
    exact fun c hc => by simpa using List.all_eq_true.mp hall c hc
  have hdigits : ∀ c ∈ r.digits, Text.isWhitespace c = false := by
    intro c hc
    have hdigit := r.isDigit_of_mem_digits hc
    have hvalue : (hexValue c).isSome := by rw [hexValue, if_pos hdigit]; rfl
    exact (hexValue_plain hvalue).1
  have hne : r.digits ≠ [] := List.cons_ne_nil _ _
  have hword : (Words.words Text.isWhitespace (fromUtf8Lossy r.statusLine))[1]? = some r.digits := by
    rw [lossy_statusLine, Words.words_append_cons (by decide) hversion (by decide)]
    cases r.reason with
    | none => rw [Words.words_append_blanks hne hdigits (by simp)]; rfl
    | some text => rw [Words.words_append_cons hne hdigits (by decide)]; rfl
  rw [statusOf, String.toList_ofList, hword, Option.bind_some, parseUnsigned_digits]

theorem isLine_line (r : Response) : IsLine r.framing.line := by
  cases r.framing with
  | contentLength value isDigit isLength field =>
    have hdigits : ∀ c : Char, c.isDigit = false → c ∉ value := by
      intro c hc hmem
      rw [isDigit c hmem] at hc
      cases hc
    refine field.isLine ?_ ?_ <;> rw [List.mem_append, not_or] <;>
      exact ⟨by decide, hdigits _ (by decide)⟩
  | chunked field => exact field.isLine (by decide) (by decide)

theorem isLine_of_mem (r : Response) : ∀ line ∈ r.statusLine :: r.fields, IsLine line := by
  intro line hline
  rcases List.mem_cons.mp hline with rfl | hline
  · exact r.isLine_statusLine
  · rcases List.mem_append.mp hline with hbefore | hafter
    · exact (r.others line (List.mem_append_left _ hbefore)).1
    · rcases List.mem_cons.mp hafter with rfl | hafter
      · exact r.isLine_line
      · exact (r.others line (List.mem_append_right _ hafter)).1

theorem isChunked_line (r : Response) :
    isChunked (String.ofList (fromUtf8Lossy r.framing.line)) = r.framing.isChunked := by
  cases r.framing with
  | contentLength value isDigit isLength field => exact field.not_isChunked_bytes
  | chunked field => exact field.isChunked_bytes

/-- The fields tell the framing. -/
theorem any_isChunked (r : Response) :
    (r.fields.map fun line => String.ofList (fromUtf8Lossy line)).any isChunked =
      r.framing.isChunked := by
  have hother : ∀ lines : List (List UInt8), (∀ line ∈ lines, IsOther line) →
      (lines.map fun line => String.ofList (fromUtf8Lossy line)).any isChunked = false := by
    intro lines h
    rw [List.any_map, List.any_eq_false]
    intro line hline
    rw [Function.comp_apply, not_isChunked (h line hline).2.2]
    exact Bool.false_ne_true
  have hbefore := hother r.before fun line h => r.others line (List.mem_append_left _ h)
  have hafter := hother r.after fun line h => r.others line (List.mem_append_right _ h)
  rw [fields, List.map_append, List.map_cons, List.any_append, List.any_cons, hbefore, hafter,
    isChunked_line, Bool.false_or, Bool.or_false]

/-- The head is read whatever follows it. -/
theorem parseResponse_head (r : Response) (content : List UInt8) :
    parseResponse (r.head ++ (CRLF ++ CRLF) ++ content) =
      (if r.framing.isChunked then decodeChunked content else .ok content).map fun body =>
        (r.status, String.ofList (fromUtf8Lossy body)) := by
  have hfind := find_head r.isLine_of_mem content
  have htake : (r.head ++ (CRLF ++ CRLF) ++ content).take r.head.length = r.head := by
    rw [List.append_assoc, List.take_left]
  have hdrop : ((r.head ++ (CRLF ++ CRLF) ++ content).drop r.head.length).drop 4 = content := by
    rw [List.append_assoc, List.drop_left]
    rfl
  have hlines := lines_join r.isLine_of_mem
  unfold head at htake hdrop ⊢
  rw [parseResponse, hfind]
  dsimp only
  rw [htake, hdrop, hlines, List.map_cons]
  dsimp only
  rw [statusOf_statusLine, any_isChunked]
  cases r.framing.isChunked with
  | false => rfl
  | true => cases decodeChunked content <;> rfl

/-- Without its end the head is not read. -/
theorem parseResponse_short (r : Response) {k : Nat} (hk : k < r.headLength) :
    ∃ e, parseResponse (r.encode.take k) = .error e := by
  have hfind : Search.find (CRLF ++ CRLF) (r.encode.take k) = none :=
    Search.find_take (by decide) (find_head r.isLine_of_mem r.framing.content) hk
  refine ⟨.unreachable "malformed response: no header terminator", ?_⟩
  rw [parseResponse, hfind]

end Response

/-! ## The chunks -/

theorem length_bytes (c : Chunk) :
    c.bytes.length = c.size.bytes.length + c.data.length + 4 := by
  simp only [Chunk.bytes, CRLF, List.length_append, List.length_cons, List.length_nil]
  omega

/-- A chunk is read whole, or not. -/
theorem decodeFrom_chunk (c : Chunk) (hc : c.data.length < 2 ^ 64) (out after : List UInt8) :
    decodeFrom out (c.size.bytes ++ CRLF ++ after) =
      if after.length < c.data.length then .error (.unreachable "truncated chunk body")
      else decodeFrom (out ++ after.take c.data.length) (after.drop (c.data.length + 2)) := by
  rw [decodeFrom_line c.size hc, if_neg]
  exact fun hzero => c.data_ne (List.eq_nil_of_length_eq_zero hzero)

theorem decodeFrom_chunks {chunks : List Chunk} (h : ∀ c ∈ chunks, c.data.length < 2 ^ 64)
    (last : SizeLine 0) (out rest : List UInt8) :
    decodeFrom out (chunks.flatMap Chunk.bytes ++ (last.bytes ++ CRLF ++ rest)) =
      .ok (out ++ chunks.flatMap Chunk.data) := by
  induction chunks generalizing out with
  | nil =>
    rw [List.flatMap_nil, List.nil_append, decodeFrom_line last (by decide), if_pos rfl]
    simp
  | cons c chunks ih =>
    obtain ⟨hc, hchunks⟩ := List.forall_mem_cons.mp h
    have hcut : (c :: chunks).flatMap Chunk.bytes ++ (last.bytes ++ CRLF ++ rest) =
        c.size.bytes ++ CRLF ++ (c.data ++ (CRLF ++
          (chunks.flatMap Chunk.bytes ++ (last.bytes ++ CRLF ++ rest)))) := by
      simp [Chunk.bytes]
    rw [hcut, decodeFrom_chunk c hc, if_neg (by simp), List.take_left, ← List.drop_drop,
      List.drop_left]
    change decodeFrom _ (chunks.flatMap Chunk.bytes ++ _) = _
    rw [ih hchunks, List.flatMap_cons, List.append_assoc]

/-- Chunks cut short are an error wherever they are cut. -/
theorem decodeFrom_take {chunks : List Chunk} (h : ∀ c ∈ chunks, c.data.length < 2 ^ 64)
    (out rest : List UInt8) {k : Nat} (hk : k < (chunks.flatMap Chunk.bytes).length - 2) :
    ∃ e, decodeFrom out ((chunks.flatMap Chunk.bytes ++ rest).take k) = .error e := by
  induction chunks generalizing out k with
  | nil => exact absurd hk (Nat.not_lt_zero k)
  | cons c chunks ih =>
    obtain ⟨hc, hchunks⟩ := List.forall_mem_cons.mp h
    set more := chunks.flatMap Chunk.bytes ++ rest with hmore
    have hcut : (c :: chunks).flatMap Chunk.bytes ++ rest =
        c.size.bytes ++ CRLF ++ (c.data ++ (CRLF ++ more)) := by
      simp [hmore, Chunk.bytes]
    have hfind : Search.find CRLF (c.size.bytes ++ CRLF ++ (c.data ++ (CRLF ++ more))) =
        some c.size.bytes.length := by
      rw [List.append_assoc, CRLF, Search.find_append c.size.cr_not_mem]
      simp [Search.find]
    have hline : (c.size.bytes ++ CRLF).length = c.size.bytes.length + 2 := by
      rw [List.length_append]
      rfl
    rw [List.flatMap_cons, List.length_append, length_bytes] at hk
    rw [hcut]
    by_cases hhead : k < c.size.bytes.length + 2
    · -- the cut is in the size line
      exact ⟨_, decodeFrom_unended (Search.find_take (by decide) hfind hhead)⟩
    · rw [List.take_append, List.take_of_length_le (by omega), hline, decodeFrom_chunk c hc]
      split
      · exact ⟨_, rfl⟩
      · next hdata =>
        have hlen : c.data.length ≤ k - (c.size.bytes.length + 2) := by
          rw [List.length_take] at hdata
          omega
        -- the cut is behind the data, so that there is another chunk
        have hrest : 4 ≤ (chunks.flatMap Chunk.bytes).length := by
          cases chunks with
          | nil =>
            rw [List.flatMap_nil, List.length_nil] at hk
            omega
          | cons d chunks =>
            rw [List.flatMap_cons, List.length_append, length_bytes]
            omega
        have htake : ((c.data ++ (CRLF ++ more)).take (k - (c.size.bytes.length + 2))).drop
            (c.data.length + 2) =
              more.take (k - (c.size.bytes.length + 2) - (c.data.length + 2)) := by
          rw [List.drop_take, ← List.drop_drop, List.drop_left]
          rfl
        rw [htake]
        exact ih hchunks _ (by omega)

/-! ## Reading a response -/

namespace Response

theorem length_encode (r : Response) :
    r.encode.length = r.headLength + r.framing.content.length := by
  simp only [encode, headLength, CRLF, List.length_append, List.length_cons, List.length_nil]

/-- Cut behind its head a response is cut in its content. -/
theorem take_encode (r : Response) {k : Nat} (hk : r.headLength ≤ k) :
    r.encode.take k = r.head ++ (CRLF ++ CRLF) ++ r.framing.content.take (k - r.headLength) := by
  have hlen : (r.head ++ (CRLF ++ CRLF)).length = r.headLength := by
    rw [List.length_append]
    rfl
  rw [encode, List.take_append, hlen, List.take_of_length_le (by omega)]

/-- No slice holds a chunk whose size is no `usize`. -/
theorem length_data_lt {chunks : List Chunk} {rest : List UInt8}
    (h : (chunks.flatMap Chunk.bytes ++ rest).length < 2 ^ 63) :
    ∀ c ∈ chunks, c.data.length < 2 ^ 64 := by
  intro c hc
  have hle := (List.sublist_flatten_of_mem (List.mem_map_of_mem (f := Chunk.bytes) hc)).length_le
  rw [← List.flatMap_def, length_bytes] at hle
  rw [List.length_append] at h
  omega

theorem parseResponse_encode (r : Response) (hsize : r.encode.length < 2 ^ 63) :
    parseResponse r.encode = .ok (r.status, r.body) := by
  have hbody : String.ofList (fromUtf8Lossy (utf8 r.body.toList)) = r.body := by
    rw [fromUtf8Lossy_utf8, String.ofList_toList]
  rw [length_encode] at hsize
  rw [encode, parseResponse_head]
  cases hframing : r.framing with
  | contentLength value isDigit isLength field =>
    simp only [Framing.isChunked, Framing.content, Bool.false_eq_true, if_false, Except.map, hbody]
  | chunked field chunks whole last trailer =>
    rw [hframing] at hsize
    have hdata := length_data_lt (Nat.lt_of_le_of_lt (Nat.le_add_left _ _) hsize)
    simp only [Framing.isChunked, Framing.content, if_true]
    rw [decodeChunked, decodeFrom_chunks hdata, List.nil_append, whole, Except.map, hbody]

/-- **A response that lacks some of its body** is an error in chunks, and in one piece it is one
only when its head is cut, too. -/
theorem parseResponse_take (r : Response) (hsize : r.encode.length < 2 ^ 63) {k : Nat}
    (hk : r.Lacks k) : (∃ e, parseResponse (r.encode.take k) = .error e) ↔
      r.framing.isChunked = true ∨ k < r.headLength := by
  by_cases hhead : k < r.headLength
  · exact iff_of_true (r.parseResponse_short hhead) (.inr hhead)
  · rw [take_encode r (by omega), parseResponse_head]
    have hend : k - r.headLength < r.framing.bodyEnd := by
      have := hk.2
      omega
    rw [length_encode] at hsize
    cases hframing : r.framing with
    | contentLength value isDigit isLength field =>
      simp [Framing.isChunked, Except.map, hhead]
    | chunked field chunks whole last trailer =>
      rw [hframing] at hsize hend
      have hdata := length_data_lt (Nat.lt_of_le_of_lt (Nat.le_add_left _ _) hsize)
      obtain ⟨e, he⟩ := decodeFrom_take hdata []
        (last.bytes ++ CRLF ++ (trailer.flatMap (· ++ CRLF) ++ CRLF)) hend
      refine iff_of_true ⟨e, ?_⟩ (.inl rfl)
      simp only [Framing.isChunked, Framing.content, if_true]
      rw [decodeChunked, he]
      rfl

end Response

/-- **Responses are read back**, and a prefix that lacks a byte of the body is an error exactly in
chunks or when it ends within the head. -/
theorem response_read_back (r : Response) (hsize : r.encode.length < 2 ^ 63) :
    parseResponse r.encode = .ok (r.status, r.body) ∧
      ∀ k, r.Lacks k → ((∃ e, parseResponse (r.encode.take k) = .error e) ↔
        r.framing.isChunked = true ∨ k < r.headLength) :=
  ⟨r.parseResponse_encode hsize, fun _ hk => r.parseResponse_take hsize hk⟩

namespace Sample

/-- A response with an extension on its second chunk. -/
def greeting : Response where
  status := 200
  status_lt := by decide
  reason := some (utf8 "OK".toList)
  reason_whole := by rintro text ⟨⟩; decide
  before := []
  after := []
  others := by simp
  body := "hello"
  framing := .chunked
    { spelledName := "Transfer-Encoding".toList, name_eq := by decide, lead := [' ']
      spelledValue := "chunked".toList, value_eq := by decide, trail := [], isBlank := by simp }
    [{ data := utf8 "he".toList, data_ne := by decide
       size := ⟨['2'], by decide, by decide, [], by simp, none, by simp⟩ },
     { data := utf8 "llo".toList, data_ne := by decide
       size := ⟨['0', '3'], by decide, by decide, [], by simp, some (utf8 "x=1".toList), by
         rintro text ⟨⟩; decide⟩ }]
    (by decide) ⟨['0'], by decide, by decide, [], by simp, none, by simp⟩ []

theorem greeting_read_back : parseResponse greeting.encode = .ok (200, "hello") ∧
    ∃ e, parseResponse (greeting.encode.take (greeting.headLength + 7)) = .error e := by
  have hsize : greeting.encode.length < 2 ^ 63 := by decide +kernel
  have hlacks : greeting.Lacks (greeting.headLength + 7) := ⟨by decide, by decide +kernel⟩
  exact ⟨(response_read_back greeting hsize).1,
    ((response_read_back greeting hsize).2 _ hlacks).mpr (.inl rfl)⟩

/-- The same body in one piece. -/
def plain : Response where
  status := 200
  status_lt := by decide
  reason := some (utf8 "OK".toList)
  reason_whole := by rintro text ⟨⟩; decide
  before := []
  after := []
  others := by simp
  body := "hello"
  framing := .contentLength ['5'] (by simp) ⟨by decide, by decide⟩
    { spelledName := "Content-Length".toList, name_eq := by decide, lead := [' ']
      spelledValue := ['5'], value_eq := by decide, trail := [], isBlank := by simp }

/-- The connection was closed one byte early: the body read is the shorter one. -/
theorem closed_early :
    let raw := utf8 "HTTP/1.1 200 OK\r\nContent-Length: 5\r\n\r\nhell".toList
    plain.encode.take (plain.headLength + 4) = raw ∧ plain.Lacks (plain.headLength + 4) ∧
      parseResponse raw = .ok (200, "hell") := by
  have hraw : plain.encode.take (plain.headLength + 4) =
      utf8 "HTTP/1.1 200 OK\r\nContent-Length: 5\r\n\r\nhell".toList := by decide +kernel
  have hbody : plain.framing.content.take 4 = utf8 "hell".toList := by decide
  have hread := plain.parseResponse_head (plain.framing.content.take 4)
  refine ⟨hraw, ⟨by decide, by decide +kernel⟩, ?_⟩
  rw [Response.take_encode _ (Nat.le_add_right _ _), Nat.add_sub_cancel_left] at hraw
  rw [← hraw, hread, hbody]
  simp only [show plain.framing.isChunked = false from rfl, Bool.false_eq_true, if_false, Except.map,
    fromUtf8Lossy_utf8, String.ofList_toList]
  rfl

end Sample

end Http

end Pgpod
