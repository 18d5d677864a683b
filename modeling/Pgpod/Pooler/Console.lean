import Pgpod.Pooler.Admin

/-!
# What the admin console writes

The backend messages in bytes, and the agent's reading of them: the decoder reads each
as it was meant, wherever the stream is cut.
-/

namespace Pgpod

open Bytes

namespace Admin

structure Field where
  name : String
  /-- Table and type, which the agent skips. -/
  metadata : List UInt8
deriving DecidableEq

/-- A backend message with everything it carries. -/
inductive Message
  | authenticationOk
  | authenticationMd5 (salt : UInt8 × UInt8 × UInt8 × UInt8)
  | authenticationOther (code : Int) (data : List UInt8)
  | rowDescription (fields : List Field)
  | dataRow (values : List (Option String))
  | commandComplete (tag : String)
  | errorResponse (fields : List (UInt8 × String))
  | readyForQuery (status : UInt8)
  | other (tag : UInt8) (body : List UInt8)
deriving DecidableEq

def cstr (s : String) : List UInt8 := utf8 s.toList ++ [0]

def columnBytes : Option String → List UInt8
  | none => i32ToBe (-1)
  | some s => i32ToBe (utf8 s.toList).length ++ utf8 s.toList

/-- The last field of a kind. -/
def lastField (kind : UInt8) (fields : List (UInt8 × String)) : Option String :=
  ((fields.filter fun f => f.1 = kind).map Prod.snd).getLast?

namespace Message

def tag : Message → UInt8
  | authenticationOk | authenticationMd5 _ | authenticationOther .. => byte 'R'
  | rowDescription _ => byte 'T'
  | dataRow _ => byte 'D'
  | commandComplete _ => byte 'C'
  | errorResponse _ => byte 'E'
  | readyForQuery _ => byte 'Z'
  | other tag _ => tag

def body : Message → List UInt8
  | authenticationOk => i32ToBe 0
  | authenticationMd5 (a, b, c, d) => i32ToBe 5 ++ [a, b, c, d]
  | authenticationOther code data => i32ToBe code ++ data
  | rowDescription fields =>
    u16ToBe fields.length ++ fields.flatMap fun f => cstr f.name ++ f.metadata
  | dataRow values => u16ToBe values.length ++ values.flatMap columnBytes
  | commandComplete tag => cstr tag
  | errorResponse fields => (fields.flatMap fun f => f.1 :: cstr f.2) ++ [0]
  | readyForQuery status => [status]
  | other _ body => body

def encode (m : Message) : List UInt8 := m.tag :: (i32ToBe (m.body.length + 4) ++ m.body)

/-- The text of a message has no NUL, a count fits in two bytes and a length in four. -/
def WellFormed (m : Message) : Prop :=
  (m.body.length + 4 : Int) ≤ MAX_LENGTH ∧
    match m with
    | authenticationOther code _ =>
      -2147483648 ≤ code ∧ code < 2147483648 ∧ code ≠ 0 ∧ code ≠ 5
    | rowDescription fields =>
      fields.length < 65536 ∧ ∀ f ∈ fields, '\x00' ∉ f.name.toList ∧ f.metadata.length = 18
    | dataRow values => values.length < 65536
    | commandComplete tag => '\x00' ∉ tag.toList
    | errorResponse fields => ∀ f ∈ fields, f.1 ≠ 0 ∧ '\x00' ∉ f.2.toList
    | other tag _ => tag ∉ ['R', 'T', 'D', 'C', 'E', 'Z'].map byte
    | authenticationOk | authenticationMd5 _ | readyForQuery _ => True

/-- What the agent is to make of the message. -/
def read : Message → Backend
  | authenticationOk => .authenticationOk
  | authenticationMd5 salt => .authenticationMd5 salt
  | authenticationOther code _ => .authenticationOther code
  | rowDescription fields => .rowDescription (fields.map Field.name)
  | dataRow values => .dataRow values
  | commandComplete tag => .commandComplete tag
  | errorResponse fields =>
    .errorResponse <|
      match lastField (byte 'S') fields, lastField (byte 'M') fields with
      | some severity, some message => severity ++ ": " ++ message
      | none, some message => message
      | _, none => "the pooler reported an error with no message"
  | readyForQuery _ => .readyForQuery
  | other tag _ => .other tag

end Message

/-! ## Reading back what is written -/

theorem slice_append (front rest : List UInt8) : slice (front ++ rest) 0 front.length = .ok front := by
  rw [slice, if_pos ⟨Nat.zero_le _, by simp⟩, List.take_left, List.drop_zero]

theorem sliceFrom_append (front rest : List UInt8) :
    sliceFrom (front ++ rest) front.length = .ok rest := by
  rw [sliceFrom, slice, if_pos ⟨by simp, le_rfl⟩, List.take_length, List.drop_left]

theorem i32At_i32ToBe {n : Int} (hlow : -2147483648 ≤ n) (hhigh : n < 2147483648)
    (rest : List UInt8) : i32At (i32ToBe n ++ rest) 0 = .ok n := by
  obtain ⟨a, b, c, d, hbytes, hvalue⟩ := i32OfBe_i32ToBe hlow hhigh
  rw [hbytes]
  exact congrArg Except.ok hvalue

theorem u16At_u16ToBe {n : Nat} (h : n < 65536) (rest : List UInt8) :
    u16At (u16ToBe n ++ rest) 0 = .ok n := congrArg Except.ok (u16OfBe_u16ToBe h)

theorem lossy_utf8 (s : String) : lossy (utf8 s.toList) = s := by
  rw [lossy, fromUtf8Lossy_utf8, String.ofList_toList]

theorem takeCstr_cstr {s : String} (h : '\x00' ∉ s.toList) (rest : List UInt8) :
    takeCstr (cstr s ++ rest) = .ok (s, rest) := by
  have hfree := zero_not_mem_utf8 h
  have hstop : (cstr s ++ rest).findIdx? (· = 0) = some (utf8 s.toList).length := by
    have hnone : (utf8 s.toList).findIdx? (· = 0) = none := by
      rw [List.findIdx?_eq_none_iff]
      intro b hb
      rw [decide_eq_false_iff_not]
      intro hzero
      exact hfree (hzero ▸ hb)
    rw [cstr, List.append_assoc, List.findIdx?_append, hnone]
    simp [List.findIdx?_cons]
  have htext : slice (cstr s ++ rest) 0 (utf8 s.toList).length = .ok (utf8 s.toList) := by
    rw [cstr, List.append_assoc]
    exact slice_append _ _
  have hrest : sliceFrom (cstr s ++ rest) ((utf8 s.toList).length + 1) = .ok rest := by
    have hlen : (utf8 s.toList).length + 1 = (cstr s).length := by simp [cstr]
    rw [hlen, sliceFrom_append]
  rw [takeCstr, hstop]
  dsimp only
  rw [htext, hrest]
  exact congrArg (fun t => Except.ok (t, rest)) (lossy_utf8 s)

theorem fieldNames_encoded {fields : List Field}
    (h : ∀ f ∈ fields, '\x00' ∉ f.name.toList ∧ f.metadata.length = 18) :
    fieldNames fields.length (fields.flatMap fun f => cstr f.name ++ f.metadata) =
      .ok (fields.map Field.name) := by
  induction fields with
  | nil => rfl
  | cons f fields ih =>
    rw [List.forall_mem_cons] at h
    obtain ⟨⟨hname, hmeta⟩, hrest⟩ := h
    rw [List.length_cons, fieldNames, List.flatMap_cons, List.append_assoc, takeCstr_cstr hname]
    have hskip := sliceFrom_append f.metadata (fields.flatMap fun f => cstr f.name ++ f.metadata)
    rw [hmeta] at hskip
    have hlong : ¬ (f.metadata ++ fields.flatMap fun f => cstr f.name ++ f.metadata).length < 18 := by
      rw [List.length_append]
      omega
    change (if _ then _ else _) = _
    rw [if_neg hlong, hskip]
    change (do return f.name :: (← fieldNames fields.length _)) = _
    rw [ih hrest]
    rfl

theorem columnValues_encoded {values : List (Option String)}
    (h : (values.flatMap columnBytes).length < 2147483648) :
    columnValues values.length (values.flatMap columnBytes) = .ok values := by
  induction values with
  | nil => rfl
  | cons value values ih =>
    rw [List.flatMap_cons, List.length_append] at h
    have hrest := ih (by omega)
    rw [List.length_cons, columnValues, List.flatMap_cons]
    cases value with
    | none =>
      have hlong : ¬ (columnBytes none ++ values.flatMap columnBytes).length < 4 := by
        rw [List.length_append, columnBytes, length_i32ToBe]
        omega
      have hlen : i32At (columnBytes none ++ values.flatMap columnBytes) 0 = .ok (-1) :=
        i32At_i32ToBe (by omega) (by omega) _
      have hskip : sliceFrom (columnBytes none ++ values.flatMap columnBytes) 4 =
          .ok (values.flatMap columnBytes) := sliceFrom_append (columnBytes none) _
      rw [if_neg hlong, hlen, hskip]
      change (do return none :: (← columnValues values.length _)) = _
      rw [hrest]
      rfl
    | some s =>
      have hsize : (columnBytes (some s)).length = 4 + (utf8 s.toList).length := by
        rw [columnBytes, List.length_append, length_i32ToBe]
      have hbytes : columnBytes (some s) ++ values.flatMap columnBytes =
          i32ToBe (utf8 s.toList).length ++ (utf8 s.toList ++ values.flatMap columnBytes) := by
        rw [columnBytes, List.append_assoc]
      have hlong : ¬ (columnBytes (some s) ++ values.flatMap columnBytes).length < 4 := by
        rw [List.length_append]
        omega
      have hlen : i32At (columnBytes (some s) ++ values.flatMap columnBytes) 0 =
          .ok ((utf8 s.toList).length : Int) := by
        rw [hbytes]
        exact i32At_i32ToBe (by omega) (by omega) _
      have hskip : sliceFrom (columnBytes (some s) ++ values.flatMap columnBytes) 4 =
          .ok (utf8 s.toList ++ values.flatMap columnBytes) := by
        rw [hbytes]
        exact sliceFrom_append (i32ToBe (utf8 s.toList).length) _
      have hnotNull : ¬ ((utf8 s.toList).length : Int) < 0 := by omega
      have hwhole : ¬ (utf8 s.toList ++ values.flatMap columnBytes).length <
          ((utf8 s.toList).length : Int).toNat := by
        rw [List.length_append]
        omega
      rw [if_neg hlong, hlen, hskip]
      simp only [bind, Except.bind]
      rw [if_neg hnotNull, if_neg hwhole, Int.toNat_natCast, slice_append, sliceFrom_append]
      dsimp only
      rw [hrest, lossy_utf8]
      rfl

theorem lastField_cons (kind : UInt8) (f : UInt8 × String) (fields : List (UInt8 × String))
    (before : Option String) :
    (lastField kind (f :: fields)).or before =
      (lastField kind fields).or (if f.1 = kind then some f.2 else before) := by
  by_cases h : f.1 = kind
  · rw [if_pos h, lastField, List.filter_cons_of_pos (by simpa using h), List.map_cons,
      List.getLast?_cons, ← lastField]
    cases lastField kind fields <;> rfl
  · rw [if_neg h, lastField, List.filter_cons_of_neg (by simpa using h), ← lastField]

theorem errorFields_encoded {fields : List (UInt8 × String)}
    (h : ∀ f ∈ fields, f.1 ≠ 0 ∧ '\x00' ∉ f.2.toList) (severity message : Option String) :
    errorFields ((fields.flatMap fun f => f.1 :: cstr f.2) ++ [0]) severity message =
      .ok ((lastField (byte 'S') fields).or severity, (lastField (byte 'M') fields).or message) := by
  induction fields generalizing severity message with
  | nil => exact errorFields_zero [] severity message
  | cons f fields ih =>
    rw [List.forall_mem_cons] at h
    obtain ⟨⟨hkind, htext⟩, hrest⟩ := h
    rw [List.flatMap_cons, List.cons_append, List.cons_append, List.append_assoc,
      errorFields_cons hkind (takeCstr_cstr htext _), ih hrest, lastField_cons, lastField_cons]

namespace Message

theorem parse_encoded {m : Message} (h : m.WellFormed) : parse m.tag m.body = .ok m.read := by
  obtain ⟨hsize, hform⟩ := h
  rw [MAX_LENGTH] at hsize
  cases m with
  | authenticationOk =>
    have hcode := i32At_i32ToBe (n := 0) (by omega) (by omega) []
    rw [List.append_nil] at hcode
    rw [tag, body, parse, if_pos rfl, if_neg (by rw [length_i32ToBe]; omega), hcode]
    rfl
  | authenticationMd5 salt =>
    have hcode := i32At_i32ToBe (n := 5) (by omega) (by omega) [salt.1, salt.2.1, salt.2.2.1, salt.2.2.2]
    rw [tag, body, parse, if_pos rfl, if_neg (by rw [List.length_append, length_i32ToBe]; omega), hcode]
    rfl
  | authenticationOther code data =>
    obtain ⟨hlow, hhigh, hzero, hfive⟩ := hform
    have hlong : ¬ (i32ToBe code ++ data).length < 4 := by
      rw [List.length_append, length_i32ToBe]
      omega
    rw [tag, body, parse, if_pos rfl, if_neg hlong, i32At_i32ToBe hlow hhigh]
    change (if _ then _ else if _ then _ else _) = _
    rw [if_neg hzero, if_neg hfive]
    rfl
  | rowDescription fields =>
    obtain ⟨hcount, hfields⟩ := hform
    have hskip : sliceFrom (u16ToBe fields.length ++ fields.flatMap fun f => cstr f.name ++ f.metadata) 2 =
        .ok (fields.flatMap fun f => cstr f.name ++ f.metadata) := sliceFrom_append (u16ToBe fields.length) _
    have hlong : ¬ (u16ToBe fields.length ++
        fields.flatMap fun f => cstr f.name ++ f.metadata).length < 2 := by
      rw [List.length_append, length_u16ToBe]
      omega
    rw [tag, body, parse, if_neg (by decide), if_pos rfl, if_neg hlong, u16At_u16ToBe hcount, hskip]
    change (do return Backend.rowDescription (← fieldNames fields.length _)) = _
    rw [fieldNames_encoded hfields]
    rfl
  | dataRow values =>
    have hcount : values.length < 65536 := hform
    have hskip : sliceFrom (u16ToBe values.length ++ values.flatMap columnBytes) 2 =
        .ok (values.flatMap columnBytes) := sliceFrom_append (u16ToBe values.length) _
    have hlong : ¬ (u16ToBe values.length ++ values.flatMap columnBytes).length < 2 := by
      rw [List.length_append, length_u16ToBe]
      omega
    have hbytes : (values.flatMap columnBytes).length < 2147483648 := by
      rw [body, List.length_append] at hsize
      omega
    rw [tag, body, parse, if_neg (by decide), if_neg (by decide), if_pos rfl, if_neg hlong,
      u16At_u16ToBe hcount, hskip]
    change (do return Backend.dataRow (← columnValues values.length _)) = _
    rw [columnValues_encoded hbytes]
    rfl
  | commandComplete text =>
    have hcstr := takeCstr_cstr (s := text) hform []
    rw [List.append_nil] at hcstr
    rw [tag, body, parse, if_neg (by decide), if_neg (by decide), if_neg (by decide), if_pos rfl, hcstr]
    rfl
  | errorResponse fields =>
    have hfields := errorFields_encoded hform none none
    rw [tag, body, parse, if_neg (by decide), if_neg (by decide), if_neg (by decide),
      if_neg (by decide), if_pos rfl, errorText, hfields, Option.or_none, Option.or_none, read]
    cases lastField (byte 'S') fields <;> cases lastField (byte 'M') fields <;> rfl
  | readyForQuery status => rfl
  | other tag body =>
    simp only [List.map_cons, List.map_nil, List.mem_cons, List.not_mem_nil, or_false, not_or] at hform
    obtain ⟨hr, ht, hd, hc, he, hz⟩ := hform
    rw [Message.tag, parse, if_neg hr, if_neg ht, if_neg hd, if_neg hc, if_neg he, if_neg hz]
    rfl

/-- A whole message at the front of the buffer is read, and no more. -/
theorem decode_encoded {m : Message} (h : m.WellFormed) (rest : List UInt8) :
    decode (m.encode ++ rest) = (.ok (some m.read), rest) := by
  have hsize := h.1
  rw [MAX_LENGTH] at hsize
  obtain ⟨a, b, c, d, hbytes, hvalue⟩ := i32OfBe_i32ToBe (n := (m.body.length + 4 : Int)) (by omega) (by omega)
  have hrange : 4 ≤ i32OfBe a b c d ∧ i32OfBe a b c d ≤ MAX_LENGTH := by
    rw [hvalue, MAX_LENGTH]
    omega
  have hbody : (i32OfBe a b c d).toNat - 4 = m.body.length := by omega
  rw [encode, hbytes, List.cons_append, List.append_assoc]
  change decode (m.tag :: a :: b :: c :: d :: (m.body ++ rest)) = _
  rw [decode_header, if_neg (not_not_intro hrange),
    if_neg (by rw [List.length_append]; omega), hbody, List.take_left, List.drop_left, parse_encoded h]
  rfl

/-- The front of a message is waited for. -/
theorem decode_front {m : Message} (h : m.WellFormed) {front : List UInt8} (hfront : front <+: m.encode)
    (hlen : front.length < m.encode.length) : decode front = (.ok none, front) := by
  have hsize := h.1
  rw [MAX_LENGTH] at hsize
  by_cases hshort : front.length < 5
  · exact decode_short hshort
  · obtain ⟨tag, a, b, c, d, rest, rfl⟩ := exists_header (not_lt.mp hshort)
    obtain ⟨a', b', c', d', hbytes, hvalue⟩ :=
      i32OfBe_i32ToBe (n := (m.body.length + 4 : Int)) (by omega) (by omega)
    rw [encode, hbytes] at hfront hlen
    simp only [List.cons_append, List.nil_append, List.cons_prefix_cons] at hfront
    obtain ⟨rfl, rfl, rfl, rfl, rfl, -⟩ := hfront
    simp only [List.length_cons, List.length_append, List.length_nil] at hlen
    have hrange : 4 ≤ i32OfBe a b c d ∧ i32OfBe a b c d ≤ MAX_LENGTH := by
      rw [hvalue, MAX_LENGTH]
      omega
    rw [decode_header, if_neg (not_not_intro hrange), if_pos (by omega)]

end Message

theorem reads : Streaming.Reads decoder Message.encode Message.read Message.WellFormed where
  whole := Message.decode_encoded
  short := Message.decode_front
  empty := rfl

/-- **The console's stream**: wherever the bytes of well-formed messages are cut, feeding
the chunks reads the messages that are whole so far, each as meant and in order, without
an error, and keeps the front of the next; all of them when all bytes have come.  And a
call of the decoder on any bytes waits, fails, or consumes the one frame they declare. -/
theorem console_stream :
    (∀ messages : List Message, (∀ m ∈ messages, m.WellFormed) →
      ∀ (chunks : List (List UInt8)) (unread : List UInt8),
      chunks.flatten ++ unread = messages.flatMap Message.encode →
      ∃ done left suffix, messages = done ++ left ∧
        chunks.flatten = done.flatMap Message.encode ++ suffix ∧
        Streaming.Partial Message.encode left suffix ∧
        decoder.feed [] chunks = ⟨done.map Message.read, none, suffix⟩ ∧
        (unread = [] → left = [] ∧ suffix = [])) ∧
    ∀ buf : List UInt8,
      decode buf = (.ok none, buf) ∨ (∃ message, (decode buf).1 = .error (.protocol message)) ∨
        ∃ m frame rest, buf = frame ++ rest ∧ IsFrame frame ∧ decode buf = (.ok (some m), rest) := by
  refine ⟨fun messages hall chunks unread hcut => ?_, decode_cases⟩
  have hempty : Streaming.Partial Message.encode messages [] := by
    cases messages with
    | nil => rfl
    | cons m messages => exact ⟨List.nil_prefix, by simp [Message.encode]⟩
  obtain ⟨done, left, suffix, rfl, hwritten, htail, hfeed⟩ :=
    reads.feed_encoded hall hempty ⟨unread, hcut⟩
  refine ⟨done, left, suffix, rfl, hwritten, htail, hfeed, fun hread => ?_⟩
  rw [List.nil_append] at hwritten
  rw [hread, List.append_nil, hwritten, List.flatMap_append, List.append_cancel_left_eq] at hcut
  cases left with
  | nil => exact ⟨rfl, hcut⟩
  | cons m left =>
    have hlong := congrArg List.length hcut
    rw [List.flatMap_cons, List.length_append] at hlong
    have hshort := htail.2
    omega

/-- A row with a NULL and the end of the answer. -/
def sampleAnswer : List Message := [.dataRow [some "appdb", none], .readyForQuery (byte 'I')]

theorem console_stream_sample :
    (decoder.feed [] ((sampleAnswer.flatMap Message.encode).map fun b => [b])).items =
      [.dataRow [some "appdb", none], .readyForQuery] := by
  have hwell : ∀ m ∈ sampleAnswer, m.WellFormed := by
    intro m hm
    rw [sampleAnswer, List.mem_cons, List.mem_singleton] at hm
    obtain rfl | rfl := hm
    · exact ⟨by decide +kernel, by decide⟩
    · exact ⟨by decide, trivial⟩
  have hcut : ((sampleAnswer.flatMap Message.encode).map fun b => [b]).flatten ++ [] =
      sampleAnswer.flatMap Message.encode := by
    rw [List.append_nil, ← List.flatMap_def, List.flatMap_singleton']
  obtain ⟨done, left, suffix, hsplit, -, -, hfeed, hread⟩ :=
    console_stream.1 sampleAnswer hwell _ [] hcut
  obtain ⟨rfl, rfl⟩ := hread rfl
  rw [List.append_nil] at hsplit
  rw [hfeed, ← hsplit]
  rfl

end Admin

end Pgpod
