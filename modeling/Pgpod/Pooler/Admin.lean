import Pgpod.Core.Bytes
import Pgpod.Core.Streaming
import Pgpod.Core.Text

/-!
# pg_doorman's admin console, as bytes

What the agent decodes of the PostgreSQL wire protocol.  A slice that is out of range is
a panic, here a failure of its own.
-/

namespace Pgpod

open Bytes

namespace Admin

inductive Failure
  | protocol (message : String)
  /-- An index or a slice out of range. -/
  | outOfRange
deriving DecidableEq

/-! ## Slices -/

def index (bytes : List UInt8) (i : Nat) : Except Failure UInt8 :=
  match bytes[i]? with
  | some b => .ok b
  | none => .error .outOfRange

/-- `bytes[lo..hi]`. -/
def slice (bytes : List UInt8) (lo hi : Nat) : Except Failure (List UInt8) :=
  if lo ≤ hi ∧ hi ≤ bytes.length then .ok ((bytes.take hi).drop lo) else .error .outOfRange

/-- `bytes[lo..]`. -/
def sliceFrom (bytes : List UInt8) (lo : Nat) : Except Failure (List UInt8) :=
  slice bytes lo bytes.length

def i32At (bytes : List UInt8) (i : Nat) : Except Failure Int := do
  return i32OfBe (← index bytes i) (← index bytes (i + 1)) (← index bytes (i + 2))
    (← index bytes (i + 3))

def u16At (bytes : List UInt8) (i : Nat) : Except Failure Nat := do
  return u16OfBe (← index bytes i) (← index bytes (i + 1))

/-! ## Messages -/

inductive Backend
  | authenticationOk
  | authenticationMd5 (salt : UInt8 × UInt8 × UInt8 × UInt8)
  | authenticationOther (code : Int)
  | rowDescription (names : List String)
  | dataRow (values : List (Option String))
  | commandComplete (tag : String)
  | errorResponse (text : String)
  | readyForQuery
  | other (tag : UInt8)
deriving DecidableEq

def lossy (bytes : List UInt8) : String := String.ofList (fromUtf8Lossy bytes)

def takeCstr (buf : List UInt8) : Except Failure (String × List UInt8) :=
  match buf.findIdx? (· = 0) with
  | none => .error (.protocol "unterminated string")
  | some stop => do
    let text ← slice buf 0 stop
    let rest ← sliceFrom buf (stop + 1)
    return (lossy text, rest)

def fieldNames : Nat → List UInt8 → Except Failure (List String)
  | 0, _ => .ok []
  | n + 1, rest => do
    let (name, tail) ← takeCstr rest
    if tail.length < 18 then .error (.protocol "truncated field description")
    else
      let rest ← sliceFrom tail 18
      return name :: (← fieldNames n rest)

def columnValues : Nat → List UInt8 → Except Failure (List (Option String))
  | 0, _ => .ok []
  | n + 1, rest =>
    if rest.length < 4 then .error (.protocol "truncated column length")
    else do
      let len ← i32At rest 0
      let rest ← sliceFrom rest 4
      if len < 0 then return none :: (← columnValues n rest)
      else if rest.length < len.toNat then .error (.protocol "truncated column value")
      else
        let value ← slice rest 0 len.toNat
        let rest ← sliceFrom rest len.toNat
        return some (lossy value) :: (← columnValues n rest)

def byte (c : Char) : UInt8 := .ofNat c.toNat

theorem slice_eq_ok {bytes out : List UInt8} {lo hi : Nat} (h : slice bytes lo hi = .ok out) :
    lo ≤ hi ∧ hi ≤ bytes.length ∧ out = (bytes.take hi).drop lo := by
  unfold slice at h
  split_ifs at h with hrange
  exact ⟨hrange.1, hrange.2, (Except.ok.inj h).symm⟩

theorem takeCstr_eq_ok {buf rest : List UInt8} {text : String} (h : takeCstr buf = .ok (text, rest)) :
    rest.length < buf.length := by
  unfold takeCstr at h
  cases hstop : buf.findIdx? (· = 0) with
  | none =>
    rw [hstop] at h
    cases h
  | some stop =>
    rw [hstop] at h
    cases htext : slice buf 0 stop with
    | error e => simp [htext, bind, Except.bind] at h
    | ok value =>
      cases hrest : sliceFrom buf (stop + 1) with
      | error e => simp [htext, hrest, bind, Except.bind] at h
      | ok tail =>
        simp [htext, hrest, bind, Except.bind, pure, Except.pure] at h
        obtain ⟨hlow, -, htail⟩ := slice_eq_ok hrest
        obtain rfl := h.2
        rw [htail, List.length_drop, List.take_length]
        omega

/-- The severity and the message of an error, each the last of its kind. -/
def errorFields (rest : List UInt8) (severity message : Option String) :
    Except Failure (Option String × Option String) :=
  match rest with
  | [] => .ok (severity, message)
  | field :: tail =>
    if field = 0 then .ok (severity, message)
    else
      match _ : takeCstr tail with
      | .error .outOfRange => .error .outOfRange
      | .error (.protocol _) => .ok (severity, message)
      | .ok (value, next) =>
        if field = byte 'S' then errorFields next (some value) message
        else if field = byte 'M' then errorFields next severity (some value)
        else errorFields next severity message
termination_by rest.length
decreasing_by
  all_goals
    have hshorter := takeCstr_eq_ok ‹_›
    simp only [List.length_cons]
    omega

def errorText (body : List UInt8) : Except Failure String := do
  match ← errorFields body none none with
  | (some s, some m) => return s ++ ": " ++ m
  | (_, some m) => return m
  | _ => return "the pooler reported an error with no message"

def parse (tag : UInt8) (body : List UInt8) : Except Failure Backend :=
  if tag = byte 'R' then
    if body.length < 4 then .error (.protocol "truncated authentication request")
    else do
      let code ← i32At body 0
      if code = 0 then return .authenticationOk
      else if code = 5 then
        if body.length < 8 then .error (.protocol "MD5 request carries no salt")
        else
          return .authenticationMd5 (← index body 4, ← index body 5, ← index body 6, ← index body 7)
      else return .authenticationOther code
  else if tag = byte 'T' then
    if body.length < 2 then .error (.protocol "truncated row description")
    else do
      let count ← u16At body 0
      let rest ← sliceFrom body 2
      return .rowDescription (← fieldNames count rest)
  else if tag = byte 'D' then
    if body.length < 2 then .error (.protocol "truncated data row")
    else do
      let count ← u16At body 0
      let rest ← sliceFrom body 2
      return .dataRow (← columnValues count rest)
  else if tag = byte 'C' then do return .commandComplete (← takeCstr body).1
  else if tag = byte 'E' then do return .errorResponse (← errorText body)
  else if tag = byte 'Z' then .ok .readyForQuery
  else .ok (.other tag)

/-- `{:?}` of a byte as a character. -/
def debugByte (b : UInt8) : String :=
  if b = byte '\'' then "'\\''"
  else if b = byte '"' then "'\"'"
  -- a no-break space and a soft hyphen are not printable
  else if b = 0xA0 || b = 0xAD then
    "'\\u\x7b" ++ String.ofList (Nat.toDigits 16 b.toNat) ++ "\x7d'"
  else "'" ++ Text.debugChar (Char.ofNat b.toNat) ++ "'"

def MAX_LENGTH : Int := 1073741823

/-- Decode one message from the front of the buffer, and leave what follows it. -/
def decode (buf : List UInt8) : Except Failure (Option Backend) × List UInt8 :=
  if buf.length < 5 then (.ok none, buf)
  else
    match index buf 0, i32At buf 1 with
    | .error e, _ | _, .error e => (.error e, buf)
    | .ok tag, .ok len =>
      if ¬ (4 ≤ len ∧ len ≤ MAX_LENGTH) then
        (.error (.protocol ("message " ++ debugByte tag ++ " declares a length of " ++ toString len)),
          buf)
      else
        let total := 1 + len.toNat
        if buf.length < total then (.ok none, buf)
        else
          match slice buf 5 total with
          | .error e => (.error e, buf)
          | .ok body => ((parse tag body).map some, buf.drop total)

/-! ## No slice is out of range -/

def InRange {α : Type} (x : Except Failure α) : Prop := x ≠ .error .outOfRange

theorem inRange_ok {α : Type} (a : α) : InRange (.ok a) := by
  intro h
  cases h

theorem inRange_protocol {α : Type} (message : String) : InRange (α := α) (.error (.protocol message)) := by
  intro h
  cases h

theorem InRange.bind {α β : Type} {x : Except Failure α} {f : α → Except Failure β} (hx : InRange x)
    (hf : ∀ a, x = .ok a → InRange (f a)) : InRange (x >>= f) := by
  cases x with
  | ok a => exact hf a rfl
  | error e =>
    intro h
    exact hx (congrArg Except.error (Except.error.inj h))

theorem InRange.ite {α : Type} {c : Prop} [Decidable c] {x y : Except Failure α} (hx : c → InRange x)
    (hy : ¬ c → InRange y) : InRange (if c then x else y) := by
  by_cases h : c
  · rw [if_pos h]
    exact hx h
  · rw [if_neg h]
    exact hy h

theorem index_inRange {bytes : List UInt8} {i : Nat} (h : i < bytes.length) : InRange (index bytes i) := by
  rw [index, List.getElem?_eq_getElem h]
  exact inRange_ok _

theorem slice_inRange {bytes : List UInt8} {lo hi : Nat} (hlow : lo ≤ hi) (hhigh : hi ≤ bytes.length) :
    InRange (slice bytes lo hi) := by
  rw [slice, if_pos ⟨hlow, hhigh⟩]
  exact inRange_ok _

theorem sliceFrom_inRange {bytes : List UInt8} {lo : Nat} (h : lo ≤ bytes.length) :
    InRange (sliceFrom bytes lo) := slice_inRange h le_rfl

theorem i32At_inRange {bytes : List UInt8} {i : Nat} (h : i + 3 < bytes.length) :
    InRange (i32At bytes i) := by
  refine (index_inRange (by omega)).bind fun _ _ => ?_
  refine (index_inRange (by omega)).bind fun _ _ => ?_
  refine (index_inRange (by omega)).bind fun _ _ => ?_
  exact (index_inRange h).bind fun _ _ => inRange_ok _

theorem u16At_inRange {bytes : List UInt8} {i : Nat} (h : i + 1 < bytes.length) :
    InRange (u16At bytes i) := by
  refine (index_inRange (by omega)).bind fun _ _ => ?_
  exact (index_inRange h).bind fun _ _ => inRange_ok _

theorem takeCstr_inRange (buf : List UInt8) : InRange (takeCstr buf) := by
  unfold takeCstr
  cases hstop : buf.findIdx? (· = 0) with
  | none => exact inRange_protocol _
  | some stop =>
    obtain ⟨hlt, -⟩ := List.findIdx?_eq_some_iff_findIdx_eq.mp hstop
    refine (slice_inRange (by omega) (by omega)).bind fun _ _ => ?_
    exact (sliceFrom_inRange (by omega)).bind fun _ _ => inRange_ok _

theorem fieldNames_inRange (n : Nat) (rest : List UInt8) : InRange (fieldNames n rest) := by
  induction n generalizing rest with
  | zero => exact inRange_ok _
  | succ n ih =>
    refine (takeCstr_inRange rest).bind fun cell _ => ?_
    dsimp only
    split_ifs with hshort
    · exact inRange_protocol _
    · refine (sliceFrom_inRange (by omega)).bind fun tail _ => ?_
      exact (ih tail).bind fun _ _ => inRange_ok _

theorem columnValues_inRange (n : Nat) (rest : List UInt8) : InRange (columnValues n rest) := by
  induction n generalizing rest with
  | zero => exact inRange_ok _
  | succ n ih =>
    rw [columnValues]
    split_ifs with hshort
    · exact inRange_protocol _
    · refine (i32At_inRange (by omega)).bind fun len _ => ?_
      refine (sliceFrom_inRange (by omega)).bind fun tail htail => ?_
      split_ifs with hnull htrunc
      · exact (ih tail).bind fun _ _ => inRange_ok _
      · exact inRange_protocol _
      · refine (slice_inRange (by omega) (by omega)).bind fun _ _ => ?_
        refine (sliceFrom_inRange (by omega)).bind fun next _ => ?_
        exact (ih next).bind fun _ _ => inRange_ok _

theorem errorFields_nil (severity message : Option String) :
    errorFields [] severity message = .ok (severity, message) := by
  rw [errorFields]

theorem errorFields_zero (tail : List UInt8) (severity message : Option String) :
    errorFields (0 :: tail) severity message = .ok (severity, message) := by
  rw [errorFields, if_pos rfl]

/-- A field is kept when it is the severity or the message. -/
theorem errorFields_cons {field : UInt8} (hfield : field ≠ 0) {tail next : List UInt8} {value : String}
    (htail : takeCstr tail = .ok (value, next)) (severity message : Option String) :
    errorFields (field :: tail) severity message =
      errorFields next (if field = byte 'S' then some value else severity)
        (if field = byte 'M' then some value else message) := by
  have hdistinct : byte 'S' ≠ byte 'M' := by decide
  rw [errorFields, if_neg hfield]
  split
  · rename_i h
    cases h.symm.trans htail
  · rename_i h
    cases h.symm.trans htail
  · rename_i v n h
    obtain ⟨rfl, rfl⟩ := Prod.mk.inj (Except.ok.inj (h.symm.trans htail))
    by_cases hs : field = byte 'S'
    · rw [if_pos hs, if_pos hs, if_neg (hs ▸ hdistinct)]
    · rw [if_neg hs, if_neg hs]
      by_cases hm : field = byte 'M'
      · rw [if_pos hm, if_pos hm]
      · rw [if_neg hm, if_neg hm]

theorem errorFields_broken {field : UInt8} {tail : List UInt8} {text : String}
    (htail : takeCstr tail = .error (.protocol text)) (severity message : Option String) :
    errorFields (field :: tail) severity message = .ok (severity, message) := by
  rw [errorFields]
  by_cases hfield : field = 0
  · rw [if_pos hfield]
  · rw [if_neg hfield]
    split
    · rename_i h
      cases h.symm.trans htail
    · rfl
    · rename_i h
      cases h.symm.trans htail

theorem errorFields_inRange (rest : List UInt8) (severity message : Option String) :
    InRange (errorFields rest severity message) := by
  induction hlen : rest.length using Nat.strong_induction_on generalizing rest severity message with
  | _ n ih =>
    cases rest with
    | nil =>
      rw [errorFields_nil]
      exact inRange_ok _
    | cons field tail =>
      by_cases hfield : field = 0
      · rw [hfield, errorFields_zero]
        exact inRange_ok _
      · cases htail : takeCstr tail with
        | ok cell =>
          have hshorter := takeCstr_eq_ok htail
          rw [errorFields_cons hfield htail]
          rw [List.length_cons] at hlen
          exact ih _ (by omega) _ _ _ rfl
        | error e =>
          cases e with
          | outOfRange => exact absurd htail (takeCstr_inRange tail)
          | protocol text =>
            rw [errorFields_broken htail]
            exact inRange_ok _

theorem parse_inRange (tag : UInt8) (body : List UInt8) : InRange (parse tag body) := by
  refine .ite (fun _ => .ite (fun _ => inRange_protocol _) fun hlen => ?_) fun _ =>
    .ite (fun _ => .ite (fun _ => inRange_protocol _) fun hlen => ?_) fun _ =>
    .ite (fun _ => .ite (fun _ => inRange_protocol _) fun hlen => ?_) fun _ =>
    .ite (fun _ => ?_) fun _ => .ite (fun _ => ?_) fun _ =>
    .ite (fun _ => inRange_ok _) fun _ => inRange_ok _
  · refine (i32At_inRange (by omega)).bind fun code _ => .ite (fun _ => inRange_ok _) fun _ =>
      .ite (fun _ => .ite (fun _ => inRange_protocol _) fun hsalt => ?_) fun _ => inRange_ok _
    refine (index_inRange (by omega)).bind fun _ _ => ?_
    refine (index_inRange (by omega)).bind fun _ _ => ?_
    refine (index_inRange (by omega)).bind fun _ _ => ?_
    exact (index_inRange (by omega)).bind fun _ _ => inRange_ok _
  · refine (u16At_inRange (by omega)).bind fun count _ => ?_
    refine (sliceFrom_inRange (by omega)).bind fun rest _ => ?_
    exact (fieldNames_inRange count rest).bind fun _ _ => inRange_ok _
  · refine (u16At_inRange (by omega)).bind fun count _ => ?_
    refine (sliceFrom_inRange (by omega)).bind fun rest _ => ?_
    exact (columnValues_inRange count rest).bind fun _ _ => inRange_ok _
  · exact (takeCstr_inRange body).bind fun _ _ => inRange_ok _
  · refine InRange.bind ?_ fun _ _ => inRange_ok _
    refine (errorFields_inRange body none none).bind fun fields _ => ?_
    split <;> exact inRange_ok _

/-! ## One frame at a time -/

/-- A tag, a length that covers itself, and as many bytes as it declares. -/
def IsFrame (frame : List UInt8) : Prop :=
  ∃ tag a b c d body, frame = tag :: a :: b :: c :: d :: body ∧ i32OfBe a b c d = body.length + 4

def badLength (tag : UInt8) (len : Int) : Failure :=
  .protocol ("message " ++ debugByte tag ++ " declares a length of " ++ toString len)

theorem decode_short {buf : List UInt8} (h : buf.length < 5) : decode buf = (.ok none, buf) := by
  rw [decode, if_pos h]

/-- A buffer with a whole header: the length is refused, or the frame is incomplete, or its
body is parsed. -/
theorem decode_header (tag a b c d : UInt8) (rest : List UInt8) :
    decode (tag :: a :: b :: c :: d :: rest) =
      if ¬ (4 ≤ i32OfBe a b c d ∧ i32OfBe a b c d ≤ MAX_LENGTH) then
        (.error (badLength tag (i32OfBe a b c d)), tag :: a :: b :: c :: d :: rest)
      else if rest.length + 4 < (i32OfBe a b c d).toNat then
        (.ok none, tag :: a :: b :: c :: d :: rest)
      else
        ((parse tag (rest.take ((i32OfBe a b c d).toNat - 4))).map some,
          rest.drop ((i32OfBe a b c d).toNat - 4)) := by
  have hlong : ¬ (tag :: a :: b :: c :: d :: rest).length < 5 := by simp
  have htag : index (tag :: a :: b :: c :: d :: rest) 0 = .ok tag := rfl
  have hlen : i32At (tag :: a :: b :: c :: d :: rest) 1 = .ok (i32OfBe a b c d) := rfl
  rw [decode, if_neg hlong, htag, hlen]
  dsimp only
  by_cases hrange : 4 ≤ i32OfBe a b c d ∧ i32OfBe a b c d ≤ MAX_LENGTH
  · rw [if_neg (not_not_intro hrange), if_neg (not_not_intro hrange)]
    generalize hn : (i32OfBe a b c d).toNat = n
    have hfour : 4 ≤ n := by omega
    by_cases hwhole : rest.length + 4 < n
    · rw [if_pos (by simp only [List.length_cons]; omega), if_pos hwhole]
    · have hslice : slice (tag :: a :: b :: c :: d :: rest) 5 (1 + n) = .ok (rest.take (n - 4)) := by
        rw [slice, if_pos ⟨by omega, by simp only [List.length_cons]; omega⟩]
        obtain ⟨k, rfl⟩ := Nat.exists_eq_add_of_le' hfour
        rw [show 1 + (k + 4) = k + 5 by omega]
        rfl
      rw [if_neg (by simp only [List.length_cons]; omega), if_neg hwhole, hslice]
      obtain ⟨k, rfl⟩ := Nat.exists_eq_add_of_le' hfour
      rw [show 1 + (k + 4) = k + 5 by omega]
      rfl
  · rw [if_pos hrange, if_pos hrange]
    rfl

theorem exists_header {buf : List UInt8} (h : 5 ≤ buf.length) :
    ∃ tag a b c d rest, buf = tag :: a :: b :: c :: d :: rest := by
  match buf with
  | tag :: a :: b :: c :: d :: rest => exact ⟨tag, a, b, c, d, rest, rfl⟩
  | [] | [_] | [_, _] | [_, _, _] | [_, _, _, _] => simp at h

/-- **One step of the decoder**: it waits and leaves the buffer as it is, or fails on what
the buffer holds, or consumes one declared frame. -/
theorem decode_cases (buf : List UInt8) :
    decode buf = (.ok none, buf) ∨ (∃ message, (decode buf).1 = .error (.protocol message)) ∨
      ∃ m frame rest, buf = frame ++ rest ∧ IsFrame frame ∧ decode buf = (.ok (some m), rest) := by
  by_cases hshort : buf.length < 5
  · exact .inl (decode_short hshort)
  · obtain ⟨tag, a, b, c, d, rest, rfl⟩ := exists_header (not_lt.mp hshort)
    rw [decode_header]
    by_cases hrange : 4 ≤ i32OfBe a b c d ∧ i32OfBe a b c d ≤ MAX_LENGTH
    · rw [if_neg (not_not_intro hrange)]
      by_cases hwhole : rest.length + 4 < (i32OfBe a b c d).toNat
      · rw [if_pos hwhole]
        exact .inl rfl
      · rw [if_neg hwhole]
        refine .inr ?_
        cases hparse : parse tag (rest.take ((i32OfBe a b c d).toNat - 4)) with
        | error e =>
          cases e with
          | protocol message => exact .inl ⟨message, rfl⟩
          | outOfRange => exact absurd hparse (parse_inRange _ _)
        | ok m =>
          refine .inr ⟨m, tag :: a :: b :: c :: d :: rest.take ((i32OfBe a b c d).toNat - 4),
            rest.drop ((i32OfBe a b c d).toNat - 4), by simp, ?_, rfl⟩
          refine ⟨tag, a, b, c, d, _, rfl, ?_⟩
          rw [List.length_take]
          omega
    · rw [if_pos hrange]
      exact .inr (.inl ⟨_, rfl⟩)

theorem decode_shrinks {buf rest : List UInt8} {m : Backend} (h : decode buf = (.ok (some m), rest)) :
    rest.length < buf.length := by
  obtain hnone | ⟨message, herr⟩ | ⟨m', frame, rest', rfl, hframe, hsome⟩ := decode_cases buf
  · cases h.symm.trans hnone
  · rw [h] at herr
    cases herr
  · obtain ⟨-, rfl⟩ := Prod.mk.inj (h.symm.trans hsome)
    obtain ⟨tag, a, b, c, d, body, rfl, -⟩ := hframe
    simp only [List.length_append, List.length_cons]
    omega

def decoder : Streaming.Decoder UInt8 Backend Failure where
  decode := decode
  shrinks := decode_shrinks

end Admin

end Pgpod
