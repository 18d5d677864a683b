import Mathlib.Data.List.Basic
import Mathlib.Tactic.Common

/-!
# Streaming decoders

A decoder reads one item from the front of a buffer, asks for more, or fails.  What it
makes of a stream does not depend on where the stream is cut into chunks: the items
written whole so far have been read, and the buffer holds what is written of the next.
-/

namespace Streaming

variable {β α ε μ : Type*}

/-- A decoder consumes something with every item. -/
structure Decoder (β α ε : Type*) where
  decode : List β → Except ε (Option α) × List β
  shrinks : ∀ {buf : List β} {a : α} {rest : List β},
    decode buf = (.ok (some a), rest) → rest.length < buf.length

/-- What was read, what stopped the reading, and what is left. -/
structure Drained (β α ε : Type*) where
  items : List α
  failure : Option ε
  buffer : List β

namespace Drained

def prepend (items : List α) (out : Drained β α ε) : Drained β α ε :=
  { out with items := items ++ out.items }

end Drained

namespace Decoder

/-- Decode until the buffer holds no whole item. -/
def drain (d : Decoder β α ε) (buf : List β) : Drained β α ε :=
  match _ : d.decode buf with
  | (.error e, rest) => ⟨[], some e, rest⟩
  | (.ok none, rest) => ⟨[], none, rest⟩
  | (.ok (some a), rest) => (d.drain rest).prepend [a]
termination_by buf.length
decreasing_by exact d.shrinks ‹_›

/-- Read chunk after chunk, draining the buffer after each. -/
def feed (d : Decoder β α ε) (buf : List β) : List (List β) → Drained β α ε
  | [] => ⟨[], none, buf⟩
  | chunk :: chunks =>
    let out := d.drain (buf ++ chunk)
    match out.failure with
    | some _ => out
    | none => (d.feed out.buffer chunks).prepend out.items

theorem drain_none {d : Decoder β α ε} {buf rest : List β} (h : d.decode buf = (.ok none, rest)) :
    d.drain buf = ⟨[], none, rest⟩ := by
  rw [drain]
  split <;> simp_all

theorem drain_some {d : Decoder β α ε} {buf rest : List β} {a : α}
    (h : d.decode buf = (.ok (some a), rest)) : d.drain buf = (d.drain rest).prepend [a] := by
  rw [drain]
  split <;> simp_all

end Decoder

/-- The front of the first message, without its end. -/
def Partial (encode : μ → List β) : List μ → List β → Prop
  | [], suffix => suffix = []
  | m :: _, suffix => suffix <+: encode m ∧ suffix.length < (encode m).length

/-- What is written of a list of messages splits at the last one written whole. -/
theorem exists_split (encode : μ → List β) {messages : List μ} {written : List β}
    (h : written <+: messages.flatMap encode) :
    ∃ done left suffix, messages = done ++ left ∧ written = done.flatMap encode ++ suffix ∧
      Partial encode left suffix := by
  induction messages generalizing written with
  | nil =>
    rw [List.flatMap_nil, List.prefix_nil] at h
    exact ⟨[], [], [], rfl, by simp [h], rfl⟩
  | cons m messages ih =>
    rw [List.flatMap_cons] at h
    by_cases hlen : written.length < (encode m).length
    · have hfront : written <+: encode m :=
        List.prefix_of_prefix_length_le h (List.prefix_append _ _) (by omega)
      exact ⟨[], m :: messages, written, rfl, by simp, hfront, hlen⟩
    · have hwhole : encode m <+: written :=
        List.prefix_of_prefix_length_le (List.prefix_append _ _) h (by omega)
      obtain ⟨rest, rfl⟩ := hwhole
      rw [List.prefix_append_right_inj] at h
      obtain ⟨done, left, suffix, rfl, rfl, htail⟩ := ih h
      exact ⟨m :: done, left, suffix, rfl, by rw [List.flatMap_cons, List.append_assoc], htail⟩

/-- The decoder reads what the encoder writes of messages that satisfy `P`, and waits for
the end of one. -/
structure Reads (d : Decoder β α ε) (encode : μ → List β) (read : μ → α) (P : μ → Prop) : Prop where
  whole : ∀ {m}, P m → ∀ rest, d.decode (encode m ++ rest) = (.ok (some (read m)), rest)
  short : ∀ {m}, P m → ∀ {front}, front <+: encode m → front.length < (encode m).length →
    d.decode front = (.ok none, front)
  empty : d.decode [] = (.ok none, [])

namespace Reads

variable {d : Decoder β α ε} {encode : μ → List β} {read : μ → α} {P : μ → Prop}

theorem decode_waits (h : Reads d encode read P) {left : List μ} (hleft : ∀ m ∈ left, P m)
    {suffix : List β} (htail : Partial encode left suffix) :
    d.decode suffix = (.ok none, suffix) := by
  cases left with
  | nil =>
    obtain rfl : suffix = [] := htail
    exact h.empty
  | cons m left => exact h.short (hleft m List.mem_cons_self) htail.1 htail.2

/-- Whole messages are read in order, and the front of the next is kept. -/
theorem drain_encoded (h : Reads d encode read P) {done left : List μ} {suffix : List β}
    (hdone : ∀ m ∈ done, P m) (hleft : ∀ m ∈ left, P m) (htail : Partial encode left suffix) :
    d.drain (done.flatMap encode ++ suffix) = ⟨done.map read, none, suffix⟩ := by
  induction done with
  | nil => exact Decoder.drain_none (h.decode_waits hleft htail)
  | cons m done ih =>
    rw [List.forall_mem_cons] at hdone
    have hdecode := h.whole hdone.1 (done.flatMap encode ++ suffix)
    rw [← List.append_assoc, ← List.flatMap_cons] at hdecode
    rw [Decoder.drain_some hdecode, ih hdone.2]
    rfl

/-- **Any cut of the stream**: from the front of the next message in the buffer, chunks of
what is written after it yield the messages they complete. -/
theorem feed_encoded (h : Reads d encode read P) {messages : List μ} (hall : ∀ m ∈ messages, P m)
    {buf : List β} (hbuf : Partial encode messages buf) {chunks : List (List β)}
    (hcut : buf ++ chunks.flatten <+: messages.flatMap encode) :
    ∃ done left suffix, messages = done ++ left ∧
      buf ++ chunks.flatten = done.flatMap encode ++ suffix ∧ Partial encode left suffix ∧
      d.feed buf chunks = ⟨done.map read, none, suffix⟩ := by
  induction chunks generalizing buf messages with
  | nil => exact ⟨[], messages, buf, rfl, by simp, hbuf, rfl⟩
  | cons chunk chunks ih =>
    rw [List.flatten_cons, ← List.append_assoc] at hcut
    obtain ⟨done, left, suffix, rfl, hfirst, htail⟩ :=
      exists_split encode ((List.prefix_append _ _).trans hcut)
    have hdone (m : μ) (hm : m ∈ done) : P m := hall m (List.mem_append_left _ hm)
    have hleft (m : μ) (hm : m ∈ left) : P m := hall m (List.mem_append_right _ hm)
    have hdrain := h.drain_encoded hdone hleft htail
    rw [hfirst, List.flatMap_append, List.append_assoc, List.prefix_append_right_inj] at hcut
    obtain ⟨done', left', suffix', rfl, hnext, htail', hfeed⟩ := ih hleft htail hcut
    refine ⟨done ++ done', left', suffix', by simp, ?_, htail', ?_⟩
    · rw [List.flatten_cons, ← List.append_assoc, hfirst, List.append_assoc, hnext,
        List.flatMap_append, List.append_assoc]
    · rw [Decoder.feed, hfirst, hdrain]
      simp only [hfeed, Drained.prepend, List.map_append]

end Reads

end Streaming
