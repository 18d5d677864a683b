import Pgpod.Core.Versions

/-!
# The texts of instance ids

An id is written as `<cluster>-<ordinal>` and read back around the last hyphen, with
the general integer parser for the ordinal.  That parser takes a plus sign and leading
zeros, so an instance has other names than the one it is written as.
-/

namespace Pgpod

/-! ## Numerals -/

/-- A digit is the numeral of its value. -/
theorem digitChar_digitsToNat {c : Char} (h : c.isDigit = true) :
    digitsToNat [c] < 10 ∧ (digitsToNat [c]).digitChar = c := by
  have hvalue : digitsToNat [c] = c.toNat - 48 := by simp [digitsToNat]
  obtain ⟨hlow, hhigh⟩ : 48 ≤ c.toNat ∧ c.toNat ≤ 57 := by
    simpa [Char.isDigit, UInt32.le_iff_toNat_le, Char.toNat_val] using h
  rw [hvalue]
  refine ⟨by omega, Char.toNat_inj.mp ?_⟩
  rw [Nat.toNat_digitChar_of_lt_ten (by omega)]
  omega

theorem head?_toDigits_ne_zero {n : Nat} (h : 0 < n) : (Nat.toDigits 10 n).head? ≠ some '0' := by
  induction n using Nat.strongRecOn with
  | _ n ih =>
    by_cases hlt : n < 10
    · rw [Nat.toDigits_of_lt_base hlt]
      simp only [List.head?_cons, ne_eq, Option.some.injEq, Nat.digitChar_eq_zero]
      omega
    · rw [Nat.toDigits_of_base_le (by omega) (by omega), List.head?_append]
      have hfront := ih (n / 10) (by omega) (by omega)
      cases hdigits : Nat.toDigits 10 (n / 10) with
      | nil => exact absurd hdigits Nat.toDigits_ne_nil
      | cons c cs =>
        rw [hdigits] at hfront
        exact hfront

/-- Digits without a zero in front are the numeral of their value. -/
theorem toDigits_digitsToNat {cs : List Char} (hne : cs ≠ [])
    (hdigits : ∀ c ∈ cs, c.isDigit = true) (hhead : cs.head? ≠ some '0') :
    Nat.toDigits 10 (digitsToNat cs) = cs := by
  induction cs using List.reverseRecOn with
  | nil => exact absurd rfl hne
  | append_singleton front c ih =>
    obtain ⟨hlt, hc⟩ := digitChar_digitsToNat (hdigits c (by simp))
    cases front with
    | nil => rw [List.nil_append, Nat.toDigits_of_lt_base hlt, hc]
    | cons d ds =>
      have hfront := ih (List.cons_ne_nil d ds) (fun x hx => hdigits x (List.mem_append_left _ hx)) hhead
      have hpos : 0 < digitsToNat (d :: ds) := by
        by_contra hzero
        rw [Nat.eq_zero_of_not_pos hzero, Nat.toDigits_zero] at hfront
        rw [← hfront] at hhead
        exact hhead rfl
      have hvalue : digitsToNat (d :: ds ++ [c]) = 10 * digitsToNat (d :: ds) + digitsToNat [c] := by
        simp [digitsToNat]
      rw [hvalue, ← Nat.toDigits_append_toDigits (by omega) hpos hlt, hfront,
        Nat.toDigits_of_lt_base hlt, hc]

/-- An ordinal that is not its number's numeral has a sign or a zero in front. -/
theorem eq_toDigits_of_parseU32 {cs : List Char} {n : Nat} (h : parseU32 cs = some n)
    (hsign : cs.head? ≠ some '+') (hzero : cs.head? ≠ some '0') : cs = Nat.toDigits 10 n := by
  unfold parseU32 at h
  split at h
  · exact absurd rfl hsign
  · simp only [Option.ite_none_left_eq_some, Option.ite_none_right_eq_some, Option.some.injEq,
      Bool.or_eq_true, not_or, List.isEmpty_iff, Bool.not_eq_true', Bool.not_eq_false,
      List.all_eq_true] at h
    obtain ⟨⟨hne, hdigits⟩, -, rfl⟩ := h
    exact (toDigits_digitsToNat hne hdigits hzero).symm

theorem hyphen_not_mem_of_parseU32 {cs : List Char} {n : Nat} (h : parseU32 cs = some n) :
    '-' ∉ cs := by
  have hdigits : ∀ ds : List Char, ds.all Char.isDigit = true → '-' ∉ ds := by
    intro ds hall hmem
    exact absurd (List.all_eq_true.mp hall _ hmem) (by decide)
  unfold parseU32 at h
  split at h <;>
    simp only [Option.ite_none_left_eq_some, Bool.or_eq_true, not_or, Bool.not_eq_true',
      Bool.not_eq_false] at h
  · exact List.not_mem_cons_of_ne_of_not_mem (by decide) (hdigits _ h.1.2)
  · exact hdigits _ h.1.2

/-! ## Reading an id -/

namespace InstanceId

/-- Parse `<cluster>-<ordinal>`.  Splits on the last `-` because cluster names may themselves
contain one. -/
def fromStr (s : String) : Except ParseInstanceIdError InstanceId :=
  match rsplitOnce s '-' with
  | none => .error (.missingOrdinal s)
  | some (cluster, ordinal) =>
    match parseU32 ordinal.toList with
    | none => .error (.missingOrdinal s)
    | some ordinal =>
      if ordinal = 0 then .error (.zeroOrdinal s)
      else do
        let cluster ← ClusterId.new cluster
        return ⟨cluster, .ofNat ordinal⟩

theorem ordinal_ne_zero {i : InstanceId} : i.ordinal ≠ 0 ↔ 0 < i.ordinal.toNat := by
  rw [Nat.pos_iff_ne_zero, ne_eq, ne_eq, ← UInt32.toNat_inj, UInt32.toNat_zero]

/-- The texts that are read as an id: its cluster's name, and its ordinal in any spelling. -/
theorem fromStr_eq_ok {s : String} {i : InstanceId} :
    fromStr s = .ok i ↔ i.ordinal ≠ 0 ∧ ∃ ordinal,
      s.toList = i.cluster.name.toList ++ '-' :: ordinal ∧
        parseU32 ordinal = some i.ordinal.toNat := by
  constructor
  · intro h
    unfold fromStr at h
    cases hsplit : rsplitOnce s '-' with
    | none => rw [hsplit] at h; cases h
    | some pair =>
      obtain ⟨cluster, ordinal⟩ := pair
      simp only [hsplit] at h
      cases hparse : parseU32 ordinal.toList with
      | none => rw [hparse] at h; cases h
      | some n =>
        simp only [hparse] at h
        split at h
        · cases h
        · next hn =>
          cases hnew : ClusterId.new cluster with
          | error e => rw [hnew] at h; cases h
          | ok c =>
            rw [hnew] at h
            obtain rfl := Except.ok.inj h
            obtain rfl := ClusterId.new_eq_ok.mp hnew
            have hvalue : (UInt32.ofNat n).toNat = n :=
              UInt32.toNat_ofNat_of_lt (parseU32_lt hparse)
            refine ⟨ordinal_ne_zero.mpr ?_, ordinal.toList, (rsplitOnce_eq_some.mp hsplit).1, ?_⟩
            · rw [hvalue]
              exact Nat.pos_of_ne_zero hn
            · rw [hparse, hvalue]
  · rintro ⟨hne, ordinal, hs, hparse⟩
    have hsplit : rsplitOnce s '-' = some (i.cluster.name, String.ofList ordinal) :=
      rsplitOnce_eq_some.mpr ⟨by rw [hs, String.toList_ofList], by
        rw [String.toList_ofList]; exact hyphen_not_mem_of_parseU32 hparse⟩
    have hnew : ClusterId.new i.cluster.name = .ok i.cluster := ClusterId.new_eq_ok.mpr rfl
    unfold fromStr
    simp only [hsplit, String.toList_ofList, hparse, (ordinal_ne_zero.mp hne).ne', if_false, hnew]
    change Except.ok ({ cluster := i.cluster, ordinal := UInt32.ofNat i.ordinal.toNat } :
      InstanceId) = Except.ok i
    rw [UInt32.ofNat_toNat]

theorem toList_toText (i : InstanceId) :
    i.toText.toList = i.cluster.name.toList ++ '-' :: Nat.toDigits 10 i.ordinal.toNat := by
  simp [toText, ordinalText, String.toList_append]

/-- An id is read back from its text. -/
theorem fromStr_toText {i : InstanceId} (h : i.ordinal ≠ 0) : fromStr i.toText = .ok i :=
  fromStr_eq_ok.mpr ⟨h, _, i.toList_toText, parseU32_toDigits i.ordinal.toNat_lt⟩

/-! ## Other names -/

/-- The text names an instance by a nonzero ordinal with a plus sign or a zero in front. -/
def Alias (s : String) : Prop :=
  ∃ (c : ClusterId) (ordinal : List Char) (n : Nat),
    s.toList = c.name.toList ++ '-' :: ordinal ∧ parseU32 ordinal = some n ∧ 0 < n ∧
      (ordinal.head? = some '+' ∨ ordinal.head? = some '0')

/-- The text is accepted exactly when it is an id's own, is what the id it is read as is written
as, and no other id's text is read as that. -/
structure RoundTrips (s : String) : Prop where
  accepted : (∃ i, fromStr s = .ok i) ↔ ∃ i : InstanceId, i.ordinal ≠ 0 ∧ i.toText = s
  formatted : ∀ i, fromStr s = .ok i → i.toText = s
  alone : ∀ i, fromStr s = .ok i → ∀ j : InstanceId, fromStr j.toText = .ok i → j.toText = s

theorem toText_of_fromStr {s : String} {i : InstanceId} (h : fromStr s = .ok i)
    (hs : ¬ Alias s) : i.toText = s := by
  obtain ⟨hne, ordinal, hlist, hparse⟩ := fromStr_eq_ok.mp h
  have hpos := ordinal_ne_zero.mp hne
  have hspelled : ordinal = Nat.toDigits 10 i.ordinal.toNat :=
    eq_toDigits_of_parseU32 hparse (fun hsign => hs ⟨_, _, _, hlist, hparse, hpos, .inl hsign⟩)
      fun hzero => hs ⟨_, _, _, hlist, hparse, hpos, .inr hzero⟩
  apply String.toList_injective
  rw [toList_toText, hlist, hspelled]

/-- No id is written with a sign or a zero in front of its ordinal. -/
theorem not_alias_toText (i : InstanceId) : ¬ Alias i.toText := by
  rintro ⟨c, ordinal, n, hlist, hparse, hpos, hhead⟩
  have hown : '-' ∉ Nat.toDigits 10 i.ordinal.toNat := not_mem_numeral (by decide)
  have hsplit : rsplitOnce i.toText '-' = some (c.name, String.ofList ordinal) :=
    rsplitOnce_eq_some.mpr ⟨by rw [hlist, String.toList_ofList], by
      rw [String.toList_ofList]; exact hyphen_not_mem_of_parseU32 hparse⟩
  have hsame : rsplitOnce i.toText '-' =
      some (i.cluster.name, String.ofList (Nat.toDigits 10 i.ordinal.toNat)) :=
    rsplitOnce_eq_some.mpr ⟨by rw [toList_toText, String.toList_ofList], by
      rw [String.toList_ofList]; exact hown⟩
  have hordinal : ordinal = Nat.toDigits 10 i.ordinal.toNat := by
    have htexts := (Prod.mk.inj (Option.some.inj (hsplit.symm.trans hsame))).2
    simpa using congrArg String.toList htexts
  subst hordinal
  rcases hhead with hsign | hzero
  · exact not_mem_numeral (by decide) (List.mem_of_mem_head? hsign)
  · have hvalue := Option.some.inj ((parseU32_toDigits i.ordinal.toNat_lt).symm.trans hparse)
    rw [hvalue] at hzero
    exact head?_toDigits_ne_zero hpos hzero

theorem roundTrips_iff (s : String) : RoundTrips s ↔ ¬ Alias s := by
  constructor
  · rintro h ⟨c, ordinal, n, hlist, hparse, hpos, hhead⟩
    have hvalue : (UInt32.ofNat n).toNat = n := UInt32.toNat_ofNat_of_lt (parseU32_lt hparse)
    have hread : fromStr s = .ok ⟨c, .ofNat n⟩ :=
      fromStr_eq_ok.mpr ⟨ordinal_ne_zero.mpr (by rwa [hvalue]), ordinal, hlist, by rw [hparse, hvalue]⟩
    have halias : Alias s := ⟨c, ordinal, n, hlist, hparse, hpos, hhead⟩
    rw [← h.formatted _ hread] at halias
    exact not_alias_toText _ halias
  · intro hs
    refine ⟨⟨fun ⟨i, h⟩ => ⟨i, (fromStr_eq_ok.mp h).1, toText_of_fromStr h hs⟩, ?_⟩,
      fun i h => toText_of_fromStr h hs, fun i h j hj => ?_⟩
    · rintro ⟨i, hne, rfl⟩
      exact ⟨i, fromStr_toText hne⟩
    · rw [← toText_of_fromStr hj (not_alias_toText j), toText_of_fromStr h hs]

/-- **Instance ids round trip** exactly through the texts without a sign or a zero in front of the
ordinal: of these no two are read as one id, and every id is read back from its own. -/
theorem round_trip_through_strings (s : String) :
    (RoundTrips s ↔ ¬ Alias s) ∧
    (∀ i : InstanceId, i.ordinal ≠ 0 → fromStr i.toText = .ok i) ∧
    ∀ t i, ¬ Alias s → ¬ Alias t → fromStr s = .ok i → fromStr t = .ok i → s = t := by
  refine ⟨roundTrips_iff s, fun i h => fromStr_toText h, fun t i hs ht hread hother => ?_⟩
  exact (toText_of_fromStr hread hs).symm.trans (toText_of_fromStr hother ht)

/-- At `mydb-1`. -/
theorem round_trip_mydb :
    let mydb : InstanceId := ⟨⟨"mydb", by decide⟩, 1⟩
    RoundTrips mydb.toText ∧ fromStr mydb.toText = .ok mydb ∧
      ∀ t, ¬ Alias t → fromStr t = .ok mydb → mydb.toText = t :=
  let ⟨hround, hread, halone⟩ := round_trip_through_strings _
  ⟨hround.mpr (not_alias_toText _), hread _ (by decide),
    fun t ht h => halone t _ (not_alias_toText _) ht (fromStr_toText (by decide)) h⟩

/-- `mydb-01` and `mydb-+1` are read as `mydb-1`. -/
theorem signed_and_padded_ordinals :
    let mydb : InstanceId := ⟨⟨"mydb", by decide⟩, 1⟩
    fromStr "mydb-1" = .ok mydb ∧ fromStr "mydb-01" = .ok mydb ∧ fromStr "mydb-+1" = .ok mydb ∧
      mydb.toText = "mydb-1" ∧ ¬ RoundTrips "mydb-01" ∧ ¬ RoundTrips "mydb-+1" := by
  have htext : (⟨⟨"mydb", by decide⟩, 1⟩ : InstanceId).toText = "mydb-1" := by decide
  have hpadded : fromStr "mydb-01" = .ok ⟨⟨"mydb", by decide⟩, 1⟩ := by decide
  have hsigned : fromStr "mydb-+1" = .ok ⟨⟨"mydb", by decide⟩, 1⟩ := by decide
  refine ⟨by decide, hpadded, hsigned, htext, fun h => ?_, fun h => ?_⟩
  · exact absurd (htext.symm.trans (h.formatted _ hpadded)) (by decide)
  · exact absurd (htext.symm.trans (h.formatted _ hsigned)) (by decide)

end InstanceId

end Pgpod
