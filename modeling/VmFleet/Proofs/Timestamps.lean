/-
Instants written as RFC 3339 text and read back. Every instant that the clock of
the calendar can show is read from its text as itself: in years of any number of
digits and before year 0, to the nanosecond, and in leap seconds.
-/
import VmFleet.Proofs.Networks
import VmFleet.Proofs.Stamps

namespace VmFleet

namespace Instant

open Text

variable {t : Instant} {n w : Nat} {rest : List Char}

/-- The instant lies in the calendar and in a second of a clock: if in a leap second, then in one
that follows a second 59. -/
def Shown (t : Instant) : Prop :=
  t.InCalendar ∧ (t.nano < 1000000000 ∨ t.nano < 2000000000 ∧ t.second % 60 = 59)

instance (t : Instant) : Decidable t.Shown := by unfold Shown; infer_instance

/-! ## Parts of a timestamp -/

theorem trimStart_digits {ds : List Char} (digits : ∀ c ∈ ds, c.isDigit = true) (filled : ds ≠ []) :
    trimStart (ds ++ rest) = ds ++ rest := by
  cases ds with
  | nil => exact absurd rfl filled
  | cons c ds => simp [trimStart, not_isBlank_of_isDigit (digits c List.mem_cons_self)]

theorem spanDigits_length {ds : List Char} (rest : List Char)
    (digits : ∀ c ∈ ds, c.isDigit = true) :
    spanDigits ds.length (ds ++ rest) = (ds, rest) := by
  induction ds with
  | nil => simp [spanDigits]
  | cons d ds ih =>
    have ih := ih fun c hc => digits c (List.mem_cons_of_mem d hc)
    simp [spanDigits, digits d List.mem_cons_self, ih]

theorem fixedDigits_ne_nil (filled : 0 < w) : fixedDigits w n ≠ [] := by
  rw [← List.length_pos_iff, length_fixedDigits]
  exact filled

theorem readNumber?_fixedDigits (filled : 0 < w) (h : n < 10 ^ w) :
    readNumber? w (fixedDigits w n ++ rest) = some (n, rest) := by
  have digits : ∀ c ∈ fixedDigits w n, c.isDigit = true := fun _ => isDigit_of_mem_fixedDigits
  have span : spanDigits w (fixedDigits w n ++ rest) = (fixedDigits w n, rest) := by
    have exactly := spanDigits_length rest digits
    rwa [length_fixedDigits] at exactly
  rw [readNumber?, trimStart_digits digits (fixedDigits_ne_nil filled), span]
  split
  · next none => exact absurd (congrArg Prod.fst none) (fixedDigits_ne_nil filled)
  · next same =>
    cases same
    rw [digitsValue_fixedDigits h]

theorem isDigit_of_mem_paddedDigits {c : Char} (h : c ∈ paddedDigits w n) : c.isDigit = true := by
  rw [paddedDigits] at h
  split at h
  · exact isDigit_of_mem_fixedDigits h
  · exact isDigit_of_mem_decimal h

theorem digitsValue_paddedDigits : digitsValue (paddedDigits w n) = n := by
  rw [paddedDigits]
  split
  · next h => exact digitsValue_fixedDigits h
  · exact digitsValue_decimal n

theorem paddedDigits_ne_nil (filled : 0 < w) : paddedDigits w n ≠ [] := by
  rw [paddedDigits]
  split
  · exact fixedDigits_ne_nil filled
  · exact decimal_ne_nil n

theorem spanDigits_paddedDigits (w n : Nat) (stop : ∀ c ∈ rest.head?, c.isDigit = false) :
    spanDigits (paddedDigits w n ++ rest).length (paddedDigits w n ++ rest) =
      (paddedDigits w n, rest) :=
  spanDigits_append (fun _ => isDigit_of_mem_paddedDigits) (by simp) stop

theorem readYear?_yearChars (y : Int) :
    readYear? (yearChars y ++ '-' :: rest) = some (y, '-' :: rest) := by
  have stop : ∀ c ∈ ('-' :: rest).head?, c.isDigit = false := by
    intro c first
    cases first
    rfl
  have padded := spanDigits_paddedDigits 4 y.natAbs stop
  obtain ⟨d, ds, digits⟩ := List.exists_cons_of_ne_nil
    (paddedDigits_ne_nil (n := y.natAbs) (by decide : 0 < 4))
  rw [yearChars]
  split
  · next within =>
    have read : readNumber? 4 (fixedDigits 4 y.toNat ++ '-' :: rest) =
        some (y.toNat, '-' :: rest) :=
      readNumber?_fixedDigits (by decide) (by omega)
    have plain : trimStart (fixedDigits 4 y.toNat ++ '-' :: rest) =
        fixedDigits 4 y.toNat ++ '-' :: rest :=
      trimStart_digits (fun _ => isDigit_of_mem_fixedDigits) (fixedDigits_ne_nil (by decide))
    have year : (y.toNat : Int) = y := Int.toNat_of_nonneg within.1
    rw [readYear?, plain]
    split
    · next sign =>
      have digit := digitChar_isDigit (y.toNat / 10 / 10 / 10)
      rw [(List.cons.inj sign).1] at digit
      cases digit
    · next sign =>
      have digit := digitChar_isDigit (y.toNat / 10 / 10 / 10)
      rw [(List.cons.inj sign).1] at digit
      cases digit
    · rw [read, Option.map_some]
      exact congrArg (fun y => some (y, '-' :: rest)) year
  · next beyond =>
    have value : digitsValue (d :: ds) = y.natAbs := by
      rw [← digits, digitsValue_paddedDigits]
    rw [digits] at padded ⊢
    split
    · next before =>
      have plain : trimStart ('-' :: (d :: ds ++ '-' :: rest)) = '-' :: (d :: ds ++ '-' :: rest) :=
        rfl
      rw [List.cons_append, readYear?, plain]
      simp only [padded, value]
      rw [show (-1 : Int) * y.natAbs = y by omega]
    · next after =>
      have plain : trimStart ('+' :: (d :: ds ++ '-' :: rest)) = '+' :: (d :: ds ++ '-' :: rest) :=
        rfl
      rw [List.cons_append, readYear?, plain]
      simp only [padded, value]
      rw [show (1 : Int) * y.natAbs = y by omega]

theorem readMark?_cons {mark : Char} (plain : isBlank mark = false) :
    readMark? mark (mark :: rest) = some rest := by
  simp [readMark?, trimStart, plain]

theorem readFraction?_fractionChars (h : n < 1000000000) :
    readFraction? (fractionChars n ++ ['Z']) = some (n, ['Z']) := by
  have point : ∀ w k, 0 < w → w ≤ 9 → k < 10 ^ w → k * 10 ^ (9 - w) = n →
      readFraction? ('.' :: fixedDigits w k ++ ['Z']) = some (n, ['Z']) := by
    intro w k filled narrow small value
    have span : spanDigits 9 (fixedDigits w k ++ ['Z']) = (fixedDigits w k, ['Z']) :=
      spanDigits_append (fun _ => isDigit_of_mem_fixedDigits)
        (by rw [length_fixedDigits]; exact narrow) (by simp)
    obtain ⟨d, ds, digits⟩ := List.exists_cons_of_ne_nil (fixedDigits_ne_nil (n := k) filled)
    have same : digitsValue (d :: ds) = k := by rw [← digits, digitsValue_fixedDigits small]
    have length : (d :: ds).length = w := by rw [← digits, length_fixedDigits]
    rw [digits] at span ⊢
    simp only [List.cons_append, readFraction?] at span ⊢
    simp only [span, same, length]
    rw [show Nat.pow 10 (9 - w) = 10 ^ (9 - w) from rfl, value]
    rfl
  rw [fractionChars]
  split
  · next none => rw [none]; rfl
  split
  · next millis => exact point 3 _ (by decide) (by decide) (by omega) (by omega)
  split
  · next micros => exact point 6 _ (by decide) (by decide) (by omega) (by omega)
  · next nanos => exact point 9 _ (by decide) (by decide) (by omega) (by omega)

/-! ## Timestamps -/

theorem chars_eq (t : Instant) :
    t.chars = yearChars t.date.year ++ '-' :: (fixedDigits 2 t.date.month ++ '-' ::
      (fixedDigits 2 t.date.day ++ 'T' :: (fixedDigits 2 (t.secondOfDay / 3600) ++ ':' ::
        (fixedDigits 2 (t.secondOfDay / 60 % 60) ++ ':' :: (fixedDigits 2 t.writtenSecond ++
          (fractionChars t.fraction ++ ['Z'])))))) := by
  simp only [chars, clockChars, writtenSecond, List.append_assoc, List.cons_append]

theorem Shown.readChars?_chars (h : t.Shown) : readChars? t.chars = some t := by
  obtain ⟨_, month, _, -⟩ := t.date_valid
  have day := t.date_day_lt
  have clock := t.secondOfDay_lt
  have written := writtenSecond_cases h.2
  have two : ∀ {n rest}, n < 100 → readNumber? 2 (fixedDigits 2 n ++ rest) = some (n, rest) :=
    fun small => readNumber?_fixedDigits (by decide) small
  have dash : ∀ rest, readMark? '-' ('-' :: rest) = some rest := fun _ => readMark?_cons rfl
  have colon : ∀ rest, readMark? ':' (':' :: rest) = some rest := fun _ => readMark?_cons rfl
  have fraction : readFraction? (fractionChars t.fraction ++ ['Z']) = some (t.fraction, ['Z']) :=
    readFraction?_fractionChars (by omega)
  have offset : readOffset? (trimStart ['Z']) = some (0, []) := rfl
  have wall : ofClock? t.date (t.secondOfDay / 3600) (t.secondOfDay / 60 % 60) t.writtenSecond
      t.fraction = some t := by
    rcases written with ⟨-, second, nano⟩ | ⟨nano, second, -, last⟩
    · rw [second, ofClock?_date h.1, nano]
    · rw [second, ofClock?_leap, ← last, ofClock?_date h.1, ← nano]
  rw [chars_eq]
  refine Option.bind_eq_some_iff.mpr ⟨_, readYear?_yearChars _, ?_⟩
  refine Option.bind_eq_some_iff.mpr ⟨_, dash _, ?_⟩
  refine Option.bind_eq_some_iff.mpr ⟨_, two (by omega), ?_⟩
  refine Option.bind_eq_some_iff.mpr ⟨_, dash _, ?_⟩
  refine Option.bind_eq_some_iff.mpr ⟨_, two day, ?_⟩
  refine Option.bind_eq_some_iff.mpr ⟨_, two (by omega), ?_⟩
  refine Option.bind_eq_some_iff.mpr ⟨_, colon _, ?_⟩
  refine Option.bind_eq_some_iff.mpr ⟨_, two (by omega), ?_⟩
  refine Option.bind_eq_some_iff.mpr ⟨_, colon _, ?_⟩
  refine Option.bind_eq_some_iff.mpr ⟨_, two (by omega), ?_⟩
  refine Option.bind_eq_some_iff.mpr ⟨_, fraction, ?_⟩
  refine Option.bind_eq_some_iff.mpr ⟨_, offset, ?_⟩
  refine Option.bind_eq_some_iff.mpr ⟨_, wall, ?_⟩
  have same : (⟨t.second - 0, t.nano⟩ : Instant) = t := by rw [Int.sub_zero]
  simp only [same, if_pos h.1]

/-- An instant is read back from its text. -/
theorem Shown.read?_text (h : t.Shown) : read? t.text = some t := by
  rw [read?, text, String.toList_ofList, h.readChars?_chars]

end Instant

end VmFleet
