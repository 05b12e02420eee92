/-
Times as the task table holds them. In years of four digits the texts are in the
order of time and read back as the times they were made of, cut to microseconds.
A leap second has a text of its own where it follows a second 59, as all do.
-/
import Mathlib.Data.String.Basic
import VmFleet.Proofs.AddressText
import VmFleet.Proofs.Dates
import VmFleet.Store.Stamp

namespace VmFleet

/-! ## Digits of a fixed width -/

namespace Text

theorem length_fixedDigits (w n : Nat) : (fixedDigits w n).length = w := by
  induction w generalizing n with
  | zero => rfl
  | succ w ih => simp [fixedDigits, ih]

theorem digitsValue_fixedDigits {w n : Nat} (h : n < 10 ^ w) :
    digitsValue (fixedDigits w n) = n := by
  induction w generalizing n with
  | zero =>
    obtain rfl : n = 0 := by simpa using h
    rfl
  | succ w ih =>
    rw [pow_succ] at h
    rw [fixedDigits, digitsValue_concat, ih (by omega), digitValue_digitChar]
    omega

theorem isDigit_of_mem_fixedDigits {w n : Nat} {c : Char} (h : c ∈ fixedDigits w n) :
    c.isDigit = true := by
  induction w generalizing n with
  | zero => cases h
  | succ w ih =>
    rcases List.mem_append.mp h with h | h
    · exact ih h
    · rw [List.mem_singleton.mp h]
      exact digitChar_isDigit n

theorem readDigits?_fixedDigits {w n : Nat} (some_digits : 0 < w) (h : n < 10 ^ w) :
    readDigits? (fixedDigits w n) = some n := by
  have filled : fixedDigits w n ≠ [] := by
    rw [← List.length_pos_iff, length_fixedDigits]
    exact some_digits
  have all : (fixedDigits w n).all Char.isDigit = true :=
    List.all_eq_true.mpr fun c hc => isDigit_of_mem_fixedDigits hc
  simp [readDigits?, filled, all, digitsValue_fixedDigits h]

theorem digitChar_cons_lt_iff {n m : Nat} {x y : List Char} :
    digitChar n :: x < digitChar m :: y ↔ n % 10 < m % 10 ∨ n % 10 = m % 10 ∧ x < y := by
  have digits : ∀ a b : Fin 10, (Char.ofNat (48 + a) < Char.ofNat (48 + b) ↔ a < b) ∧
      (Char.ofNat (48 + a) = Char.ofNat (48 + b) ↔ a = b) := by decide
  obtain ⟨lt, eq⟩ := digits ⟨n % 10, Nat.mod_lt _ (by decide)⟩ ⟨m % 10, Nat.mod_lt _ (by decide)⟩
  have lt : digitChar n < digitChar m ↔ n % 10 < m % 10 := lt
  have eq : digitChar n = digitChar m ↔ n % 10 = m % 10 := eq.trans Fin.mk.inj_iff
  rw [List.cons_lt_cons_iff, lt, eq]

theorem fixedDigits_append_lt_iff {w n m : Nat} {x y : List Char} (hn : n < 10 ^ w)
    (hm : m < 10 ^ w) :
    fixedDigits w n ++ x < fixedDigits w m ++ y ↔ n < m ∨ n = m ∧ x < y := by
  induction w generalizing n m x y with
  | zero =>
    obtain ⟨rfl, rfl⟩ : n = 0 ∧ m = 0 := by simpa using And.intro hn hm
    simp [fixedDigits]
  | succ w ih =>
    rw [pow_succ] at hn hm
    simp only [fixedDigits, List.append_assoc, List.singleton_append,
      ih (n := n / 10) (m := m / 10) (by omega) (by omega), digitChar_cons_lt_iff]
    by_cases tail : x < y
    · simp only [tail, and_true]
      omega
    · simp only [tail, and_false, or_false]
      omega

end Text

/-! ## Times of four-digit years -/

namespace Instant

variable {t u v : Instant}

/-- The instant lies in a year of four digits and in no leap second. -/
def Legible (t : Instant) : Prop :=
  0 ≤ t.date.year ∧ t.date.year ≤ 9999 ∧ t.nano < 1000000000

instance (t : Instant) : Decidable t.Legible := by unfold Legible; infer_instance

/-- The instant lies in a year of four digits and in a second of a clock: if in a leap second, then
in one that follows a second 59. -/
def Writable (t : Instant) : Prop :=
  0 ≤ t.date.year ∧ t.date.year ≤ 9999 ∧
    (t.nano < 1000000000 ∨ t.nano < 2000000000 ∧ t.second % 60 = 59)

instance (t : Instant) : Decidable t.Writable := by unfold Writable; infer_instance

theorem Legible.writable (h : t.Legible) : t.Writable :=
  ⟨h.1, h.2.1, .inl h.2.2⟩

/-- The second of its minute that is written of an instant. -/
def writtenSecond (t : Instant) : Nat :=
  if 1000000000 ≤ t.nano then t.secondOfDay % 60 + 1 else t.secondOfDay % 60

/-- The text of a writable instant from its numbers. -/
theorem Writable.microChars_eq (h : t.Writable) :
    t.microChars = Text.fixedDigits 4 t.date.year.toNat ++ '-' ::
      (Text.fixedDigits 2 t.date.month ++ '-' :: (Text.fixedDigits 2 t.date.day ++ 'T' ::
        (Text.fixedDigits 2 (t.secondOfDay / 3600) ++ ':' ::
          (Text.fixedDigits 2 (t.secondOfDay / 60 % 60) ++ ':' ::
            (Text.fixedDigits 2 t.writtenSecond ++ '.' ::
              (Text.fixedDigits 6 (t.fraction / 1000) ++ ['Z'])))))) := by
  obtain ⟨lower, upper, -⟩ := h
  simp only [microChars, clockChars, yearChars, writtenSecond, if_pos (And.intro lower upper),
    List.append_assoc, List.cons_append]

theorem date_valid (t : Instant) : t.date.Valid :=
  Date.ofDays_valid _

theorem date_day_lt (t : Instant) : t.date.day < 100 := by
  obtain ⟨-, -, -, last⟩ := t.date_valid
  have longest : Date.daysInMonth t.date.year t.date.month ≤ 31 := by
    unfold Date.daysInMonth
    split
    · split <;> decide
    all_goals decide
  omega

theorem secondOfDay_lt (t : Instant) : t.secondOfDay < 86400 := by
  simp only [secondOfDay]
  omega

/-- The second that is written and its fraction, as against the nanoseconds into the second. -/
theorem writtenSecond_cases
    (second : t.nano < 1000000000 ∨ t.nano < 2000000000 ∧ t.second % 60 = 59) :
    t.nano < 1000000000 ∧ t.writtenSecond = t.secondOfDay % 60 ∧ t.fraction = t.nano ∨
      t.nano = t.fraction + 1000000000 ∧ t.writtenSecond = 60 ∧ t.fraction < 1000000000 ∧
        t.secondOfDay % 60 = 59 := by
  rcases second with plain | ⟨leap, last⟩
  · have whole : ¬ 1000000000 ≤ t.nano := by omega
    exact .inl ⟨plain, if_neg whole, Nat.mod_eq_of_lt plain⟩
  · by_cases plain : t.nano < 1000000000
    · have whole : ¬ 1000000000 ≤ t.nano := by omega
      exact .inl ⟨plain, if_neg whole, Nat.mod_eq_of_lt plain⟩
    · simp only [writtenSecond, fraction, secondOfDay, if_pos (Nat.le_of_not_lt plain)]
      omega

theorem Writable.microChars_lt_iff (ht : t.Writable) (hu : u.Writable) :
    t.microChars < u.microChars ↔ t.date.Before u.date ∨ t.date = u.date ∧
      (t.secondOfDay < u.secondOfDay ∨
        t.secondOfDay = u.secondOfDay ∧ t.nano / 1000 < u.nano / 1000) := by
  obtain ⟨_, month, _, -⟩ := t.date_valid
  obtain ⟨_, month', _, -⟩ := u.date_valid
  have day := t.date_day_lt
  have day' := u.date_day_lt
  have clock := t.secondOfDay_lt
  have clock' := u.secondOfDay_lt
  have written := writtenSecond_cases ht.2.2
  have written' := writtenSecond_cases hu.2.2
  rw [ht.microChars_eq, hu.microChars_eq]
  obtain ⟨lower, upper, -⟩ := ht
  obtain ⟨lower', upper', -⟩ := hu
  have last : ¬ ['Z'] < ['Z'] := List.lt_irrefl _
  rw [Text.fixedDigits_append_lt_iff (by omega) (by omega), List.cons_lt_cons_self,
    Text.fixedDigits_append_lt_iff (by omega) (by omega), List.cons_lt_cons_self,
    Text.fixedDigits_append_lt_iff (by omega) (by omega), List.cons_lt_cons_self,
    Text.fixedDigits_append_lt_iff (by omega) (by omega), List.cons_lt_cons_self,
    Text.fixedDigits_append_lt_iff (by omega) (by omega), List.cons_lt_cons_self,
    Text.fixedDigits_append_lt_iff (by omega) (by omega), List.cons_lt_cons_self,
    Text.fixedDigits_append_lt_iff (by omega) (by omega)]
  have date : t.date = u.date ↔
      t.date.year = u.date.year ∧ t.date.month = u.date.month ∧ t.date.day = u.date.day := by
    rw [← Date.mk.injEq]
  simp only [date, Date.Before, last, and_false, or_false]
  rcases written with ⟨plain, second, nano⟩ | ⟨nano, second, _, last⟩ <;>
    rcases written' with ⟨plain', second', nano'⟩ | ⟨nano', second', _, last'⟩ <;>
    rw [second, second'] <;> omega

/-- The texts of writable instants are in the order of time. -/
theorem Writable.microChars_lt_iff_cut (ht : t.Writable) (hu : u.Writable) :
    t.microChars < u.microChars ↔ t.cutToMicros < u.cutToMicros := by
  rw [ht.microChars_lt_iff hu, lt_def]
  simp only [date, Date.ofDays_before_iff, Date.ofDays_inj, secondOfDay, cutToMicros]
  omega

theorem date_year_mono (h : t.second ≤ u.second) : t.date.year ≤ u.date.year := by
  rcases Int.lt_or_eq_of_le (Int.ediv_le_ediv (by decide : (0 : Int) < 86400) h) with day | day
  · have before : t.date.Before u.date := Date.ofDays_before day
    simp only [Date.Before] at before
    omega
  · rw [date, day]
    exact Int.le_refl _

/-- Between legible instants there are none but legible ones and leap seconds. -/
theorem Legible.between (ht : t.Legible) (hv : v.Legible) (lower : t.second ≤ u.second)
    (upper : u.second ≤ v.second) (plain : u.nano < 1000000000) : u.Legible :=
  ⟨Int.le_trans ht.1 (date_year_mono lower), Int.le_trans (date_year_mono upper) hv.2.1, plain⟩

theorem Legible.inCalendar_between (ht : t.Legible) (hv : v.Legible) (lower : t.second ≤ u.second)
    (upper : u.second ≤ v.second) : u.InCalendar := by
  have first := Int.le_trans ht.1 (date_year_mono lower)
  have last := Int.le_trans (date_year_mono upper) hv.2.1
  simp only [InCalendar, firstYear, lastYear]
  omega

theorem Writable.inCalendar (h : t.Writable) : t.InCalendar := by
  obtain ⟨first, last, -⟩ := h
  simp only [InCalendar, firstYear, lastYear]
  omega

theorem readMicro?_digits (year month day hour minute second micro : Nat) :
    readMicro? (Text.fixedDigits 4 year ++ '-' :: (Text.fixedDigits 2 month ++ '-' ::
      (Text.fixedDigits 2 day ++ 'T' :: (Text.fixedDigits 2 hour ++ ':' ::
        (Text.fixedDigits 2 minute ++ ':' :: (Text.fixedDigits 2 second ++ '.' ::
          (Text.fixedDigits 6 micro ++ ['Z']))))))) = (do
      let year ← Text.readDigits? (Text.fixedDigits 4 year)
      let month ← Text.readDigits? (Text.fixedDigits 2 month)
      let day ← Text.readDigits? (Text.fixedDigits 2 day)
      let hour ← Text.readDigits? (Text.fixedDigits 2 hour)
      let minute ← Text.readDigits? (Text.fixedDigits 2 minute)
      let second ← Text.readDigits? (Text.fixedDigits 2 second)
      let micro ← Text.readDigits? (Text.fixedDigits 6 micro)
      ofClock? ⟨year, month, day⟩ hour minute second (micro * 1000)) :=
  rfl

theorem ofClock?_date (calendar : t.InCalendar) (nano : Nat) :
    ofClock? t.date (t.secondOfDay / 3600) (t.secondOfDay / 60 % 60) (t.secondOfDay % 60) nano =
      some ⟨t.second, nano⟩ := by
  have clock := t.secondOfDay_lt
  have there : t.date.Valid ∧ firstYear ≤ t.date.year ∧ t.date.year ≤ lastYear ∧
      t.secondOfDay / 3600 < 24 ∧ t.secondOfDay / 60 % 60 < 60 ∧ t.secondOfDay % 60 ≤ 60 :=
    ⟨t.date_valid, calendar.1, calendar.2, by omega, by omega, by omega⟩
  have plain : t.secondOfDay % 60 ≠ 60 := by omega
  have wall : t.secondOfDay / 3600 * 3600 + t.secondOfDay / 60 % 60 * 60 + t.secondOfDay % 60 =
      t.secondOfDay := by omega
  have days : t.date.toDays * 86400 + t.secondOfDay = t.second := by
    rw [Instant.date, Date.toDays_ofDays]
    simp only [secondOfDay]
    omega
  simp only [ofClock?, if_pos there, if_neg plain, wall, days]

/-- The second 60 is the leap second after a second 59. -/
theorem ofClock?_leap (date : Date) (hour minute nano : Nat) :
    ofClock? date hour minute 60 nano = ofClock? date hour minute 59 (nano + 1000000000) := by
  simp [ofClock?]

/-- What is written of a writable instant reads back as the instant cut to microseconds. -/
theorem Writable.readMicro?_microChars (h : t.Writable) :
    readMicro? t.microChars = some t.cutToMicros := by
  obtain ⟨_, month, _, -⟩ := t.date_valid
  have day := t.date_day_lt
  have clock := t.secondOfDay_lt
  have calendar := h.inCalendar
  have written := writtenSecond_cases h.2.2
  rw [h.microChars_eq, readMicro?_digits]
  obtain ⟨lower, upper, -⟩ := h
  have two : ∀ {n : Nat}, n < 100 → Text.readDigits? (Text.fixedDigits 2 n) = some n :=
    fun small => Text.readDigits?_fixedDigits (by decide) small
  have year : Text.readDigits? (Text.fixedDigits 4 t.date.year.toNat) = some t.date.year.toNat :=
    Text.readDigits?_fixedDigits (by decide) (by omega)
  have micro : Text.readDigits? (Text.fixedDigits 6 (t.fraction / 1000)) =
      some (t.fraction / 1000) :=
    Text.readDigits?_fixedDigits (by decide) (by omega)
  have date : (⟨t.date.year.toNat, t.date.month, t.date.day⟩ : Date) = t.date := by
    rw [Int.toNat_of_nonneg lower]
  rw [year, two (by omega), two day, two (by omega), two (by omega), two (by omega), micro]
  simp only [Option.bind_eq_bind, Option.bind_some]
  rw [date]
  rcases written with ⟨-, second, nano⟩ | ⟨nano, second, -, last⟩
  · rw [second, ofClock?_date calendar, nano]
    rfl
  · rw [second, ofClock?_leap, ← last, ofClock?_date calendar, cutToMicros, Option.some.injEq,
      mk.injEq]
    omega

end Instant

namespace Stamp

variable {t u : Instant}

/-- The texts of writable instants are in the order of time, cut to microseconds. -/
theorem of_lt_of_iff (ht : t.Writable) (hu : u.Writable) :
    Stamp.of t < Stamp.of u ↔ t.cutToMicros < u.cutToMicros := by
  show t.microText < u.microText ↔ _
  rw [String.lt_iff_toList_lt, Instant.microText, Instant.microText, String.toList_ofList,
    String.toList_ofList, ht.microChars_lt_iff_cut hu]

theorem of_le_of_iff_cut (ht : t.Writable) (hu : u.Writable) :
    Stamp.of t ≤ Stamp.of u ↔ t.cutToMicros ≤ u.cutToMicros := by
  show t.microText ≤ u.microText ↔ _
  rw [← not_lt]
  refine (not_congr (of_lt_of_iff hu ht)).trans ?_
  simp only [Instant.lt_def, Instant.le_def]
  omega

theorem of_le_of (ht : t.Legible) (hu : u.Legible) (h : t ≤ u) : Stamp.of t ≤ Stamp.of u := by
  rw [of_le_of_iff_cut ht.writable hu.writable]
  simp only [Instant.le_def, Instant.cutToMicros] at h ⊢
  omega

theorem instant?_of_writable (h : t.Writable) : (Stamp.of t).instant? = some t.cutToMicros := by
  rw [instant?, of, Instant.microText, String.toList_ofList]
  exact h.readMicro?_microChars

/-- Writable instants have one text exactly if they are read back as one time. -/
theorem of_eq_of_iff (ht : t.Writable) (hu : u.Writable) :
    Stamp.of t = Stamp.of u ↔ t.cutToMicros = u.cutToMicros := by
  constructor
  · intro same
    have read := instant?_of_writable ht
    rw [same, instant?_of_writable hu] at read
    exact (Option.some.inj read).symm
  · intro same
    have notLess : ¬ t.microText < u.microText := (not_congr (of_lt_of_iff ht hu)).mpr (by
      rw [same, Instant.lt_def]
      omega)
    have notMore : ¬ u.microText < t.microText := (not_congr (of_lt_of_iff hu ht)).mpr (by
      rw [same, Instant.lt_def]
      omega)
    exact congrArg Stamp.mk (le_antisymm (not_lt.mp notMore) (not_lt.mp notLess))

theorem instant?_of (h : t.Legible) : (Stamp.of t).instant? = some t.cutToMicros :=
  instant?_of_writable h.writable

end Stamp

end VmFleet
