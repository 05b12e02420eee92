/-
Rows of a table under an update of some of them: which rows there are after it,
what is read of them, and which row a search finds.
-/
import VmFleet.Store.Basic
import Mathlib.Data.List.Nodup

namespace VmFleet.Store

variable {α β : Type} {p q : α → Bool} {f : α → α} {rows : List α}

theorem mem_updateWhere {x : α} :
    x ∈ updateWhere p f rows ↔ ∃ y ∈ rows, (if p y then f y else y) = x := by
  simp [updateWhere]

/-- An update that takes the rows out of its own reach leaves none there. -/
theorem failed_of_mem_updateWhere {x : α} (out : ∀ y, p (f y) = false)
    (h : x ∈ updateWhere p f rows) : p x = false := by
  obtain ⟨y, -, rfl⟩ := mem_updateWhere.mp h
  split
  · exact out y
  · next kept => exact (Bool.not_eq_true _).mp kept

theorem map_updateWhere (g : α → β) (same : ∀ x ∈ rows, p x = true → g (f x) = g x) :
    (updateWhere p f rows).map g = rows.map g := by
  simp only [updateWhere, List.map_map, List.map_inj_left, Function.comp_apply]
  intro x hx
  split
  · next hp => exact same x hx hp
  · rfl

/-- What is read of the rows that a test lets through is the same if the update changes neither. -/
theorem map_filter_updateWhere (g : α → β)
    (same : ∀ x ∈ rows, p x = true → q (f x) = q x ∧ g (f x) = g x) :
    ((updateWhere p f rows).filter q).map g = (rows.filter q).map g := by
  induction rows with
  | nil => rfl
  | cons x rest ih =>
    have ih := ih fun y hy => same y (List.mem_cons_of_mem x hy)
    simp only [updateWhere, List.map_cons, List.filter_cons] at ih ⊢
    by_cases hp : p x = true
    · obtain ⟨test, read⟩ := same x List.mem_cons_self hp
      simp only [hp, if_true, test]
      split <;> simp [ih, read]
    · simp only [hp, Bool.false_eq_true, if_false]
      split <;> simp [ih]

/-- A search that passes over the updated rows, before and after, finds what it found. -/
theorem find?_updateWhere_of_passed
    (passed : ∀ x ∈ rows, p x = true → q x = false ∧ q (f x) = false) :
    (updateWhere p f rows).find? q = rows.find? q := by
  induction rows with
  | nil => rfl
  | cons x rest ih =>
    have ih := ih fun y hy => passed y (List.mem_cons_of_mem x hy)
    simp only [updateWhere, List.map_cons, List.find?_cons] at ih ⊢
    by_cases hp : p x = true
    · obtain ⟨before, after⟩ := passed x List.mem_cons_self hp
      simp only [hp, if_true, before, after, ih]
    · simp only [hp, Bool.false_eq_true, if_false, ih]

theorem filter_updateWhere_of_failed
    (failed : ∀ x ∈ rows, p x = true → q x = false ∧ q (f x) = false) :
    (updateWhere p f rows).filter q = rows.filter q := by
  induction rows with
  | nil => rfl
  | cons x rest ih =>
    have ih := ih fun y hy => failed y (List.mem_cons_of_mem x hy)
    simp only [updateWhere, List.map_cons, List.filter_cons] at ih ⊢
    by_cases hp : p x = true
    · obtain ⟨before, after⟩ := failed x List.mem_cons_self hp
      simp only [hp, if_true, before, after, Bool.false_eq_true, if_false, ih]
    · simp only [hp, Bool.false_eq_true, if_false, ih]

/-- A search for exactly the updated rows finds the first of them as it is afterwards. -/
theorem find?_updateWhere_self (kept : ∀ x ∈ rows, p x = true → p (f x) = true) :
    (updateWhere p f rows).find? p = (rows.find? p).map f := by
  induction rows with
  | nil => rfl
  | cons x rest ih =>
    have ih := ih fun y hy => kept y (List.mem_cons_of_mem x hy)
    simp only [updateWhere, List.map_cons, List.find?_cons] at ih ⊢
    by_cases hp : p x = true
    · have hf := kept x List.mem_cons_self hp
      simp only [hp, if_true, hf, Option.map_some]
    · simp only [hp, Bool.false_eq_true, if_false, ih]

theorem updateWhere_eq_self (none : ∀ x ∈ rows, p x = false) : updateWhere p f rows = rows := by
  refine (List.map_congr_left fun x hx => ?_).trans rows.map_id
  rw [if_neg (by simp [none x hx]), id]

/-- Only which rows are meant counts, not how they are picked out. -/
theorem updateWhere_congr (same : ∀ x ∈ rows, p x = q x) :
    updateWhere p f rows = updateWhere q f rows :=
  List.map_congr_left fun x hx => by simp only [same x hx]

/-- Where an update takes the rows it changes out of a count, the count falls. -/
theorem countP_updateWhere_lt {x : α} (out : ∀ y ∈ rows, p y = true → q (f y) = false)
    (hx : x ∈ rows) (changed : p x = true) (counted : q x = true) :
    (updateWhere p f rows).countP q < rows.countP q := by
  have le : ∀ rest, (∀ y ∈ rest, y ∈ rows) → (updateWhere p f rest).countP q ≤ rest.countP q := by
    intro rest sub
    rw [updateWhere, List.countP_map]
    refine List.countP_mono_left fun y hy hit => ?_
    simp only [Function.comp_apply] at hit
    split at hit
    · next hp => rw [out y (sub y hy) hp] at hit; cases hit
    · exact hit
  obtain ⟨before, after, rfl⟩ := List.append_of_mem hx
  have head : (updateWhere p f [x]).countP q = 0 := by
    simp [updateWhere, changed, out x hx changed]
  have split : updateWhere p f (before ++ x :: after) =
      updateWhere p f before ++ updateWhere p f [x] ++ updateWhere p f after := by
    simp [updateWhere]
  have first := le before fun y hy => List.mem_append_left _ hy
  have second := le after fun y hy => List.mem_append_right _ (List.mem_cons_of_mem x hy)
  simp only [split, List.countP_append, head, List.countP_cons, counted, if_true]
  omega

theorem countP_le_updateWhere (kept : ∀ x ∈ rows, p x = true → q x = true → q (f x) = true) :
    rows.countP q ≤ (updateWhere p f rows).countP q := by
  rw [updateWhere, List.countP_map]
  refine List.countP_mono_left fun x hx counted => ?_
  simp only [Function.comp_apply]
  split
  · next hp => exact kept x hx hp counted
  · exact counted

/-- An update lowers a count by no more than the rows it changes. -/
theorem countP_le_updateWhere_add :
    rows.countP q ≤ (updateWhere p f rows).countP q + rows.countP p := by
  induction rows with
  | nil => exact Nat.le_refl _
  | cons x rest ih =>
    simp only [updateWhere, List.map_cons, List.countP_cons] at ih ⊢
    by_cases hp : p x = true
    · simp only [hp, if_true]
      split <;> omega
    · simp only [hp, Bool.false_eq_true, if_false]
      omega

/-- Of two updates of the same rows the later one counts. -/
theorem updateWhere_updateWhere_const (a b : α) (hit : p a = true) :
    updateWhere p (fun _ => b) (updateWhere p (fun _ => a) rows) =
      updateWhere p (fun _ => b) rows := by
  simp only [updateWhere, List.map_map, List.map_inj_left, Function.comp_apply]
  intro x _
  by_cases hp : p x = true <;> simp [hp, hit]

/-- Where no two rows read the same, the first row found for a reading is the only one. -/
theorem find?_eq_some_iff_of_nodup [BEq β] [LawfulBEq β] (g : α → β)
    (distinct : (rows.map g).Nodup) {k : β} {x : α} :
    rows.find? (fun y => g y == k) = some x ↔ x ∈ rows ∧ g x = k := by
  constructor
  · intro h
    exact ⟨List.mem_of_find?_eq_some h, by simpa using List.find?_some h⟩
  · rintro ⟨hx, rfl⟩
    have found : (rows.find? (fun y => g y == g x)).isSome := by
      rw [List.find?_isSome]
      exact ⟨x, hx, by simp⟩
    obtain ⟨y, hy⟩ := Option.isSome_iff_exists.mp found
    have same : g y = g x := by simpa using List.find?_some hy
    rw [hy, List.inj_on_of_nodup_map distinct (List.mem_of_find?_eq_some hy) hx same]

/-- Where no two rows read the same, an update of the rows with one row's reading changes that row
alone. -/
theorem updateWhere_eq_append [BEq β] [LawfulBEq β] (g : α → β) (distinct : (rows.map g).Nodup)
    {x : α} (hx : x ∈ rows) (f : α → α) : ∃ front back, rows = front ++ x :: back ∧
      updateWhere (fun y => g y == g x) f rows = front ++ f x :: back := by
  obtain ⟨front, back, rfl⟩ := List.append_of_mem hx
  have others : ∀ y ∈ front ++ back, g y ≠ g x := by
    intro y hy same
    rw [List.map_append, List.map_cons, List.nodup_middle, ← List.map_append] at distinct
    exact (List.nodup_cons.mp distinct).1 (List.mem_map.mpr ⟨y, hy, same⟩)
  have kept : ∀ rows, (∀ y ∈ rows, y ∈ front ++ back) →
      updateWhere (fun y => g y == g x) f rows = rows :=
    fun rows sub => updateWhere_eq_self fun y hy => by simpa using others y (sub y hy)
  have parts : updateWhere (fun y => g y == g x) f (front ++ x :: back) =
      updateWhere (fun y => g y == g x) f front ++ f x ::
        updateWhere (fun y => g y == g x) f back := by
    simp [updateWhere]
  refine ⟨front, back, rfl, ?_⟩
  rw [parts, kept front fun _ => List.mem_append_left _, kept back fun _ => List.mem_append_right _]

/-- A search that at each row keeps what it has or takes the row finds one of the rows. -/
theorem mem_of_foldl_pick {pick : Option α → α → Option α} {x : α}
    (picks : ∀ best row, pick best row = best ∨ pick best row = some row)
    (h : rows.foldl pick none = some x) : x ∈ rows := by
  have step : ∀ (rest : List α) (best : Option α), rest.foldl pick best = some x →
      best = some x ∨ x ∈ rest := by
    intro rest
    induction rest with
    | nil => intro best h; exact .inl h
    | cons y rest ih =>
      intro best h
      rcases ih _ h with hbest | hrest
      · rcases picks best y with kept | taken
        · exact .inl (kept ▸ hbest)
        · rw [taken, Option.some.injEq] at hbest
          exact .inr (hbest ▸ List.mem_cons_self)
      · exact .inr (List.mem_cons_of_mem y hrest)
  rcases step rows none h with hnone | hmem
  · cases hnone
  · exact hmem

/-- A search that never lets go of what it has finds a row where there is one. -/
theorem foldl_pick_isSome {pick : Option α → α → Option α} {best : Option α}
    (picks : ∀ best row, (pick best row).isSome) (h : rows ≠ []) :
    (rows.foldl pick best).isSome := by
  obtain ⟨rows, last, rfl⟩ := List.eq_nil_or_concat rows |>.resolve_left h
  rw [List.concat_eq_append, List.foldl_concat]
  exact picks _ last

/-- A search that lets go of what it has just for a row that comes before it finds a row that none
comes before. -/
theorem foldl_pick_first {pick : Option α → α → Option α} (before : α → α → Bool) {x : α}
    (start : ∀ row, pick none row = some row)
    (picks : ∀ best row, pick (some best) row = if before row best then some row else some best)
    (asymm : ∀ a b, before a b = true → before b a = false)
    (trans : ∀ a b c, before b a = false → before c b = false → before c a = false)
    (h : rows.foldl pick none = some x) : ∀ y ∈ rows, before y x = false := by
  have irrefl : ∀ a, before a a = false := by
    intro a
    cases same : before a a with
    | false => rfl
    | true => rw [← same, asymm a a same]
  -- What the search has comes after none of the rows that it has passed.
  have step : ∀ (rest : List α) (best : α), rest.foldl pick (some best) = some x →
      before best x = false ∧ ∀ y ∈ rest, before y x = false := by
    intro rest
    induction rest with
    | nil =>
      intro best h
      cases h
      exact ⟨irrefl x, fun y hy => absurd hy List.not_mem_nil⟩
    | cons row rest ih =>
      intro best h
      rw [List.foldl_cons, picks] at h
      split at h
      · next sooner =>
        obtain ⟨first, others⟩ := ih row h
        exact ⟨trans x row best first (asymm row best sooner),
          List.forall_mem_cons.mpr ⟨first, others⟩⟩
      · next later =>
        obtain ⟨first, others⟩ := ih best h
        have later : before row best = false := by simpa using later
        exact ⟨first, List.forall_mem_cons.mpr ⟨trans x best row first later, others⟩⟩
  cases rows with
  | nil => cases h
  | cons row rest =>
    rw [List.foldl_cons, start] at h
    obtain ⟨first, others⟩ := step rest row h
    exact List.forall_mem_cons.mpr ⟨first, others⟩

end VmFleet.Store
