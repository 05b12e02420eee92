/-
Lines of the tool's output. A report keeps each line that is not blank once and in
its place: as a step if the text between the blanks is a step's JSON, and as it is
if not. A fact has the value that the last step with it gives it.
-/
import VmFleet.Provision.Report
import Mathlib.Data.List.TakeWhile

namespace VmFleet

namespace Text

def Blank (line : String) : Prop :=
  ∀ c ∈ line.toList, isBlank c = true

instance (line : String) : Decidable (Blank line) :=
  List.decidableBAll (isBlank · = true) line.toList

theorem trimChars_eq_nil {cs : List Char} : trimChars cs = [] ↔ ∀ c ∈ cs, isBlank c = true := by
  constructor
  · intro h
    rw [← List.dropWhile_eq_nil_iff]
    by_contra some
    have first := List.head_dropWhile_not isBlank some
    rw [trimChars, trimEnd, List.reverse_eq_nil_iff, List.dropWhile_eq_nil_iff] at h
    have blank := h _ (List.mem_reverse.mpr (List.head_mem some))
    cases first.symm.trans blank
  · intro h
    rw [trimChars, trimStart, List.dropWhile_eq_nil_iff.mpr h]
    rfl

end Text

namespace OutputLine

open Text (Blank)

/-- The text between the line's blanks starts with a brace and is the JSON of the step. -/
def Spells (now : Instant) (line : String) (s : Step) : Prop :=
  (Text.trimChars line.toList).head? = some '{' ∧
    ∃ v, Json.parse? (Text.trim line) = some v ∧ Step.ofJson? now v = some s

variable {now : Instant} {line : String} {s : Step}

theorem Spells.not_blank (h : Spells now line s) : ¬ Blank line := by
  intro blank
  have first := h.1
  rw [Text.trimChars_eq_nil.mpr blank] at first
  cases first

theorem read_of_blank (h : Blank line) : read now line = .blank := by
  rw [read, Text.trimChars_eq_nil.mpr h]

theorem read_of_spells (h : Spells now line s) : read now line = .step s := by
  obtain ⟨first, v, parsed, known⟩ := h
  obtain ⟨rest, trimmed⟩ := List.head?_eq_some_iff.mp first
  rw [Text.trim, trimmed] at parsed
  have spelt : (Json.parse? (String.ofList ('{' :: rest))).bind (Step.ofJson? now) = some s := by
    rw [parsed, Option.bind_some, known]
  simp only [read, trimmed, if_true, spelt]

/-- A line with text that spells no step is kept, whichever test it fails. -/
theorem read_of_other (full : ¬ Blank line) (unspelt : ∀ s, ¬ Spells now line s) :
    read now line = .other line := by
  cases trimmed : Text.trimChars line.toList with
  | nil => exact absurd (Text.trimChars_eq_nil.mp trimmed) full
  | cons c rest =>
    by_cases brace : c = '{'
    · have none : (Json.parse? (String.ofList (c :: rest))).bind (Step.ofJson? now) = none := by
        refine Option.eq_none_iff_forall_ne_some.mpr fun s spelt => ?_
        obtain ⟨v, parsed, known⟩ := Option.bind_eq_some_iff.mp spelt
        exact unspelt s ⟨by rw [trimmed, brace]; rfl, v, by rw [Text.trim, trimmed, parsed], known⟩
      simp only [read, trimmed, if_pos brace, none]
    · simp only [read, trimmed, if_neg brace]

theorem step?_eq_none (h : ∀ s, ¬ Spells now line s) : (read now line).step? = none := by
  by_cases empty : Blank line
  · rw [read_of_blank empty]
    rfl
  · rw [read_of_other empty h]
    rfl

/-- The steps and the other lines of some output, each line that is not blank in one of them and
in its place. -/
inductive Parted (now : Instant) : List String → List Step → List String → Prop
  | nil : Parted now [] [] []
  | blank {line lines steps output} (empty : Blank line) (rest : Parted now lines steps output) :
      Parted now (line :: lines) steps output
  | step {line s lines steps output} (spelt : Spells now line s)
      (rest : Parted now lines steps output) : Parted now (line :: lines) (s :: steps) output
  | other {line lines steps output} (full : ¬ Blank line) (unspelt : ∀ s, ¬ Spells now line s)
      (rest : Parted now lines steps output) : Parted now (line :: lines) steps (line :: output)

theorem parted (now : Instant) (lines : List String) :
    Parted now lines ((lines.map (read now)).filterMap step?)
      ((lines.map (read now)).filterMap other?) := by
  induction lines with
  | nil => exact .nil
  | cons line lines ih =>
    rw [List.map_cons]
    by_cases empty : Blank line
    · rw [read_of_blank empty]
      exact .blank empty ih
    by_cases unspelt : ∀ s, ¬ Spells now line s
    · rw [read_of_other empty unspelt]
      exact .other empty unspelt ih
    · obtain ⟨s, spelt⟩ := not_forall_not.mp unspelt
      rw [read_of_spells spelt]
      exact .step spelt ih

/-- Lines are parted in one way only. -/
theorem Parted.unique {lines : List String} {steps steps' : List Step}
    {output output' : List String} (h : Parted now lines steps output)
    (h' : Parted now lines steps' output') : steps = steps' ∧ output = output' := by
  induction h generalizing steps' output' with
  | nil =>
    cases h'
    exact ⟨rfl, rfl⟩
  | blank empty _ ih =>
    cases h' with
    | blank _ rest => exact ih rest
    | step spelt _ => exact absurd empty spelt.not_blank
    | other full _ _ => exact absurd empty full
  | step spelt _ ih =>
    cases h' with
    | blank empty _ => exact absurd empty spelt.not_blank
    | step spelt' rest =>
      obtain ⟨rfl, rfl⟩ := ih rest
      cases (read_of_spells spelt).symm.trans (read_of_spells spelt')
      exact ⟨rfl, rfl⟩
    | other _ unspelt _ => exact absurd spelt (unspelt _)
  | other full unspelt _ ih =>
    cases h' with
    | blank empty _ => exact absurd empty full
    | step spelt _ => exact absurd spelt (unspelt _)
    | other _ _ rest =>
      obtain ⟨rfl, rfl⟩ := ih rest
      exact ⟨rfl, rfl⟩

end OutputLine

/-! ## Facts of a report -/

namespace Report

/-- The last step that gives this fact gives it this value. -/
def LastGives (r : Report) (key value : String) : Prop :=
  ∃ before step after, r.steps = before ++ step :: after ∧ step.facts.get? key = some value ∧
    ∀ later ∈ after, later.facts.get? key = none

theorem fact?_eq_some {r : Report} {key value : String} :
    r.fact? key = some value ↔ r.LastGives key value := by
  simp only [fact?, List.findSome?_eq_some_iff, LastGives]
  constructor
  · rintro ⟨after, step, before, split, gives, later⟩
    refine ⟨before.reverse, step, after.reverse, ?_, gives, fun x hx => ?_⟩
    · rw [← List.reverse_reverse r.steps, split]
      simp
    · exact later x (List.mem_reverse.mp hx)
  · rintro ⟨before, step, after, split, gives, later⟩
    refine ⟨after.reverse, step, before.reverse, ?_, gives, fun x hx => ?_⟩
    · rw [split]
      simp
    · exact later x (List.mem_reverse.mp hx)

theorem fact?_eq_none {r : Report} {key : String} :
    r.fact? key = none ↔ ∀ value, ¬ r.LastGives key value := by
  simp only [← fact?_eq_some, Option.eq_none_iff_forall_ne_some]

end Report

end VmFleet
