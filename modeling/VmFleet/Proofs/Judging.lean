/-
The verdict on a run of the tool. A step that did not reach its host outweighs every
other failure, and a run is good if the tool said so and no step failed. Which of the
three verdicts is given depends on the exit code and on which statuses the steps have,
so neither other lines nor the order of the steps can change it.
-/
import VmFleet.Proofs.ToolOutput

namespace VmFleet

/-! ## Counting steps -/

namespace StepCounts

def number (c : StepCounts) : StepStatus → Nat
  | .ok => c.ok
  | .changed => c.changed
  | .failed => c.failed
  | .skipped => c.skipped
  | .unreachable => c.unreachable

def total (c : StepCounts) : Nat :=
  c.ok + c.changed + c.failed + c.skipped + c.unreachable

theorem number_add (c : StepCounts) (added status : StepStatus) :
    (c.add added).number status = c.number status + if added == status then 1 else 0 := by
  cases added <;> cases status <;> rfl

theorem total_add (c : StepCounts) (added : StepStatus) : (c.add added).total = c.total + 1 := by
  cases added <;> simp only [add, total] <;> omega

theorem number_of (steps : List Step) (status : StepStatus) :
    (of steps).number status = steps.countP (·.status == status) := by
  have from_any : ∀ c : StepCounts, (steps.foldl (fun c s => c.add s.status) c).number status =
      c.number status + steps.countP (·.status == status) := by
    induction steps with
    | nil => exact fun c => rfl
    | cons s steps ih =>
      intro c
      rw [List.foldl_cons, ih, number_add, List.countP_cons, Nat.add_assoc,
        Nat.add_comm (steps.countP _)]
  have none : number {} status = 0 := by cases status <;> rfl
  rw [of, from_any, none, Nat.zero_add]

theorem total_of (steps : List Step) : (of steps).total = steps.length := by
  have from_any : ∀ c : StepCounts,
      (steps.foldl (fun c s => c.add s.status) c).total = c.total + steps.length := by
    induction steps with
    | nil => exact fun c => rfl
    | cons s steps ih =>
      intro c
      rw [List.foldl_cons, ih, total_add, List.length_cons, Nat.add_assoc, Nat.add_comm 1]
  rw [of, from_any]
  exact Nat.zero_add _

end StepCounts

/-! ## The three verdicts -/

namespace Report

open Text (Blank)

def FirstIn (r : Report) (status : StepStatus) (step : Step) : Prop :=
  ∃ before after, r.steps = before ++ step :: after ∧ step.status = status ∧
    ∀ s ∈ before, s.status ≠ status

/-- The last line on standard error that says something, or what is said for it. -/
def LastError (r : Report) (line : String) : Prop :=
  (∃ before after, Text.lines r.stderr = before ++ line :: after ∧ ¬ Blank line ∧
    ∀ l ∈ after, Blank l) ∨
  (∀ l ∈ Text.lines r.stderr, Blank l) ∧ line = "no error output"

def AllFine (r : Report) : Prop :=
  ∀ s ∈ r.steps, s.status ≠ .failed ∧ s.status ≠ .unreachable

/-- What is to be said of a run. -/
inductive Judged (r : Report) : Except ProvisionError Report → Prop
  | success (exit : r.exitCode = some 0) (fine : r.AllFine) : Judged r (.ok r)
  | unreachable {step} (first : r.FirstIn .unreachable step) :
      Judged r (.error (.unreachable
        (Text.trim (step.host.getD "unknown host" ++ " " ++ step.msg.getD ""))))
  | failed {step} (reached : ∀ s ∈ r.steps, s.status ≠ .unreachable)
      (first : r.FirstIn .failed step) :
      Judged r (.error (.rejected
        (r.action.playbook ++ " failed at step '" ++ step.name ++ "': " ++
          step.msg.getD "no error details" ++ " (" ++ r.counts.text ++ ")")))
  | exited {line} (exit : r.exitCode ≠ some 0) (fine : r.AllFine) (last : r.LastError line) :
      Judged r (.error (.rejected
        (r.action.playbook ++ " exited with code " ++ r.exitText ++ ": " ++ Text.trim line)))

/-- Two verdicts of one kind. -/
inductive Alike : Except ProvisionError Report → Except ProvisionError Report → Prop
  | ok {r r'} : Alike (.ok r) (.ok r')
  | unreachable {why why'} : Alike (.error (.unreachable why)) (.error (.unreachable why'))
  | rejected {why why'} : Alike (.error (.rejected why)) (.error (.rejected why'))

variable {r r' : Report} {step : Step}

theorem isFailure_iff {status : StepStatus} :
    status.isFailure = true ↔ status = .failed ∨ status = .unreachable := by
  cases status <;> decide

theorem allFine_iff : r.firstFailure? = none ↔ r.AllFine := by
  simp only [firstFailure?, List.find?_eq_none, isFailure_iff, not_or, AllFine]

theorem firstIn_of_unreachable (h : r.firstUnreachable? = some step) :
    r.FirstIn .unreachable step := by
  obtain ⟨here, before, after, split, others⟩ := List.find?_eq_some_iff_append.mp h
  refine ⟨before, after, split, beq_iff_eq.mp here, fun s hs same => ?_⟩
  have reached : (!s.status == .unreachable) = true := others s hs
  rw [same] at reached
  cases reached

/-- Where every host is reached, the first step without success has failed. -/
theorem firstIn_of_failure (reached : ∀ s ∈ r.steps, s.status ≠ .unreachable)
    (h : r.firstFailure? = some step) : r.FirstIn .failed step := by
  obtain ⟨here, before, after, split, others⟩ := List.find?_eq_some_iff_append.mp h
  have failed : step.status = .failed := by
    refine (isFailure_iff.mp here).resolve_right (reached step ?_)
    rw [split]
    exact List.mem_append_right _ List.mem_cons_self
  refine ⟨before, after, split, failed, fun s hs same => ?_⟩
  have fine : (!s.status.isFailure) = true := others s hs
  rw [same] at fine
  cases fine

theorem lastError (r : Report) : r.LastError (r.lastErrorLine?.getD "no error output") := by
  have blank : ∀ {line : String},
      (!(Text.trimChars line.toList).isEmpty) = true ↔ ¬ Blank line := by
    intro line
    rw [Bool.not_eq_true', ← Bool.not_eq_true, List.isEmpty_iff, Text.trimChars_eq_nil]
    rfl
  cases found : r.lastErrorLine? with
  | none =>
    refine .inr ⟨fun l hl => ?_, rfl⟩
    exact not_not.mp fun full =>
      List.find?_eq_none.mp found l (List.mem_reverse.mpr hl) (blank.mpr full)
  | some line =>
    obtain ⟨full, before, after, split, others⟩ := List.find?_eq_some_iff_append.mp found
    refine .inl ⟨after.reverse, before.reverse, ?_, blank.mp full, fun l hl => ?_⟩
    · rw [← List.reverse_reverse (Text.lines r.stderr), split]
      simp
    · refine not_not.mp fun full => ?_
      have empty := others l (List.mem_reverse.mp hl)
      rw [blank.mpr full] at empty
      cases empty

theorem judged (r : Report) : r.Judged r.verdict := by
  cases failure : r.firstFailure? with
  | none =>
    have fine := allFine_iff.mp failure
    by_cases exit : r.exitCode = some 0
    · have good : r.succeeded = true := by simp [succeeded, exit, failure]
      rw [verdict, if_pos good]
      exact .success exit fine
    · have bad : r.succeeded = false := by simp [succeeded, exit]
      have reached : r.firstUnreachable? = none :=
        List.find?_eq_none.mpr fun s hs same => (fine s hs).2 (beq_iff_eq.mp same)
      simp only [verdict, bad, reached, failureMessage, failure, Bool.false_eq_true, if_false]
      exact .exited exit fine r.lastError
  | some step =>
    have bad : r.succeeded = false := by simp [succeeded, failure]
    cases unreachable : r.firstUnreachable? with
    | some step =>
      simp only [verdict, bad, unreachable, Bool.false_eq_true, if_false]
      exact .unreachable (firstIn_of_unreachable unreachable)
    | none =>
      have reached : ∀ s ∈ r.steps, s.status ≠ .unreachable := fun s hs same =>
        List.find?_eq_none.mp unreachable s hs (beq_iff_eq.mpr same)
      simp only [verdict, bad, unreachable, failureMessage, failure, Bool.false_eq_true, if_false]
      exact .failed reached (firstIn_of_failure reached failure)

theorem FirstIn.mem {status : StepStatus} (h : r.FirstIn status step) :
    step ∈ r.steps ∧ step.status = status := by
  obtain ⟨before, after, split, here, -⟩ := h
  exact ⟨by rw [split]; exact List.mem_append_right _ List.mem_cons_self, here⟩

theorem ok_iff : (∃ r', r.verdict = .ok r') ↔ r.exitCode = some 0 ∧ r.AllFine := by
  have said := r.judged
  generalize r.verdict = v at said
  cases said with
  | success exit fine => exact ⟨fun _ => ⟨exit, fine⟩, fun _ => ⟨r, rfl⟩⟩
  | unreachable first =>
    exact ⟨nofun, fun h => absurd first.mem.2 (h.2 _ first.mem.1).2⟩
  | failed reached first =>
    exact ⟨nofun, fun h => absurd first.mem.2 (h.2 _ first.mem.1).1⟩
  | exited exit _ _ => exact ⟨nofun, fun h => absurd h.1 exit⟩

theorem unreachable_iff : (∃ why, r.verdict = .error (.unreachable why)) ↔
    ∃ s ∈ r.steps, s.status = .unreachable := by
  have said := r.judged
  generalize r.verdict = v at said
  cases said with
  | success _ fine => exact ⟨nofun, fun ⟨s, hs, same⟩ => absurd same (fine s hs).2⟩
  | unreachable first => exact ⟨fun _ => ⟨_, first.mem⟩, fun _ => ⟨_, rfl⟩⟩
  | failed reached _ => exact ⟨nofun, fun ⟨s, hs, same⟩ => absurd same (reached s hs)⟩
  | exited _ fine _ => exact ⟨nofun, fun ⟨s, hs, same⟩ => absurd same (fine s hs).2⟩

theorem rejected_iff : (∃ why, r.verdict = .error (.rejected why)) ↔
    (∀ s ∈ r.steps, s.status ≠ .unreachable) ∧
      (r.exitCode ≠ some 0 ∨ ∃ s ∈ r.steps, s.status = .failed) := by
  have said := r.judged
  generalize r.verdict = v at said
  cases said with
  | success exit fine =>
    refine ⟨nofun, fun h => ?_⟩
    obtain bad | ⟨s, hs, same⟩ := h.2
    · exact absurd exit bad
    · exact absurd same (fine s hs).1
  | unreachable first => exact ⟨nofun, fun h => absurd first.mem.2 (h.1 _ first.mem.1)⟩
  | failed reached first => exact ⟨fun _ => ⟨reached, .inr ⟨_, first.mem⟩⟩, fun _ => ⟨_, rfl⟩⟩
  | exited exit fine _ =>
    exact ⟨fun _ => ⟨fun s hs => (fine s hs).2, .inl exit⟩, fun _ => ⟨_, rfl⟩⟩

/-- The kind of the verdict depends on the exit code and on which steps there are, in any order. -/
theorem alike_of_perm (exit : r'.exitCode = r.exitCode) (steps : r'.steps.Perm r.steps) :
    Alike r'.verdict r.verdict := by
  have same : ∀ s, s ∈ r'.steps ↔ s ∈ r.steps := fun s => steps.mem_iff
  have fine : r'.AllFine ↔ r.AllFine := forall_congr' fun s => imp_congr_left (same s)
  have said := r.judged
  generalize verdict : r.verdict = v at said
  cases said with
  | success good allFine =>
    obtain ⟨k, ok⟩ := ok_iff.mpr ⟨exit.trans good, fine.mpr allFine⟩
    rw [ok]
    exact .ok
  | unreachable first =>
    obtain ⟨why, told⟩ := unreachable_iff.mpr ⟨_, (same _).mpr first.mem.1, first.mem.2⟩
    rw [told]
    exact .unreachable
  | failed reached first =>
    obtain ⟨why, told⟩ := rejected_iff.mpr ⟨fun s hs => reached s ((same s).mp hs),
      .inr ⟨_, (same _).mpr first.mem.1, first.mem.2⟩⟩
    rw [told]
    exact .rejected
  | exited bad allFine _ =>
    obtain ⟨why, told⟩ := rejected_iff.mpr ⟨fun s hs => (fine.mpr allFine s hs).2,
      .inl (exit ▸ bad)⟩
    rw [told]
    exact .rejected

end Report

namespace OutputLine

variable {now : Instant} {extra lines lines' : List String}

/-- Lines that spell no step leave the steps as they are, up to their order where the lines are
reordered. -/
theorem steps_perm (unspelt : ∀ line ∈ extra, ∀ s, ¬ Spells now line s)
    (more : lines'.Perm (extra ++ lines)) :
    ((lines'.map (read now)).filterMap step?).Perm ((lines.map (read now)).filterMap step?) := by
  have none : (extra.map (read now)).filterMap step? = [] := by
    rw [List.filterMap_map, List.filterMap_eq_nil_iff]
    exact fun line hl => step?_eq_none (unspelt line hl)
  have same := (more.map (read now)).filterMap step?
  rwa [List.map_append, List.filterMap_append, none, List.nil_append] at same

end OutputLine

/-- **Every line of output is kept, and the verdict weighs the steps and the exit code.** The lines
that spell a step are the steps and the other lines with text are the output, in their order; the
counts of the statuses are those of the steps. The run is good exactly if the exit code is 0 and no
step failed or missed its host, it is unreachable exactly if some step missed its host, and it is
rejected in all other cases, with the step or the exit to blame. More lines that spell no step, and
another order of the lines, leave the kind of the verdict as it is. -/
theorem output_parted_and_judged (action : Action) (stdout stderr : String) (exit : Option Int)
    (started now : Instant) :
    let r := Report.parse action stdout stderr exit started now
    OutputLine.Parted now (Text.lines stdout) r.steps r.output ∧
      (∀ status, r.counts.number status = r.steps.countP (·.status == status)) ∧
      r.counts.total = r.steps.length ∧
      ((∃ r', r.verdict = .ok r') ↔ exit = some 0 ∧
        ∀ s ∈ r.steps, s.status ≠ .failed ∧ s.status ≠ .unreachable) ∧
      ((∃ why, r.verdict = .error (.unreachable why)) ↔
        ∃ s ∈ r.steps, s.status = .unreachable) ∧
      ((∃ why, r.verdict = .error (.rejected why)) ↔
        (∀ s ∈ r.steps, s.status ≠ .unreachable) ∧
          (exit ≠ some 0 ∨ ∃ s ∈ r.steps, s.status = .failed)) ∧
      r.Judged r.verdict ∧
      ∀ extra stdout', (∀ line ∈ extra, ∀ s, ¬ OutputLine.Spells now line s) →
        (Text.lines stdout').Perm (extra ++ Text.lines stdout) →
        Report.Alike (Report.parse action stdout' stderr exit started now).verdict r.verdict := by
  intro r
  exact ⟨OutputLine.parted now _, StepCounts.number_of _, StepCounts.total_of _, Report.ok_iff,
    Report.unreachable_iff, Report.rejected_iff, r.judged,
    fun extra stdout' unspelt more => Report.alike_of_perm rfl (OutputLine.steps_perm unspelt more)⟩

def bootLine : String :=
  "\x7b\"name\":\"boot\",\"status\":\"ok\"\x7d"

def dialLine : String :=
  "\x7b\"name\":\"dial\",\"status\":\"unreachable\"\x7d"

/-- A start whose second step misses its host. -/
def missedHost : String :=
  bootLine ++ "\n" ++ dialLine

/-- The same steps in the other order, between lines that are none. -/
def missedHostFirst : String :=
  "hello\n" ++ dialLine ++ "\r\n\n" ++ bootLine

/-- Both tell of the host, though the tool exits with 0. -/
theorem missedHost_judged :
    let read := fun stdout => Report.parse .start stdout "" (some 0) ⟨0, 0⟩ ⟨0, 0⟩
    (∀ line ∈ ["hello", ""], ∀ s, ¬ OutputLine.Spells ⟨0, 0⟩ line s) ∧
      (Text.lines missedHostFirst).Perm (["hello", ""] ++ Text.lines missedHost) ∧
      Report.Alike (read missedHostFirst).verdict (read missedHost).verdict ∧
      ∃ why, (read missedHost).verdict = .error (.unreachable why) := by
  intro read
  obtain ⟨-, -, -, -, unreachable, -, -, alike⟩ :=
    output_parted_and_judged .start missedHost "" (some 0) ⟨0, 0⟩ ⟨0, 0⟩
  have unbraced : ∀ line ∈ ["hello", ""], (Text.trimChars line.toList).head? ≠ some '{' := by
    decide
  have unspelt : ∀ line ∈ ["hello", ""], ∀ s, ¬ OutputLine.Spells ⟨0, 0⟩ line s :=
    fun line hl s spelt => unbraced line hl spelt.1
  have lines : Text.lines missedHost = [bootLine, dialLine] := by
    decide +kernel
  have linesFirst : Text.lines missedHostFirst = ["hello", dialLine, "", bootLine] := by
    decide +kernel
  have more : (Text.lines missedHostFirst).Perm (["hello", ""] ++ Text.lines missedHost) := by
    rw [lines, linesFirst]
    exact .cons _ (List.perm_append_comm : ([dialLine] ++ ["", bootLine]).Perm _)
  refine ⟨unspelt, more, alike _ _ unspelt more, unreachable.mpr ?_⟩
  have steps : (read missedHost).steps =
      [⟨"boot", .ok, ⟨0, 0⟩, none, none, .empty⟩,
        ⟨"dial", .unreachable, ⟨0, 0⟩, none, none, .empty⟩] := by decide +kernel
  exact ⟨_, by rw [steps]; exact List.mem_cons_of_mem _ List.mem_cons_self, rfl⟩

end VmFleet
