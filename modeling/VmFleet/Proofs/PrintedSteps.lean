/-
Output as the tool prints it: each step as its JSON on a line of its own, and other
lines between them. The JSON of a step stands on one line and between braces, so its
line is read as the step; no line adds to the text of another.
-/
import VmFleet.Proofs.StepRecords
import VmFleet.Proofs.ToolOutput

namespace VmFleet

/-- How a line is ended. -/
inductive LineEnd where
  | feed | returnFeed
  deriving DecidableEq

def LineEnd.chars : LineEnd → List Char
  | .feed => ['\n']
  | .returnFeed => ['\r', '\n']

/-- What stands on a line of output. -/
inductive PrintedLine where
  | step (s : Step)
  | other (line : String)

namespace PrintedLine

def text : PrintedLine → String
  | .step s => s.toJson.text
  | .other line => line

def step? : PrintedLine → Option Step
  | .step s => some s
  | .other _ => none

/-- The text that is kept of the line, which is a step or blank if there is none. -/
def kept? : PrintedLine → Option String
  | .step _ => none
  | .other line => if Text.Blank line then none else some line

/-- The line can stand in an output: it is a step with a time that can be written, or one line of
text that spells no step. -/
def Printable (now : Instant) : PrintedLine → Prop
  | .step s => s.timestamp.Shown
  | .other line => '\n' ∉ line.toList ∧ ∀ s, ¬ OutputLine.Spells now line s

/-- A line feed alone does not end a line with a carriage return before it. -/
def EndedBy : PrintedLine → LineEnd → Prop
  | .other line, .feed => line.toList.getLast? ≠ some '\r'
  | _, _ => True

end PrintedLine

/-- The text of ended lines and of a last one without an end, if there is one. -/
def printed (lines : List (PrintedLine × LineEnd)) (last : Option PrintedLine) : String :=
  String.ofList ((lines.flatMap fun l => l.1.text.toList ++ l.2.chars) ++
    (last.elim [] fun l => l.text.toList))

/-! ## Reading lines -/

namespace Text

theorem dropReturn_concat (cs : List Char) : dropReturn (cs ++ ['\r']) = cs := by
  simp only [dropReturn, List.reverse_append, List.reverse_singleton, List.singleton_append,
    List.reverse_reverse]

theorem dropReturn_of_ne {cs : List Char} (h : cs.getLast? ≠ some '\r') : dropReturn cs = cs := by
  rw [dropReturn]
  split
  · rename_i rest back
    rw [List.getLast?_eq_head?_reverse, back] at h
    exact absurd rfl h
  · rfl

/-- The characters up to a line feed are one line. -/
theorem linesFrom_feed {cs : List Char} (rest : List Char) (h : '\n' ∉ cs) (current : List Char) :
    linesFrom current (cs ++ '\n' :: rest) =
      dropReturn (current.reverse ++ cs) :: linesFrom [] rest := by
  induction cs generalizing current with
  | nil => simp [linesFrom]
  | cons c cs ih =>
    have other : c ≠ '\n' := fun same => h (same ▸ List.mem_cons_self)
    rw [List.cons_append, linesFrom, if_neg other, ih fun hc => h (List.mem_cons_of_mem c hc),
      List.reverse_cons, List.append_assoc, List.singleton_append]

theorem linesFrom_last {cs : List Char} (h : '\n' ∉ cs) (current : List Char) :
    linesFrom current cs = if current.reverse ++ cs = [] then [] else [current.reverse ++ cs] := by
  induction cs generalizing current with
  | nil => cases current <;> simp [linesFrom]
  | cons c cs ih =>
    have other : c ≠ '\n' := fun same => h (same ▸ List.mem_cons_self)
    rw [linesFrom, if_neg other, ih fun hc => h (List.mem_cons_of_mem c hc), List.reverse_cons,
      List.append_assoc, List.singleton_append]

theorem trimChars_between {first last : Char} (cs : List Char) (start : isBlank first = false)
    (stop : isBlank last = false) : trimChars (first :: cs ++ [last]) = first :: cs ++ [last] := by
  have front : trimStart (first :: cs ++ [last]) = first :: cs ++ [last] := by
    rw [trimStart, List.cons_append, List.dropWhile_cons, start]
    rfl
  rw [trimChars, front, trimEnd, List.reverse_append, List.reverse_singleton,
    List.singleton_append, List.dropWhile_cons, stop]
  simp

end Text

/-! ## What a printed line is read as -/

namespace Step

/-- The text of a step is enclosed by braces. -/
theorem text_enclosed (s : Step) : ∃ cs, s.toJson.text.toList = '{' :: cs ++ ['}'] :=
  ⟨_, String.toList_ofList⟩

theorem text_on_one_line (s : Step) : '\n' ∉ s.toJson.text.toList := by
  rw [Json.text, String.toList_ofList]
  exact fun feed => absurd (Json.printed_chars _ _ feed) (by decide)

theorem spells_text (now : Instant) {s : Step} (h : s.timestamp.Shown) :
    OutputLine.Spells now s.toJson.text s := by
  obtain ⟨cs, text⟩ := s.text_enclosed
  have trimmed : Text.trimChars s.toJson.text.toList = s.toJson.text.toList := by
    rw [text, Text.trimChars_between cs (by decide) (by decide)]
  refine ⟨by rw [trimmed, text]; rfl, s.toJson, ?_, s.ofJson?_toJson now h⟩
  rw [Text.trim, trimmed, String.ofList_toList, Json.parse?_text s.plain_toJson]

end Step

namespace PrintedLine

variable {now : Instant} {line : PrintedLine}

theorem Printable.on_one_line (h : line.Printable now) : '\n' ∉ line.text.toList := by
  cases line with
  | step s => exact s.text_on_one_line
  | other line => exact h.1

theorem EndedBy.dropReturn (h : line.EndedBy .feed) :
    Text.dropReturn line.text.toList = line.text.toList := by
  cases line with
  | step s =>
    obtain ⟨cs, text⟩ := s.text_enclosed
    refine Text.dropReturn_of_ne ?_
    rw [show (step s).text.toList = '{' :: cs ++ ['}'] from text, List.getLast?_concat]
    decide
  | other line => exact Text.dropReturn_of_ne h

theorem Printable.linesFrom_ended (h : line.Printable now) {ending : LineEnd}
    (ended : line.EndedBy ending) (rest : List Char) :
    Text.linesFrom [] (line.text.toList ++ ending.chars ++ rest) =
      line.text.toList :: Text.linesFrom [] rest := by
  cases ending with
  | feed =>
    rw [LineEnd.chars, List.append_assoc, List.singleton_append,
      Text.linesFrom_feed rest h.on_one_line, List.reverse_nil, List.nil_append,
      ended.dropReturn]
  | returnFeed =>
    have inside : '\n' ∉ line.text.toList ++ ['\r'] := by
      simp [h.on_one_line]
    have split : line.text.toList ++ LineEnd.returnFeed.chars ++ rest =
        line.text.toList ++ ['\r'] ++ '\n' :: rest := by
      simp [LineEnd.chars]
    rw [split, Text.linesFrom_feed rest inside, List.reverse_nil, List.nil_append,
      Text.dropReturn_concat]

/-- A line adds itself to what the lines after it are parted into. -/
theorem Printable.parted_cons (h : line.Printable now) {lines : List String}
    {others : List PrintedLine}
    (rest : OutputLine.Parted now lines (others.filterMap step?) (others.filterMap kept?)) :
    OutputLine.Parted now (line.text :: lines) ((line :: others).filterMap step?)
      ((line :: others).filterMap kept?) := by
  cases line with
  | step s => exact .step (s.spells_text now h) rest
  | other line =>
    rw [List.filterMap_cons_none (show (other line).step? = none from rfl)]
    by_cases empty : Text.Blank line
    · rw [List.filterMap_cons_none (show (other line).kept? = none from if_pos empty)]
      exact .blank empty rest
    · rw [List.filterMap_cons_some (show (other line).kept? = some line from if_neg empty)]
      exact .other empty h.2 rest

/-- A last line without text is no line, and would be a blank one. -/
theorem Printable.parted_last {last : Option PrintedLine}
    (h : ∀ line ∈ last, line.Printable now) : OutputLine.Parted now
      ((Text.linesFrom [] (last.elim [] fun l => l.text.toList)).map String.ofList)
      (last.toList.filterMap step?) (last.toList.filterMap kept?) := by
  cases last with
  | none => exact .nil
  | some line =>
    have parted : OutputLine.Parted now [line.text] ([line].filterMap step?)
        ([line].filterMap kept?) := (h line rfl).parted_cons .nil
    rw [Option.elim_some, Text.linesFrom_last (h line rfl).on_one_line, List.reverse_nil,
      List.nil_append, Option.toList_some]
    split
    · rename_i empty
      have blank : Text.Blank line.text := fun c hc => by
        rw [empty] at hc
        cases hc
      obtain ⟨steps, kept⟩ := parted.unique (.blank blank .nil)
      rw [steps, kept]
      exact .nil
    · rwa [List.map_singleton, String.ofList_toList]

theorem parted_printed {lines : List (PrintedLine × LineEnd)} {last : Option PrintedLine}
    (printable : ∀ l ∈ lines, l.1.Printable now ∧ l.1.EndedBy l.2)
    (printableLast : ∀ line ∈ last, line.Printable now) :
    OutputLine.Parted now (Text.lines (printed lines last))
      ((lines.map (·.1) ++ last.toList).filterMap step?)
      ((lines.map (·.1) ++ last.toList).filterMap kept?) := by
  rw [Text.lines, printed, String.toList_ofList]
  induction lines with
  | nil => exact Printable.parted_last printableLast
  | cons l lines ih =>
    obtain ⟨first, ended⟩ := printable l List.mem_cons_self
    have rest := first.parted_cons (ih fun x hx => printable x (List.mem_cons_of_mem l hx))
    rwa [List.flatMap_cons, List.append_assoc, first.linesFrom_ended ended, List.map_cons,
      String.ofList_toList, List.map_cons, List.cons_append]

end PrintedLine

/-- **What is printed is read back.** Steps that are written on lines of their own, between any
other lines, are the steps of the report, in their order and with all they say; its output is the
other lines with text. What the report tells of a fact is what the last step with it says. -/
theorem printed_read_back (action : Action) (stderr : String) (exit : Option Int)
    (started now : Instant) (lines : List (PrintedLine × LineEnd)) (last : Option PrintedLine)
    (printable : ∀ l ∈ lines, l.1.Printable now ∧ l.1.EndedBy l.2)
    (printableLast : ∀ line ∈ last, line.Printable now) :
    let r := Report.parse action (printed lines last) stderr exit started now
    r.steps = (lines.map (·.1) ++ last.toList).filterMap PrintedLine.step? ∧
      r.output = (lines.map (·.1) ++ last.toList).filterMap PrintedLine.kept? ∧
      (∀ key value, r.fact? key = some value ↔ r.LastGives key value) ∧
      ∀ key, r.fact? key = none ↔ ∀ step ∈ r.steps, step.facts.get? key = none := by
  intro r
  obtain ⟨steps, output⟩ := (OutputLine.parted now _).unique
    (PrintedLine.parted_printed printable printableLast)
  refine ⟨steps, output, fun _ _ => Report.fact?_eq_some, fun key => ?_⟩
  rw [Report.fact?, List.findSome?_eq_none_iff]
  exact forall_congr' fun step => imp_congr_left List.mem_reverse

/-- A step with two facts and a message over two lines. -/
def bootStep : Step where
  name := "boot \"β\""
  status := .changed
  timestamp := ⟨951782400, 500⟩
  msg := some "up\n\x01"
  facts := .ofList [("kernel", "6.1"), ("disk", "\t")]

/-- Between a line with a tab and a blank one, it is read back, and so is what it learned. -/
theorem bootStep_read_back :
    let lines : List (PrintedLine × LineEnd) :=
      [(.other "\tPLAY", .feed), (.step bootStep, .returnFeed), (.other " ", .feed)]
    let r := Report.parse .create (printed lines (some (.step bootStep))) "" (some 0) ⟨0, 0⟩ ⟨0, 0⟩
    r.steps = [bootStep, bootStep] ∧ r.output = ["\tPLAY"] ∧ r.fact? "kernel" = some "6.1" := by
  intro lines r
  have unbraced : ∀ line ∈ ["\tPLAY", " "], (Text.trimChars line.toList).head? ≠ some '{' := by
    decide
  have shown : bootStep.timestamp.Shown := by decide
  have other : ∀ line ∈ ["\tPLAY", " "], (PrintedLine.other line).Printable ⟨0, 0⟩ :=
    fun line hl => ⟨by revert line; decide, fun s spelt => unbraced line hl spelt.1⟩
  have printable : ∀ l ∈ lines, l.1.Printable ⟨0, 0⟩ ∧ l.1.EndedBy l.2 := by
    simp only [lines, List.forall_mem_cons]
    exact ⟨⟨other "\tPLAY" (by decide), show _ ≠ _ by decide⟩, ⟨shown, trivial⟩,
      ⟨other " " (by decide), show _ ≠ _ by decide⟩, List.forall_mem_nil _⟩
  obtain ⟨steps, output, fact, -⟩ := printed_read_back .create "" (some 0) ⟨0, 0⟩ ⟨0, 0⟩ lines
    (some (.step bootStep)) printable (by rintro _ ⟨⟩; exact shown)
  have known : bootStep.facts.get? "kernel" = some "6.1" := by decide
  exact ⟨steps, output.trans (by decide),
    (fact _ _).mpr ⟨[bootStep], bootStep, [], steps, known, List.forall_mem_nil _⟩⟩

end VmFleet
