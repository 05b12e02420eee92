/-
The output of a tool as its two readers pass it on. Whatever their reads cut it into and
in whichever order their messages arrive, what was captured of a pipe, what has not
arrived yet and nothing else make up what the tool wrote to it. So the whole output is
captured once both readers have said that their pipe has ended, and else a beginning.
-/
import VmFleet.Provision.Runner
import Mathlib.Logic.Function.Basic

namespace VmFleet

/-- The reads of a pipe bring these bytes in pieces, and then its end. -/
inductive Brings : List PipeRead → List UInt8 → Prop
  | ended {rest : List PipeRead} : Brings (.bytes [] :: rest) []
  | bytes (piece : List UInt8) {left : List UInt8} {rest : List PipeRead} (filled : piece ≠ [])
      (more : Brings rest left) : Brings (.bytes piece :: rest) (piece ++ left)
  | interrupted {left : List UInt8} {rest : List PipeRead} (more : Brings rest left) :
      Brings (.interrupted :: rest) left

/-- What arrives of the messages that the readers have to send, and what each has left: one after
the other, in any order, sends its next message. -/
inductive Arrives : (Pipe → List PipeMessage) → List PipeMessage → (Pipe → List PipeMessage) → Prop
  | nothing {unsent : Pipe → List PipeMessage} : Arrives unsent [] unsent
  | next {unsent left : Pipe → List PipeMessage} (pipe : Pipe) {m : PipeMessage}
      {rest arrived : List PipeMessage} (first : unsent pipe = m :: rest)
      (others : Arrives (Function.update unsent pipe rest) arrived left) :
      Arrives unsent (m :: arrived) left

/-- What a reader has to send says the bytes that are left and then the end, or nothing is left. -/
inductive Sends (pipe : Pipe) : List PipeMessage → List UInt8 → Prop
  | nothing : Sends pipe [] []
  | closed : Sends pipe [.closed] []
  | data {piece left : List UInt8} {rest : List PipeMessage} (unended : rest ≠ [])
      (more : Sends pipe rest left) : Sends pipe (.data pipe piece :: rest) (piece ++ left)

theorem Brings.sends {pipe : Pipe} {reads : List PipeRead} {bytes : List UInt8}
    (h : Brings reads bytes) : pipe.drain reads ≠ [] ∧ Sends pipe (pipe.drain reads) bytes := by
  induction h with
  | ended => exact ⟨List.cons_ne_nil _ _, .closed⟩
  | bytes piece filled _ ih =>
    obtain ⟨b, more, rfl⟩ := List.exists_cons_of_ne_nil filled
    exact ⟨List.cons_ne_nil _ _, .data ih.1 ih.2⟩
  | interrupted _ ih => exact ih

namespace Captured

variable {stream : Pipe → List UInt8} {unsent left : Pipe → List PipeMessage} {c : Captured}
  {pipe : Pipe} {m : PipeMessage} {rest arrived : List PipeMessage}

/-- What was captured of a pipe. -/
def of (c : Captured) : Pipe → List UInt8
  | .stdout => c.stdout
  | .stderr => c.stderr

/-- How many readers have nothing left to send. -/
def doneCount (unsent : Pipe → List PipeMessage) : Nat :=
  [Pipe.stdout, .stderr].countP fun pipe => (unsent pipe).isEmpty

/-- On the way: what was captured of each pipe and what its reader has left to say are what was
written to it, and a pipe counts as ended once its reader has nothing left. -/
structure Partway (stream : Pipe → List UInt8) (unsent : Pipe → List PipeMessage) (c : Captured) :
    Prop where
  whole : ∀ pipe, ∃ left, Sends pipe (unsent pipe) left ∧ c.of pipe ++ left = stream pipe
  ended : c.closed = doneCount unsent

theorem of_take_data (c : Captured) (pipe other : Pipe) (piece : List UInt8) :
    (c.take (.data pipe piece)).of other = c.of other ++ if other = pipe then piece else [] := by
  cases pipe <;> cases other <;> simp [take, of]

theorem of_take_closed (c : Captured) (other : Pipe) : (c.take .closed).of other = c.of other := by
  cases other <;> rfl

theorem closed_take_data (c : Captured) (pipe : Pipe) (piece : List UInt8) :
    (c.take (.data pipe piece)).closed = c.closed := by
  cases pipe <;> rfl

theorem doneCount_update (first : unsent pipe = m :: rest) :
    doneCount (Function.update unsent pipe rest) =
      doneCount unsent + if rest = [] then 1 else 0 := by
  cases pipe with
  | stdout => simp [doneCount, first, List.countP_cons]
  | stderr => simp [doneCount, first, List.countP_cons, Nat.add_comm]

theorem Partway.whole_update {c' : Captured} (h : Partway stream unsent c)
    (own : ∃ left, Sends pipe rest left ∧ c'.of pipe ++ left = stream pipe)
    (others : ∀ other, other ≠ pipe → c'.of other = c.of other) (other : Pipe) :
    ∃ left, Sends other (Function.update unsent pipe rest other) left ∧
      c'.of other ++ left = stream other := by
  by_cases same : other = pipe
  · subst same
    rw [Function.update_self]
    exact own
  · rw [Function.update_of_ne same, others other same]
    exact h.whole other

theorem Partway.take (h : Partway stream unsent c) (first : unsent pipe = m :: rest) :
    Partway stream (Function.update unsent pipe rest) (c.take m) := by
  obtain ⟨left, sends, whole⟩ := h.whole pipe
  have count := doneCount_update first
  rw [first] at sends
  cases sends with
  | closed =>
    refine ⟨h.whole_update ⟨[], .nothing, ?_⟩ fun other _ => of_take_closed c other, ?_⟩
    · rw [of_take_closed, whole]
    · rw [count, if_pos rfl, ← h.ended]
      rfl
  | @data piece left _ unended more =>
    refine ⟨h.whole_update ⟨left, more, ?_⟩ fun other another => ?_, ?_⟩
    · rw [of_take_data, if_pos rfl, List.append_assoc, whole]
    · rw [of_take_data, if_neg another, List.append_nil]
    · rw [count, if_neg unended, ← h.ended, closed_take_data]
      rfl

theorem Partway.unended (h : Partway stream unsent c) (waits : unsent pipe ≠ []) :
    ¬ 2 ≤ c.closed := by
  rw [h.ended]
  cases pipe <;> simp [doneCount, List.countP_cons, waits] <;> split <;> omega

/-- What arrives is all taken, and the collection tells whether both pipes have ended. -/
theorem Partway.collect (arrives : Arrives unsent arrived left) (h : Partway stream unsent c) :
    ∃ c', Partway stream left c' ∧
      ∀ gone, Captured.collect gone arrived c = (decide (2 ≤ c'.closed) || gone, c') := by
  induction arrives generalizing c with
  | nothing =>
    refine ⟨c, h, fun gone => ?_⟩
    rw [Captured.collect]
    by_cases both : 2 ≤ c.closed <;> simp [both]
  | next pipe first _ ih =>
    obtain ⟨c', onward, collected⟩ := ih (h.take first)
    refine ⟨c', onward, fun gone => ?_⟩
    rw [Captured.collect, if_neg (h.unended (first ▸ List.cons_ne_nil _ _))]
    exact collected gone

/-- Nothing has been sent before the first message. -/
theorem partway_start {reads : Pipe → List PipeRead}
    (brings : ∀ pipe, Brings (reads pipe) (stream pipe)) :
    Partway stream (fun pipe => pipe.drain (reads pipe)) {} := by
  refine ⟨fun pipe => ⟨stream pipe, (brings pipe).sends.2, ?_⟩, ?_⟩
  · cases pipe <;> rfl
  · have unended : ∀ pipe : Pipe, (pipe.drain (reads pipe)).isEmpty = false := fun pipe => by
      simpa using (brings pipe).sends.1
    simp [doneCount, unended]

theorem Partway.all (h : Partway stream left c) (done : ∀ pipe, left pipe = []) :
    c = ⟨stream .stdout, stream .stderr, 2⟩ := by
  have caught : ∀ pipe, c.of pipe = stream pipe := by
    intro pipe
    obtain ⟨rest, sends, whole⟩ := h.whole pipe
    rw [done pipe] at sends
    cases sends
    rwa [List.append_nil] at whole
  have both : c.closed = 2 := by
    rw [h.ended]
    simp [doneCount, done]
  rw [← caught, ← caught, ← both]
  rfl

end Captured

/-- A run is answered by what was captured, whatever messages it came in. -/
theorem Runner.run_congr {r : Runner} {action : Action} {request : ProvisionRequest}
    {budget : Duration} {now : Instant} {lasts : Option Duration} {exitCode : Option Int}
    {messages messages' : List PipeMessage}
    (same : Captured.collect false messages {} = Captured.collect false messages' {}) :
    r.run (fun _ => .exits lasts messages exitCode) action request budget now =
      r.run (fun _ => .exits lasts messages' exitCode) action request budget now := by
  by_cases unfit : (r.launch action request).holdsNul = true
  · simp only [run, if_pos unfit]
  · simp only [run, if_neg unfit]
    cases lasts with
    | none => rfl
    | some lasts => simp only [same]

/-- **Both pipes are captured whole if both end in time, and from their beginning on if not,
whatever pieces they are read in and however the pieces are mixed.** If both readers have said all
they have to say, the collection says so, nothing is missing or added, and the tool's run is
answered as if each pipe had been read in one piece. If time is up while one of them has something
to say, the collection says that it is not complete. No reader goes away before it has said all. -/
theorem output_captured {stream : Pipe → List UInt8} {reads : Pipe → List PipeRead}
    (brings : ∀ pipe, Brings (reads pipe) (stream pipe)) {arrived : List PipeMessage}
    {left : Pipe → List PipeMessage}
    (arrives : Arrives (fun pipe => pipe.drain (reads pipe)) arrived left) (gone : Bool)
    (stays : gone = true → ∀ pipe, left pipe = []) :
    ((∀ pipe, left pipe = []) →
      Captured.collect gone arrived {} = (true, ⟨stream .stdout, stream .stderr, 2⟩) ∧
      ∀ (r : Runner) (action : Action) (request : ProvisionRequest) (budget : Duration)
        (now : Instant) (lasts : Option Duration) (exitCode : Option Int),
        r.run (fun _ => .exits lasts arrived exitCode) action request budget now =
          r.run (fun _ => .exits lasts [.data .stdout (stream .stdout),
            .data .stderr (stream .stderr), .closed, .closed] exitCode) action request budget now) ∧
    ((∃ pipe, left pipe ≠ []) →
      ∃ c, Captured.collect gone arrived {} = (false, c) ∧
        c.stdout <+: stream .stdout ∧ c.stderr <+: stream .stderr) := by
  obtain ⟨c, partway, collected⟩ := (Captured.partway_start brings).collect arrives
  refine ⟨fun done => ?_, fun ⟨pipe, waits⟩ => ?_⟩
  · have complete : ∀ gone, Captured.collect gone arrived {} =
        (true, ⟨stream .stdout, stream .stderr, 2⟩) := fun gone => by
      rw [collected gone, partway.all done]
      rfl
    have onePiece : Captured.collect false [.data .stdout (stream .stdout),
        .data .stderr (stream .stderr), .closed, .closed] {} =
          (true, ⟨stream .stdout, stream .stderr, 2⟩) := rfl
    exact ⟨complete gone, fun r action request budget now lasts exitCode =>
      Runner.run_congr ((complete false).trans onePiece.symm)⟩
  · have unended : ¬ 2 ≤ c.closed := partway.unended waits
    have there : gone = false := Bool.eq_false_iff.mpr fun all => waits (stays all pipe)
    obtain ⟨_, -, out⟩ := partway.whole .stdout
    obtain ⟨_, -, err⟩ := partway.whole .stderr
    refine ⟨c, ?_, ⟨_, out⟩, ⟨_, err⟩⟩
    rw [collected gone, decide_eq_false unended, there]
    rfl

/-- A letter of two bytes on a line of its own, and another one on the other pipe. -/
def umlautOutput : Pipe → List UInt8
  | .stdout => [0xC3, 0xB6, 0x0A]
  | .stderr => [0x65]

/-- Reads that part the letter, with an interruption between its bytes. -/
def umlautReads : Pipe → List PipeRead
  | .stdout => [.bytes [0xC3], .interrupted, .bytes [0xB6, 0x0A], .bytes []]
  | .stderr => [.bytes [0x65], .bytes []]

/-- The letter is whole if its second byte comes in time, and else only its first byte is there. -/
theorem umlautOutput_captured :
    Captured.collect false [.data .stderr [0x65], .data .stdout [0xC3], .closed,
      .data .stdout [0xB6, 0x0A], .closed] {} = (true, ⟨[0xC3, 0xB6, 0x0A], [0x65], 2⟩) ∧
    Text.ofUtf8 [0xC3, 0xB6, 0x0A] = "ö\n" ∧
    ∃ c, Captured.collect false [.data .stderr [0x65], .data .stdout [0xC3], .closed] {} =
        (false, c) ∧ c.stdout <+: umlautOutput .stdout ∧ c.stderr <+: umlautOutput .stderr := by
  have brings : ∀ pipe, Brings (umlautReads pipe) (umlautOutput pipe) := by
    intro pipe
    cases pipe with
    | stdout =>
      exact .bytes [0xC3] (by decide) (.interrupted (.bytes [0xB6, 0x0A] (by decide) .ended))
    | stderr => exact .bytes [0x65] (by decide) .ended
  have cut := output_captured brings
    (.next .stderr rfl (.next .stdout rfl (.next .stderr rfl .nothing))) false nofun
  have whole := output_captured brings
    (.next .stderr rfl (.next .stdout rfl (.next .stderr rfl
      (.next .stdout rfl (.next .stdout rfl .nothing))))) false nofun
  have letter : Text.ofUtf8 [0xC3, 0xB6, 0x0A] = "ö\n" := by
    simp [Text.ofUtf8, Text.decodeFrom, Text.decodeFrom.start, Text.leadShape?, Text.addBits]
  refine ⟨(whole.1 fun pipe => ?_).1, letter, cut.2 ⟨.stdout, ?_⟩⟩
  · cases pipe <;> rfl
  · exact List.cons_ne_nil _ _

end VmFleet
