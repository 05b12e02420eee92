/-
Long delays. A retry puts its task off by the drawn backoff, and a sweep takes the
hard limit off the clock; the configuration bounds neither. As long as the next
attempt lies in a year of four digits the task is read back and claimed from then
on. Beyond, its row is written but never read again, and since its text begins
with a sign it comes before all others and no claim gets past it; beyond the end
of the calendar the worker breaks down, and a delay too long to be added is none.
-/
import Mathlib.Data.Prod.Lex
import VmFleet.Config.Check
import VmFleet.Proofs.Staleness
import VmFleet.Proofs.Turns

namespace VmFleet

/-! ## Times of late years -/

namespace Instant

variable {t u : Instant}

theorem readMicro?_digit {cs : List Char} (h : readMicro? cs = some t) :
    ∃ c rest, cs = c :: rest ∧ c.isDigit = true := by
  unfold readMicro? at h
  split at h
  · next y₁ _ _ _ _ _ _ _ _ _ _ _ _ _ _ _ _ _ _ _ =>
    obtain ⟨year, read, -⟩ := Option.bind_eq_some_iff.mp h
    refine ⟨y₁, _, rfl, ?_⟩
    unfold Text.readDigits? at read
    split at read
    · cases read
    · next digits =>
      simp only [Bool.or_eq_true, Bool.not_eq_true', not_or, Bool.not_eq_false] at digits
      exact List.all_eq_true.mp digits.2 y₁ List.mem_cons_self
  · cases h

/-- A year of more than four digits has a sign. -/
theorem microChars_late (late : 9999 < t.date.year) : ∃ rest, t.microChars = '+' :: rest := by
  have years : ¬(0 ≤ t.date.year ∧ t.date.year ≤ 9999) := fun within => by omega
  have after : ¬ t.date.year < 0 := by omega
  simp only [microChars, clockChars, yearChars, if_neg years, if_neg after, List.cons_append]
  exact ⟨_, rfl⟩

theorem microChars_early (early : t.date.year < 0) : ∃ rest, t.microChars = '-' :: rest := by
  have years : ¬(0 ≤ t.date.year ∧ t.date.year ≤ 9999) := fun within => by omega
  simp only [microChars, clockChars, yearChars, if_neg years, if_pos early, List.cons_append]
  exact ⟨_, rfl⟩

theorem Writable.microChars_digit (h : u.Writable) :
    ∃ c rest, u.microChars = c :: rest ∧ c.isDigit = true :=
  readMicro?_digit h.readMicro?_microChars

end Instant

namespace Stamp

variable {t u : Instant}

/-- A text that begins with a sign is not read as a time. -/
theorem instant?_of_sign {c : Char} {rest : List Char} (text : t.microChars = c :: rest)
    (sign : c.isDigit = false) : (Stamp.of t).instant? = none := by
  rw [instant?, of, Instant.microText, String.toList_ofList]
  cases read : Instant.readMicro? t.microChars with
  | none => rfl
  | some v =>
    obtain ⟨_, _, same, digit⟩ := Instant.readMicro?_digit read
    obtain ⟨rfl, -⟩ := List.cons.inj (text.symm.trans same)
    cases sign.symm.trans digit

theorem instant?_of_late (late : 9999 < t.date.year) : (Stamp.of t).instant? = none := by
  obtain ⟨rest, text⟩ := Instant.microChars_late late
  exact instant?_of_sign text rfl

/-- The sign stands before all digits. -/
theorem of_lt_of_late (late : 9999 < t.date.year) (hu : u.Legible) : Stamp.of t < Stamp.of u := by
  obtain ⟨rest, text⟩ := Instant.microChars_late late
  obtain ⟨c, rest', text', digit⟩ := hu.writable.microChars_digit
  show t.microText < u.microText
  rw [String.lt_iff_toList_lt, Instant.microText, Instant.microText, String.toList_ofList,
    String.toList_ofList, text, text']
  refine List.Lex.rel ?_
  simp only [Char.isDigit, ge_iff_le, Bool.and_eq_true, decide_eq_true_eq] at digit
  exact lt_of_lt_of_le (by decide : '+' < '0') digit.1

protected theorem le_of_lt {a b : Stamp} (h : a < b) : a ≤ b :=
  le_of_lt (a := a.text) (b := b.text) h

theorem year_of_instant? (read : (Stamp.of t).instant?.isSome) :
    0 ≤ t.date.year ∧ t.date.year ≤ 9999 := by
  by_cases early : t.date.year < 0
  · obtain ⟨rest, text⟩ := Instant.microChars_early early
    rw [instant?_of_sign text rfl] at read
    cases read
  by_cases late : 9999 < t.date.year
  · rw [instant?_of_late late] at read
    cases read
  · omega

theorem instant?_isSome_iff (plain : t.nano < 1000000000) :
    (Stamp.of t).instant?.isSome ↔ 0 ≤ t.date.year ∧ t.date.year ≤ 9999 := by
  refine ⟨year_of_instant?, fun ⟨first, last⟩ => ?_⟩
  rw [instant?_of ⟨first, last, plain⟩]
  rfl

/-- Of writable instants the texts are in the order of time, the earlier one cut to microseconds. -/
theorem of_le_of_iff (ht : t.Writable) (hu : u.Writable) :
    Stamp.of t ≤ Stamp.of u ↔ t.cutToMicros ≤ u := by
  rw [of_le_of_iff_cut ht hu]
  simp only [Instant.le_def, Instant.cutToMicros]
  omega

/-- Writable instants come before a whole microsecond by their texts as by time, also before one of
no year of theirs: that of an early year has a sign, before which no digit comes. -/
theorem of_lt_of_iff_of_whole (ht : t.Writable) (plain : u.nano < 1000000000)
    (whole : u.cutToMicros = u) (last : u.date.year ≤ 9999) :
    Stamp.of t < Stamp.of u ↔ t < u := by
  by_cases first : 0 ≤ u.date.year
  · rw [of_lt_of_iff ht ⟨first, last, .inl plain⟩, whole]
    have micros := congrArg Instant.nano whole
    simp only [Instant.lt_def, Instant.cutToMicros] at micros ⊢
    omega
  · have notText : ¬ Stamp.of t < Stamp.of u := by
      obtain ⟨rest, text⟩ := Instant.microChars_early (Int.not_le.mp first)
      obtain ⟨c, rest', text', digit⟩ := ht.microChars_digit
      show ¬ t.microText < u.microText
      rw [String.lt_iff_toList_lt, Instant.microText, Instant.microText, String.toList_ofList,
        String.toList_ofList, text, text', List.cons_lt_cons_iff]
      simp only [Char.isDigit, ge_iff_le, Bool.and_eq_true, decide_eq_true_eq] at digit
      have after : '-' < c := lt_of_lt_of_le (by decide : '-' < '0') digit.1
      rintro (before | ⟨rfl, -⟩)
      · exact lt_asymm after before
      · exact lt_irrefl _ after
    have notTime : ¬ t < u := by
      intro before
      have second : t.second ≤ u.second := by
        rw [Instant.lt_def] at before
        omega
      exact first (Int.le_trans ht.1 (Instant.date_year_mono second))
    exact iff_of_false notText notTime

end Stamp

/-! ## Rows that are due -/

namespace Store

variable {stamp : Stamp} {rows : List TaskRow} {row : TaskRow}

theorem isBefore_iff (a b : TaskRow) : isBefore a b = true ↔
    toLex (a.notBefore.text, a.createdAt.text) < toLex (b.notBefore.text, b.createdAt.text) := by
  have same : ∀ x y : Stamp, x = y ↔ x.text = y.text := fun x y => by cases x; cases y; simp
  have less : ∀ x y : Stamp, x < y ↔ x.text < y.text := fun _ _ => Iff.rfl
  simp only [isBefore, Bool.or_eq_true, Bool.and_eq_true, decide_eq_true_eq, beq_iff_eq, same,
    less, Prod.Lex.lt_iff, ofLex_toLex]

/-- None of the due rows is before the one that is claimed. -/
theorem nextDue?_first (h : nextDue? stamp rows = some row) :
    ∀ x ∈ rows, isDue stamp x = true → isBefore x row = false := by
  have order : ∀ a b, isBefore a b = false ↔
      toLex (b.notBefore.text, b.createdAt.text) ≤ toLex (a.notBefore.text, a.createdAt.text) :=
    fun a b => by rw [← not_lt, ← isBefore_iff, Bool.not_eq_true]
  intro x hx due
  refine foldl_pick_first isBefore (fun _ => rfl) (fun _ _ => rfl) (fun a b => ?_)
    (fun a b c => ?_) h x (List.mem_filter.mpr ⟨hx, due⟩)
  · rw [isBefore_iff, order]
    exact le_of_lt
  · simp only [order]
    exact fun ab bc => le_trans ab bc

end Store

/-! ## A task that is put off -/

namespace TaskRow

variable {row : TaskRow} {t : Instant} {why : String}

/-- The row once its task is put off to `t`. -/
def putOff (row : TaskRow) (t : Instant) (why : String) : TaskRow :=
  { row with status := .pending, notBefore := .of t, lastError := some why }

/-- The row is read as a task that is due at `t`, and a claim may take it from then on. -/
structure DueFrom (row : TaskRow) (t : Instant) : Prop where
  read : ∃ task, TaskRow.task row = .ok task ∧ task.notBefore = t
  claimed : ∀ now : Instant, now.Legible → (Store.isDue (.of now) row = true ↔ t ≤ now)

theorem task_notBefore {task : Task} (h : TaskRow.task row = .ok task) :
    row.notBefore.instant? = some task.notBefore := by
  unfold TaskRow.task at h
  split at h
  · cases h
  obtain ⟨t, read, h⟩ := bind_ok h
  obtain ⟨_, _, h⟩ := bind_ok h
  obtain ⟨_, _, h⟩ := bind_ok h
  obtain ⟨_, _, h⟩ := bind_ok h
  cases h
  unfold readStamp at read
  split at read
  · next found =>
    cases read
    exact found
  · cases read

theorem putOff_readable (readable : row.Readable) :
    (row.putOff t why).Readable ↔ (Stamp.of t).instant?.isSome :=
  ⟨fun h => h.notBefore, fun read => { readable with notBefore := read }⟩

theorem putOff_dueFrom (readable : row.Readable) (legible : t.Legible) :
    (row.putOff t why).DueFrom t.cutToMicros := by
  have read := Stamp.instant?_of legible
  obtain ⟨task, ok⟩ := readable_iff.mp ((putOff_readable readable).mpr (by rw [read]; rfl))
  refine ⟨⟨task, ok, ?_⟩, fun now legible' => ?_⟩
  · exact Option.some.inj ((task_notBefore ok).symm.trans read)
  · simp only [Store.isDue, putOff, beq_self_eq_true, Bool.true_and, decide_eq_true_eq,
      Stamp.of_le_of_iff legible.writable legible'.writable]

theorem task_error_of_late (due : row.notBefore = .of t) (late : 9999 < t.date.year) :
    ∃ e, TaskRow.task row = .error e := by
  cases read : TaskRow.task row with
  | error e => exact ⟨e, rfl⟩
  | ok task =>
    have read := task_notBefore read
    rw [due, Stamp.instant?_of_late late] at read
    cases read

/-- It is due at any time that is legible. -/
theorem putOff_isDue_of_late {now : Instant} (late : 9999 < t.date.year) (legible : now.Legible) :
    Store.isDue (.of now) (row.putOff t why) = true := by
  simp only [Store.isDue, putOff, beq_self_eq_true, Bool.true_and]
  exact decide_eq_true (Stamp.le_of_lt (Stamp.of_lt_of_late late legible))

end TaskRow

namespace Store

variable {s : Store} {id why : String} {t : Instant}

/-- The task cannot be looked up, and at no time does a claim get past it while the other tasks that
wait are due at legible times. -/
structure Blocked (s : Store) (id : String) : Prop where
  unread : ∃ e, s.task? id = .error e
  claims : ∀ now : Instant, now.Legible →
    (∀ row ∈ s.tasks, row.id ≠ id → row.status = .pending →
      ∃ due : Instant, due.Legible ∧ row.notBefore = .of due) →
    ∃ e, s.claimNext now = .error e

/-- Whatever row of the id is found, it is one that was put off. -/
theorem notBefore_of_putOff {row : TaskRow} (member : row ∈ (s.setTask id (·.putOff t why)).tasks)
    (same : row.id = id) : row.notBefore = .of t := by
  obtain ⟨old, -, rfl⟩ := mem_updateWhere.mp member
  split
  · rfl
  · next other =>
    rw [if_neg other] at same
    exact absurd (beq_iff_eq.mpr same) other

/-- A row whose task is put off to a late year blocks all claims. -/
theorem blocked_of_late {row : TaskRow} (found : s.taskRow? id = some row)
    (late : 9999 < t.date.year) : (s.setTask id (·.putOff t why)).Blocked id := by
  have there : (s.setTask id (·.putOff t why)).taskRow? id = some (row.putOff t why) := by
    have kept : ∀ row : TaskRow, (row.putOff t why).id = row.id := fun _ => rfl
    rw [taskRow?_setTask kept, found, Option.map_some]
  constructor
  · have putOff : (row.putOff t why).notBefore = .of t := rfl
    obtain ⟨e, unread⟩ := TaskRow.task_error_of_late putOff late
    exact ⟨e, by rw [task?, there]; simp only [unread, Except.map]⟩
  · intro now legible others
    obtain ⟨member, -⟩ := taskRow?_mem there
    have due : isDue (.of now) (row.putOff t why) = true :=
      TaskRow.putOff_isDue_of_late late legible
    obtain ⟨next, picked⟩ := Option.isSome_iff_exists.mp (nextDue?_isSome member due)
    obtain ⟨hnext, pending⟩ := nextDue?_mem picked
    -- The claim takes this row or another one of the id, for none of the others stands before it.
    have next_due : next.notBefore = .of t := by
      by_cases same : next.id = id
      · exact notBefore_of_putOff hnext same
      · obtain ⟨time, legible', due'⟩ := others next hnext same pending
        have before := nextDue?_first picked _ member due
        have sooner : Stamp.of t < next.notBefore := due' ▸ Stamp.of_lt_of_late late legible'
        simp [isBefore, TaskRow.putOff, sooner] at before
    have begun : (claimed next (.of now)).notBefore = .of t := next_due
    obtain ⟨e, unread⟩ := TaskRow.task_error_of_late begun late
    exact ⟨e, by simp only [claimNext, picked, unread, Except.map]⟩

end Store

namespace Queue

open Lifecycle (longestSpan)
open Program (Ending)

variable {queue : QueueConfig} {jitter : Jitter} {task : Task} {p : Provisioner} {w : World}
  {why : String}

/-- What a worker makes of a task that is to be tried again: it puts the task off, or it breaks down
where the calendar has no time for the next attempt. -/
theorem record_retry (queue : QueueConfig) (jitter : Jitter) (p : Provisioner) (why : String)
    (quiet : w.coming = []) (there : (w.store.taskRow? task.id).isSome)
    (left : task.isFinalAttempt = false) :
    (record queue jitter task (.retry why)).run p.tool w =
      match retryAt? queue jitter task (w.now.after World.tick) with
      | some t => (.finished .pending, { w with
          now := w.now.after World.tick
          store := w.store.setTask task.id (·.putOff t why) })
      | none => (.crashed "the next attempt lies outside of the calendar",
          { w with now := w.now.after World.tick }) := by
  have open_end : ¬ task.isFinalAttempt = true := by simp [left]
  simp only [record, if_neg open_end]
  rw [Program.run_now, World.advance_of_quiet quiet]
  split
  · next next_try => rw [next_try]; rfl
  · next t next_try =>
    rw [next_try]
    exact write_run (w := { w with now := w.now.after World.tick }) there rfl .pending

/-- What becomes of a task that is to be tried again after a delay. -/
inductive Delayed (s : Store) (id why : String) (now : Instant) (delay : Duration) :
    Ending TaskStatus → Store → Prop
  /-- Up to year 9999 it is due after the delay. -/
  | kept {row : TaskRow} (short : delay.nanos ≤ longestSpan)
      (year : (now.after delay).date.year ≤ 9999) (found : s.taskRow? id = some row)
      (due : (row.putOff (now.after delay) why).DueFrom (now.after delay).cutToMicros) :
      Delayed s id why now delay (.finished .pending)
        (s.setTask id (·.putOff (now.after delay) why))
  /-- Beyond, up to the end of the calendar, it is in the way of all claims. -/
  | blocked (short : delay.nanos ≤ longestSpan) (late : 9999 < (now.after delay).date.year)
      (calendar : (now.after delay).date.year ≤ Instant.lastYear)
      (blocked : (s.setTask id (·.putOff (now.after delay) why)).Blocked id) :
      Delayed s id why now delay (.finished .pending)
        (s.setTask id (·.putOff (now.after delay) why))
  /-- Beyond the end of the calendar the worker breaks down. -/
  | broken {what : String} (short : delay.nanos ≤ longestSpan)
      (beyond : Instant.lastYear < (now.after delay).date.year) :
      Delayed s id why now delay (.crashed what) s
  /-- With a delay too long to be added it is due at once. -/
  | undelayed {row : TaskRow} (long : longestSpan < delay.nanos) (found : s.taskRow? id = some row)
      (due : (row.putOff now why).DueFrom now.cutToMicros) :
      Delayed s id why now delay (.finished .pending) (s.setTask id (·.putOff now why))

theorem Delayed.blocks {s s' : Store} {id : String} {now : Instant} {delay : Duration}
    {ending : Ending TaskStatus} (h : Delayed s id why now delay ending s')
    (short : delay.nanos ≤ longestSpan) (late : 9999 < (now.after delay).date.year)
    (calendar : (now.after delay).date.year ≤ Instant.lastYear) : s'.Blocked id := by
  cases h with
  | kept _ year => omega
  | blocked _ _ _ blocked => exact blocked
  | broken _ beyond => omega
  | undelayed long => omega

theorem record_delayed {row : TaskRow} (quiet : w.coming = [])
    (found : w.store.taskRow? task.id = some row) (readable : row.Readable)
    (left : task.isFinalAttempt = false) (legible : (w.now.after World.tick).Legible) :
    let ran := (record queue jitter task (.retry why)).run p.tool w
    Delayed w.store task.id why (w.now.after World.tick)
      (queue.backoffFor task.attempts jitter) ran.1 ran.2.store := by
  have there : (w.store.taskRow? task.id).isSome := by rw [found]; rfl
  have ran := record_retry queue jitter p why quiet there left
  generalize w.now.after World.tick = now at legible ran ⊢
  simp only [retryAt?] at ran
  generalize queue.backoffFor task.attempts jitter = delay at ran ⊢
  have later : now.date.year ≤ (now.after delay).date.year :=
    Instant.date_year_mono (Instant.second_le (now.le_after delay))
  have first : 0 ≤ (now.after delay).date.year := Int.le_trans legible.1 later
  by_cases long : longestSpan < delay.nanos
  · have again : now.after? .zero = some now := by
      simp only [Instant.after?, Instant.after_zero legible.2.2, if_pos legible.writable.inCalendar]
    rw [if_pos long, again] at ran
    rw [ran]
    exact .undelayed long found (TaskRow.putOff_dueFrom readable legible)
  have short : delay.nanos ≤ longestSpan := Nat.not_lt.mp long
  rw [if_neg long] at ran
  by_cases beyond : Instant.lastYear < (now.after delay).date.year
  · have none : now.after? delay = none := if_neg fun calendar => by
      have := calendar.2
      omega
    rw [none] at ran
    rw [ran]
    exact .broken short beyond
  · have calendar : (now.after delay).InCalendar := by
      simp only [Instant.InCalendar, Instant.firstYear]
      omega
    have some : now.after? delay = some (now.after delay) := if_pos calendar
    rw [some] at ran
    rw [ran]
    by_cases late : 9999 < (now.after delay).date.year
    · exact .blocked short late calendar.2 (Store.blocked_of_late found late)
    · have year : (now.after delay).date.year ≤ 9999 := Int.not_lt.mp late
      exact .kept short year found
        (TaskRow.putOff_dueFrom readable ⟨first, year, now.after_nano_lt delay⟩)

end Queue

namespace Lifecycle

open Program (Ending)

variable {maxAge : Duration} {tool : Tool} {p : Provisioner} {w : World}

theorem sweepStale_refused (quiet : w.coming = []) (long : longestSpan < maxAge.nanos) :
    (sweepStale maxAge).run tool w = (.finished (.error (.validation
      "Source duration value is out of range for the target type")),
        { w with now := w.now.after World.tick }) := by
  unfold sweepStale
  rw [Program.run_now, if_pos long, World.advance_of_quiet quiet]
  rfl

theorem sweepStale_broken (quiet : w.coming = []) (short : maxAge.nanos ≤ longestSpan)
    (beyond : (w.now.after World.tick).before? maxAge = none) :
    (sweepStale maxAge).run tool w = (.crashed "the cutoff lies outside of the calendar",
      { w with now := w.now.after World.tick }) := by
  unfold sweepStale
  rw [Program.run_now, if_neg (Nat.not_lt.mpr short), World.advance_of_quiet quiet, beyond]
  rfl

/-- How a sweep gets its cutoff, which it takes off the clock that it has read. -/
inductive CutOff (maxAge : Duration) (tool : Tool) (begun : World) :
    Ending (Except Error SweepReport) × World → Prop
  /-- With the cutoff the sweep comes to its end. -/
  | found {cutoff : Instant} {answer : Except Error SweepReport} {w' : World}
      (short : maxAge.nanos ≤ longestSpan) (calendar : cutoff.InCalendar)
      (isCutoff : cutoff = .ofNanos (begun.now.toNanos - maxAge.nanos))
      (ends : (sweepFrom cutoff maxAge).run tool begun = (.finished answer, w')) :
      CutOff maxAge tool begun ((sweepFrom cutoff maxAge).run tool begun)
  /-- An age too long to be taken off is refused. -/
  | refused {message : String} (long : longestSpan < maxAge.nanos) :
      CutOff maxAge tool begun (.finished (.error (.validation message)), begun)
  /-- With an age that reaches behind the calendar the sweep breaks down. -/
  | broken {what : String} (short : maxAge.nanos ≤ longestSpan)
      (beyond : ¬ (Instant.ofNanos (begun.now.toNanos - maxAge.nanos)).InCalendar) :
      CutOff maxAge tool begun (.crashed what, begun)

theorem sweepStale_cutOff (quiet : w.coming = []) :
    CutOff maxAge p.tool { w with now := w.now.after World.tick }
      ((sweepStale maxAge).run p.tool w) := by
  by_cases long : longestSpan < maxAge.nanos
  · rw [sweepStale_refused quiet long]
    exact .refused long
  have short : maxAge.nanos ≤ longestSpan := Nat.not_lt.mp long
  by_cases calendar :
    (Instant.ofNanos ((w.now.after World.tick).toNanos - maxAge.nanos)).InCalendar
  · have cutoff : (w.now.after World.tick).before? maxAge = some _ := if_pos calendar
    obtain ⟨answer, w', ends⟩ := (sweepFrom_returns (.ofNanos
      ((w.now.after World.tick).toNanos - maxAge.nanos)) maxAge).finished p.tool
        { w with now := w.now.after World.tick }
    rw [sweepStale_run p.tool w short cutoff, World.advance_of_quiet quiet]
    exact .found short calendar rfl ends
  · have none : (w.now.after World.tick).before? maxAge = none := if_neg calendar
    rw [sweepStale_broken quiet short none]
    exact .broken short calendar

end Lifecycle

namespace Queue

/-- **How far delays reach.** A worker that is to try a task again puts it off by the drawn delay if
the next attempt comes in year 9999 at the latest: the task is then read back and claimed from that
time on. Later in the calendar its row blocks all claims, beyond the calendar the worker breaks down
with nothing recorded, and a delay too long to be added counts as none. A sweep takes the hard limit
off the clock, refuses one too long to be taken off, or breaks down before it has changed anything
where the cutoff lies before the calendar. -/
theorem delays_within_calendar (queue : QueueConfig) (jitter : Jitter) {task : Task} {w : World}
    {row : TaskRow} (quiet : w.coming = []) (found : w.store.taskRow? task.id = some row)
    (readable : row.Readable) (left : task.isFinalAttempt = false) (why : String) (p : Provisioner)
    (clock : 1970 ≤ (w.now.after World.tick).date.year ∧
      (w.now.after World.tick).date.year ≤ 2100) :
    let now := w.now.after World.tick
    let recorded := (record queue jitter task (.retry why)).run p.tool w
    Delayed w.store task.id why now (queue.backoffFor task.attempts jitter) recorded.1
        recorded.2.store ∧
      Lifecycle.CutOff queue.hardLimit p.tool { w with now }
        ((Lifecycle.sweepStale queue.hardLimit).run p.tool w) := by
  have legible : (w.now.after World.tick).Legible :=
    ⟨by omega, by omega, w.now.after_nano_lt World.tick⟩
  exact ⟨record_delayed quiet found readable left legible, Lifecycle.sweepStale_cutOff quiet⟩

/-- A configuration with these milliseconds of backoff and of hard limit. -/
def patient (backoff hardLimit : Nat) : Config :=
  { queue := { retryBackoff := .ofMillis backoff, hardLimit := .ofMillis hardLimit } }

/-- A stop at its first attempt of three. -/
def stopAtWork : Task :=
  { Task.fresh "task-1" .stop 1 {} 3 ⟨1767225600, 0⟩ with
    status := .running, attempts := 1, startedAt := some ⟨1767225601, 0⟩ }

/-- The task's row is all there is; it is 2026. -/
def atWork : World where
  store := { Store.empty with tasks := [.ofTask stopAtWork] }
  now := ⟨1767225602, 0⟩

/-- What becomes of the task that is to be tried again. -/
def triedAgain (config : Config) : Program.Ending TaskStatus × World :=
  (record config.queue ⟨0, Fleet.parts_pos⟩ stopAtWork (.retry "no route")).run
    Fleet.promptTool.tool atWork

/-- Of three configurations that pass their check, one puts the task off to a time that it is not
read back from, one makes the worker break down, and one the sweep. -/
theorem long_delays_break_down :
    ((patient 400000000000000 300000).check = .ok () ∧
      (triedAgain (patient 400000000000000 300000)).2.store.task? "task-1" =
        .error (TaskRow.unreadable 7)) ∧
    ((patient 11000000000000000 300000).check = .ok () ∧
      ∃ what w', triedAgain (patient 11000000000000000 300000) = (.crashed what, w')) ∧
    ((patient 5000 9000000000000000).check = .ok () ∧
      ∃ what w', (Lifecycle.sweepStale (patient 5000 9000000000000000).queue.hardLimit).run
        Fleet.promptTool.tool atWork = (.crashed what, w')) := by
  have beyond : retryAt? (patient 11000000000000000 300000).queue ⟨0, Fleet.parts_pos⟩ stopAtWork
      (atWork.now.after World.tick) = none := by decide +kernel
  have behind : (atWork.now.after World.tick).before?
      (patient 5000 9000000000000000).queue.hardLimit = none := by decide +kernel
  refine ⟨⟨by decide +kernel, by decide +kernel⟩, ⟨by decide +kernel, ?_⟩,
    ⟨by decide +kernel, _, _, Lifecycle.sweepStale_broken rfl (by decide +kernel) behind⟩⟩
  have there : (atWork.store.taskRow? stopAtWork.id).isSome := by decide +kernel
  have ran := record_retry (patient 11000000000000000 300000).queue ⟨0, Fleet.parts_pos⟩
    Fleet.promptTool "no route" rfl there (by decide +kernel)
  rw [beyond] at ran
  exact ⟨_, _, ran⟩

/-- The stop that is put off for more than ten thousand years blocks all claims. -/
theorem late_stop_blocks_claims :
    (triedAgain (patient 400000000000000 300000)).2.store.Blocked "task-1" := by
  have readable : (TaskRow.ofTask stopAtWork).Readable :=
    ⟨by decide, by decide +kernel, by decide +kernel, fun _ started => by
      cases started
      decide +kernel, nofun⟩
  have found : atWork.store.taskRow? stopAtWork.id = some (.ofTask stopAtWork) := rfl
  have delay : (patient 400000000000000 300000).queue.backoffFor stopAtWork.attempts
      ⟨0, Fleet.parts_pos⟩ = .ofMillis 320000000000000 := by decide +kernel
  obtain ⟨delayed, -⟩ := delays_within_calendar (patient 400000000000000 300000).queue
    ⟨0, Fleet.parts_pos⟩ (w := atWork) rfl found readable rfl "no route" Fleet.promptTool
    (by decide +kernel)
  rw [delay] at delayed
  exact delayed.blocks (by decide +kernel) (by decide +kernel) (by decide +kernel)

end Queue

end VmFleet
