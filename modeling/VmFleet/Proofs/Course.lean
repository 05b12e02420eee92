/-
The log of a use entry by entry: what an operation may be, given all entries
before it, and which of those the same worker made in the same run.
-/
import Mathlib.Data.List.Induction
import VmFleet.Proofs.Asking
import VmFleet.Proofs.Changes

namespace VmFleet

namespace Queue

open Lifecycle (Settings)

variable {queue : QueueConfig} {settings : Settings} {jitter : Jitter} {task : Task}
  {p : Provisioner} {w : World} {past rest : List Act}

theorem hand_of_no_claim (acts : List Act) (hand : Option Task)
    (none : ∀ a ∈ acts, ∀ task, a.deed ≠ .claim task) :
    acts.foldl Act.hand hand = hand ∨ acts.foldl Act.hand hand = .none := by
  induction acts generalizing hand with
  | nil => exact .inl rfl
  | cons a rest ih =>
    have first := none a List.mem_cons_self
    have rest := fun hand => ih hand fun b hb => none b (List.mem_cons_of_mem a hb)
    rw [List.foldl_cons, Act.hand]
    split
    · next deed => exact absurd deed (first _)
    · rcases rest .none with same | same <;> exact .inr same
    · exact rest hand

theorem runOnce_inHand (quiet : w.coming = [])
    (split : (runOnce queue settings jitter).acts p w = past ++ rest)
    (hand : inHand past = some task) :
    ∃ claimed, w.store.claimNext w.now = .ok (some task, claimed) := by
  have asks := (runOnce_along queue settings jitter).acts (p := p) quiet
  obtain ⟨next, shape, -⟩ := runOnce_claims queue settings jitter
  rw [shape] at split asks
  cases past with
  | nil => cases hand
  | cons first past =>
    have later : ∀ a ∈ past, ∀ task, a.deed ≠ .claim task := by
      intro a ha task deed
      obtain ⟨before, after, rfl⟩ := List.append_of_mem ha
      have asked := asks (first :: before) a (after ++ rest) (by rw [split]; simp)
      simp [Asks, deed] at asked
    rw [Program.acts_ask, List.cons_append] at split
    obtain ⟨rfl, -⟩ := List.cons.inj split
    have claimed : (w.perform p.tool .claim).1.toOption.join = some task := by
      rcases hand_of_no_claim past _ later with same | none
      · exact same.symm.trans hand
      · cases none.symm.trans hand
    rcases Effect.commit_cases (w := w) (r := w.store.claimNext w.now) rfl with
      ⟨found, t, ok, answer, -⟩ | ⟨e, -, answer, -⟩
    · have found : found = some task := by
        rwa [show (w.perform p.tool .claim).1 = .ok found from answer] at claimed
      exact ⟨t, found ▸ ok⟩
    · rw [show (w.perform p.tool .claim).1 = .error e from answer] at claimed
      cases claimed

end Queue

namespace Fleet

/-- The operations of a job, with what each was. -/
def Job.acts (job : Job) (tool : Provisioner) (now : Instant) (s : Store) : List Act :=
  match job with
  | .runOnce queue settings jitter =>
    (Queue.runOnce queue settings jitter).acts tool { store := s, now }
  | .sweep maxAge => (Lifecycle.sweepStale maxAge).acts tool { store := s, now }
  | .recover kind vmKey why =>
    (Lifecycle.recoverAborted kind vmKey why).acts tool { store := s, now }

/-- The store after the entries. -/
def state (entries : List Entry) : Store :=
  Event.last .empty (entries.map (·.event))

/-- The entries before belong to a run of a worker in that step, from its own operations on. -/
structure InRun (earlier : List Entry) (step : Step) (start : Store) (past : List Act) : Prop where
  split : ∃ before, start = state before ∧
    earlier = before ++ past.map fun a => ⟨step, start, a.event⟩
  hand : ∀ task, inHand past = some task → ∃ queue settings jitter now claimed,
    step.job? = some (.runOnce queue settings jitter, now) ∧
    start.claimNext now = .ok (some task, claimed)

/-- What may come after the entries. -/
inductive Follows (earlier : List Entry) : Entry → Prop
  | request {step : Step} {now : Instant} {s' : Store} (answers : Answers (state earlier) now s') :
      Follows earlier ⟨step, state earlier, ⟨state earlier, s', none⟩⟩
  /-- In a sweep or a recovery. -/
  | resolves {step : Step} {start : Store} {act : Act} (before : act.before = state earlier)
      (possible : act.Possible) (resolves : act.Resolves) :
      Follows earlier ⟨step, start, act.event⟩
  | works {step : Step} {start : Store} {past : List Act} {act : Act}
      (before : act.before = state earlier) (possible : act.Possible)
      (run : InRun earlier step start past) (asks : Asks past act)
      (runs : ∃ queue settings jitter now,
        step.job? = some (.runOnce queue settings jitter, now) ∧
        Queue.Runs settings start now act.event) :
      Follows earlier ⟨step, start, act.event⟩

variable {s : Store} {now : Instant} {steps : List Step} {earlier later : List Entry}
  {entry : Entry}

theorem Job.events_eq (job : Job) (tool : Provisioner) (now : Instant) (s : Store) :
    job.events tool now s = (job.acts tool now s).map Act.event := by
  cases job <;> exact Program.events_eq ..

theorem state_append (earlier : List Entry) (more : List Entry) :
    state (earlier ++ more) = Event.last (state earlier) (more.map (·.event)) := by
  rw [state, List.map_append, Event.last_append]
  rfl

@[simp] theorem state_concat (earlier : List Entry) (entry : Entry) :
    state (earlier ++ [entry]) = entry.event.after := by
  rw [state_append]
  rfl

theorem Job.follows {step : Step} {job : Job} {tool : Provisioner} {past rest : List Act}
    {act : Act}
    (ofStep : step.job? = some (job, now)) (distinct : (state earlier).VmsDistinct)
    (split : job.acts tool now (state earlier) = past ++ act :: rest) :
    Follows (earlier ++ past.map fun a => ⟨step, state earlier, a.event⟩)
      ⟨step, state earlier, act.event⟩ := by
  have linked := job.events_linked tool now (state earlier)
  have does := job.does tool now distinct
  rw [job.events_eq, split] at linked does
  have before : act.before =
      state (earlier ++ past.map fun a => ⟨step, state earlier, a.event⟩) := by
    rw [List.map_append] at linked
    rw [state_append, List.map_map]
    exact (Event.linked_append.mp linked).2.1
  cases job with
  | runOnce queue settings jitter =>
    refine .works before ?_ ⟨⟨earlier, rfl, rfl⟩, fun task hand => ?_⟩ ?_
      ⟨queue, settings, jitter, now, ofStep, does _ (by simp)⟩
    · exact (Program.along_possible _ []).acts rfl past act rest split
    · obtain ⟨claimed, claim⟩ := Queue.runOnce_inHand rfl split hand
      exact ⟨queue, settings, jitter, now, claimed, ofStep, claim⟩
    · exact (Queue.runOnce_along queue settings jitter).acts rfl past act rest split
  | sweep maxAge =>
    refine .resolves before ?_ ?_
    · exact (Program.along_possible _ []).acts rfl past act rest split
    · have along : (Lifecycle.sweepStale maxAge).Along (fun _ a => a.Resolves)
          (fun _ _ => True) [] := Lifecycle.sweepStale_along maxAge
      exact along.acts rfl past act rest split
  | recover kind vmKey why =>
    refine .resolves before ?_ ?_
    · exact (Program.along_possible _ []).acts rfl past act rest split
    · have along : (Lifecycle.recoverAborted kind vmKey why).Along (fun _ a => a.Resolves)
          (fun _ _ => True) [] := Lifecycle.recoverAborted_along kind vmKey why
      exact along.acts rfl past act rest split

theorem Step.follows {step : Step} {done rest : List Event} {e : Event}
    (distinct : (state earlier).VmsDistinct)
    (split : step.events (state earlier) = done ++ e :: rest) :
    Follows (earlier ++ done.map fun e => ⟨step, state earlier, e⟩) ⟨step, state earlier, e⟩ := by
  have ofJob : ∀ (job : Job) (tool : Provisioner) (now : Instant) (acts : List Act),
      step.job? = some (job, now) → acts <+: job.acts tool now (state earlier) →
      acts.map Act.event = done ++ e :: rest →
      Follows (earlier ++ done.map fun e => ⟨step, state earlier, e⟩) ⟨step, state earlier, e⟩ := by
    rintro job tool now acts ofStep ⟨more, whole⟩ split
    obtain ⟨past, mine, rfl, rfl, here⟩ := List.map_eq_append_iff.mp split
    obtain ⟨act, rest, rfl, rfl, -⟩ := List.map_eq_cons_iff.mp here
    rw [List.map_map]
    have here : job.acts tool now (state earlier) = past ++ act :: (rest ++ more) := by
      rw [← whole, List.append_assoc, List.cons_append]
    exact job.follows ofStep distinct here
  cases step with
  | request request now =>
    cases done with
    | nil =>
      obtain ⟨rfl, -⟩ := List.cons.inj split
      rw [List.map_nil, List.append_nil]
      exact .request (request.answers now distinct)
    | cons => simp [Step.events] at split
  | work job tool now =>
    exact ofJob job tool now _ rfl List.prefix_rfl ((job.events_eq ..).symm.trans split)
  | death job tool now operations =>
    refine ofJob job tool now _ rfl (List.take_prefix operations _) ?_
    rw [List.map_take, ← job.events_eq]
    exact split

theorem log_follows_from (earlier : List Entry) {done : List Entry}
    (distinct : (state earlier).VmsDistinct) (sound : (state earlier).SlotsSound)
    (split : log (state earlier) steps = done ++ entry :: later) :
    Follows (earlier ++ done) entry := by
  induction steps generalizing earlier done with
  | nil => simp [log] at split
  | cons step rest ih =>
    rw [log] at split
    have left : state (earlier ++ (step.events (state earlier)).map (⟨step, state earlier, ·⟩)) =
        step.after (state earlier) := by
      rw [state_append, List.map_map]
      simp [Step.after, Function.comp_def]
    obtain ⟨kept, -⟩ := log_changes [step] distinct sound
    -- The entry is one of a later step.
    have further : ∀ done, log (step.after (state earlier)) rest = done ++ entry :: later →
        Follows (earlier ++ ((step.events (state earlier)).map (⟨step, state earlier, ·⟩) ++ done))
          entry := by
      intro done split
      rw [← List.append_assoc]
      refine ih _ ?_ ?_ (by rwa [left])
      · rw [left]
        exact kept.1
      · rw [left]
        exact kept.2
    rcases List.append_eq_append_iff.mp split with ⟨done, rfl, others⟩ | ⟨mine, own, others⟩
    · exact further done others
    · cases mine with
      | nil =>
        have follows := further [] others.symm
        rw [List.append_nil] at own follows
        rwa [← own]
      | cons x mine =>
        obtain ⟨rfl, -⟩ := List.cons.inj others
        obtain ⟨events, rest, whole, rfl, here⟩ := List.map_eq_append_iff.mp own
        obtain ⟨e, rest, rfl, rfl, -⟩ := List.map_eq_cons_iff.mp here
        exact Step.follows distinct whole

/-- Every entry of a log is as may come after those before it. -/
theorem log_follows (split : log .empty steps = earlier ++ entry :: later) :
    Follows earlier entry :=
  log_follows_from [] Store.empty_vmsDistinct Store.empty_slotsSound split

theorem Follows.before_eq (h : Follows earlier entry) : entry.event.before = state earlier := by
  cases h with
  | request => rfl
  | resolves before | works before => exact before

/-- Every entry finds distinct VMs and changes the store as one of a use may. -/
theorem log_change (split : log .empty steps = earlier ++ entry :: later) :
    (state earlier).VmsDistinct ∧
      Store.Change entry.RecoversCreate entry.RunsDelete (state earlier) entry.event.after := by
  obtain ⟨-, all⟩ := log_changes steps Store.empty_vmsDistinct Store.empty_slotsSound
  obtain ⟨distinct, -, changes⟩ := all entry (by simp [split])
  rw [Entry.Changes] at changes
  rw [(log_follows split).before_eq] at distinct changes
  exact ⟨distinct, changes⟩

/-- What each entry keeps, given that it held after any of the entries before, holds after any
entries. -/
theorem log_induction {I : List Entry → Prop} (start : I [])
    (keeps : ∀ earlier entry later, log .empty steps = earlier ++ entry :: later →
      (∀ before past, earlier = before ++ past → I before) → I (earlier ++ [entry]))
    (split : log .empty steps = earlier ++ later) : I earlier := by
  have all : ∀ later, log .empty steps = earlier ++ later →
      ∀ before past, earlier = before ++ past → I before := by
    clear split
    induction earlier using List.reverseRecOn with
    | nil =>
      intro _ _ before past split
      rw [(List.append_eq_nil_iff.mp split.symm).1]
      exact start
    | append_singleton earlier entry ih =>
      intro later split before past whole
      rw [List.append_assoc, List.singleton_append] at split
      have old := ih _ split
      rcases List.append_eq_append_iff.mp whole with ⟨more, rfl, single⟩ | ⟨more, rfl, -⟩
      · rcases List.singleton_eq_append_iff.mp single with ⟨rfl, -⟩ | ⟨rfl, -⟩
        · rw [List.append_nil]
          exact old earlier [] (List.append_nil _).symm
        · exact keeps earlier entry later split old
      · exact old before more rfl
  exact all later split earlier [] (List.append_nil _).symm

end Fleet

end VmFleet
