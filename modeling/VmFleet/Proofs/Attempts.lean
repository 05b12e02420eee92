/-
How often tasks are attempted where any number of workers and janitors are at
work. An attempt begins with the claim of its task, which counts it. A worker
puts a task back into the queue only if the attempt that it has in hand was not
the last, and nobody else claims the task meanwhile.
-/
import VmFleet.Proofs.Outcomes

namespace VmFleet

/-! ## What is put back into the queue -/

/-- A worker puts back into the queue only a task in hand with an attempt left. -/
def Spares (past : List Act) (a : Act) : Prop :=
  ∀ id, a.deed = .record id .pending →
    ∃ task, inHand past = some task ∧ task.attempts < task.maxAttempts

theorem Spares.of_silent {past : List Act} {a : Act}
    (silent : ∀ id status, a.deed ≠ .record id status) : Spares past a :=
  fun id records => absurd records (silent id _)

theorem Serves.spares {task : Task} {past : List Act} {a : Act} (h : Serves task past a) :
    Spares past a := by
  refine .of_silent fun id status records => ?_
  have kept := h.2
  simp only [Act.hand, records] at kept
  cases kept

theorem Act.Resolves.spares {a : Act} (h : a.Resolves) (past : List Act) : Spares past a := by
  refine .of_silent fun id status records => ?_
  cases h <;> cases records

namespace Queue

open Lifecycle (Settings)

variable {queue : QueueConfig} {settings : Settings} {jitter : Jitter} {task : Task}
  {past : List Act}

theorem record_spares (outcome : Outcome) (hand : inHand past = some task) :
    (record queue jitter task outcome).Along Spares (fun _ _ => True) past := by
  have ends : ∀ {op : Operation (Except Error Unit)} {status : TaskStatus},
      (∀ answer id, op.deed answer ≠ .record id .pending) →
      (Program.perform op >>= fun _ => pure status).Along Spares (fun _ _ => True) past :=
    fun other => .perform fun answer _ _ _ => ⟨fun id records => absurd records (other answer id),
      .pure trivial⟩
  cases outcome with
  | done => exact ends fun _ _ records => by cases records
  | skipped why => exact ends fun _ _ records => by cases records
  | failed why => exact ends fun _ _ records => by cases records
  | retry why =>
    simp only [record]
    split
    · exact ends fun _ _ records => by cases records
    · next left =>
      have left : task.attempts < task.maxAttempts := by
        simpa [TaskOf.isFinalAttempt] using left
      refine .perform fun now s s' effect => ⟨.of_silent (fun _ _ records => by cases records), ?_⟩
      split
      · trivial
      · have kept : inHand (past ++ [⟨.aside, s, s'⟩]) = some task := by
          rw [inHand_concat, hand]
          rfl
        exact .perform fun _ _ _ _ => ⟨fun _ _ => ⟨task, kept, left⟩, .pure trivial⟩

theorem runTask_spares (hand : inHand past = some task) (uncreated : Uncreated past) :
    (runTask queue settings jitter task).Along Spares (fun _ _ => True) past := by
  refine .perform fun found s s' effect => ⟨.of_silent (fun _ _ records => by cases records), ?_⟩
  refine .perform fun now t t' effect => ⟨.of_silent (fun _ _ records => by cases records), ?_⟩
  have still : inHand ((past ++ [⟨Operation.deed (.findVm task.vmKey) found, s, s'⟩]) ++
      [⟨Operation.now.deed now, t, t'⟩]) = some task := by
    simp only [inHand_concat, hand]
    rfl
  have executes : (execute queue settings (.of task (now.after queue.softLimit))
      (now.after queue.hardLimit) task).Along (Serves task)
        (fun past _ => inHand past = some task) _ :=
    execute_along _ _ still ((uncreated.silent rfl).silent rfl) fun past outcome hand => hand
  refine .bind (executes.imp (fun _ _ serves => serves.spares) fun past outcome hand => ?_)
  exact .bind ((record_spares outcome hand).imp (fun _ _ h => h) fun _ _ _ => .pure trivial)

theorem runOnce_spares (queue : QueueConfig) (settings : Settings) (jitter : Jitter) :
    (runOnce queue settings jitter).Along Spares (fun _ _ => True) [] := by
  refine .perform fun answer s s' effect => ⟨.of_silent (fun _ _ records => by cases records), ?_⟩
  cases answer with
  | error e => exact .pure trivial
  | ok found =>
    cases found with
    | none => exact .pure trivial
    | some task =>
      have uncreated : Uncreated [] := fun a ha => absurd ha List.not_mem_nil
      exact .bind ((runTask_spares rfl (uncreated.silent rfl)).imp (fun _ _ h => h)
        fun _ _ _ => .pure trivial)

end Queue

theorem Thread.ofJob_spares (job : Fleet.Job) : (ofJob job).Along Spares [] := by
  cases job with
  | runOnce queue settings jitter => exact Queue.runOnce_spares queue settings jitter
  | sweep maxAge =>
    exact (Lifecycle.sweepStale_along maxAge).imp (fun past _ h => h.spares past) fun _ _ h => h
  | recover kind vmKey why =>
    exact (Lifecycle.recoverAborted_along kind vmKey why).imp (fun past _ h => h.spares past)
      fun _ _ h => h

/-! ## Counts -/

theorem Deed.Treats.counts {deed : Deed} {row row' : TaskRow} (h : deed.Treats row row') :
    (row'.attempts = row.attempts ∧ row'.maxAttempts = row.maxAttempts ∧
      (row'.status = .running → row' = row)) ∨
    ∃ task now, deed = .claim (some task) ∧ task.id = row.id ∧ row.status = .pending ∧
      row' = Store.claimed row now := by
  cases h with
  | same => exact .inl ⟨rfl, rfl, fun _ => rfl⟩
  | claimed id pending => exact .inr ⟨_, _, rfl, id, pending, rfl⟩
  | ended final =>
    refine .inl ⟨rfl, rfl, fun running => ?_⟩
    rcases final with rfl | rfl <;> cases running
  | requeued => exact .inl ⟨rfl, rfl, fun running => by cases running⟩
  | abandoned => exact .inl ⟨rfl, rfl, fun running => by cases running⟩

namespace Crew

/-- The entry is a claim of the task. -/
def Entry.isClaimOf (id : String) : Entry → Bool
  | .request _ _ => false
  | .operation _ act =>
    match act.deed with
    | .claim (some task) => task.id == id
    | _ => false

/-- How often workers have claimed the task. -/
def claims (entries : List Entry) (id : String) : Nat :=
  entries.countP (·.isClaimOf id)

/-- The attempts of tasks are counted right and bounded, and the workers at work know the counts. -/
structure Counted (earlier : List Entry) : Prop where
  orderly : Orderly earlier
  bounded : ∀ id row, (state earlier).taskRow? id = some row →
    row.attempts ≤ row.maxAttempts ∧ (row.status = .pending → row.attempts < row.maxAttempts)
  counted : ∀ id, claims earlier id ≤ ((state earlier).taskRow? id).elim 0 (·.attempts)
  known : ∀ member task, inHand (own member earlier) = some task →
    ∃ row, (state earlier).taskRow? task.id = some row ∧ row.attempts = task.attempts ∧
      row.maxAttempts = task.maxAttempts
  manned : ∀ id row, (state earlier).taskRow? id = some row → row.status = .running →
    ∃ member, HoldsTask earlier member id

variable {earlier later : List Entry} {entry : Entry} {id : String} {row row' : TaskRow}
  {member : Nat} {act : Act}

theorem Entry.isClaimOf_iff : entry.isClaimOf id = true ↔ entry.Claims id := by
  constructor
  · intro claims
    cases entry with
    | request => cases claims
    | operation member act =>
      simp only [isClaimOf] at claims
      split at claims
      · next task deed => exact ⟨member, act, task, rfl, deed, beq_iff_eq.mp claims⟩
      · cases claims
  · rintro ⟨member, act, task, rfl, deed, rfl⟩
    simp only [isClaimOf, deed, beq_self_eq_true]

/-- What becomes of a row's counts: they stay, or the task is claimed. -/
theorem Follows.counts (h : Follows earlier entry) (orderly : Orderly earlier)
    (found : (state earlier).taskRow? id = some row) :
    ∃ row', entry.event.after.taskRow? id = some row' ∧
      ((row'.attempts = row.attempts ∧ row'.maxAttempts = row.maxAttempts ∧
        (row'.status = .running → row' = row) ∧ ¬ entry.Claims id) ∨
      entry.Claims id ∧ row.status = .pending ∧ ∃ now, row' = Store.claimed row now) := by
  by_cases claims : entry.Claims id
  · obtain ⟨row₀, now, found₀, pending, there⟩ := h.claims orderly claims
    cases found.symm.trans found₀
    exact ⟨_, there, .inr ⟨claims, pending, now, rfl⟩⟩
  · obtain ⟨row', there, rfl | ⟨member, act, deed, rfl, isDeed, treats, -⟩⟩ :=
      h.taskRow?_kept orderly found
    · exact ⟨row', there, .inl ⟨rfl, rfl, fun _ => rfl, claims⟩⟩
    · rcases treats.counts with ⟨attempts, most, running⟩ | ⟨task, now, rfl, same, -, -⟩
      · exact ⟨row', there, .inl ⟨attempts, most, running, claims⟩⟩
      · rw [← (Store.taskRow?_mem found).2] at claims
        exact absurd ⟨member, act, task, rfl, isDeed, same⟩ claims

theorem HoldsTask.stays (holds : HoldsTask earlier member id) (follows : Follows earlier entry)
    (unrecorded : ∀ act status, entry = .operation member act → act.deed ≠ .record id status) :
    HoldsTask (earlier ++ [entry]) member id := by
  obtain ⟨task, hand, rfl⟩ := holds
  refine ⟨task, ?_, rfl⟩
  cases follows with
  | request => rwa [own_concat_request]
  | @operation other act before possible asks =>
    rw [own_concat_operation]
    by_cases mine : other = member
    · subst mine
      rw [if_pos rfl, inHand_concat, hand, Act.hand]
      split
      · next claimed deed =>
        have first : own other earlier = [] := by simpa only [Asks, deed] using asks
        rw [first] at hand
        cases hand
      · next id status deed =>
        obtain ⟨task', hand', same⟩ := Orderly.recorder asks deed
        cases hand.symm.trans hand'
        exact absurd (same ▸ deed) (unrecorded act status rfl)
      · rfl
    · rwa [if_neg mine, List.append_nil]

namespace Counted

theorem bounded_concat (h : Counted earlier) (follows : Follows earlier entry)
    (spares : ∀ member act, entry = .operation member act → Spares (own member earlier) act)
    (there : entry.event.after.taskRow? id = some row') :
    row'.attempts ≤ row'.maxAttempts ∧
      (row'.status = .pending → row'.attempts < row'.maxAttempts) := by
  cases found : (state earlier).taskRow? id with
  | none =>
    obtain ⟨-, -, left⟩ := follows.taskRow?_new h.orderly found there
    exact ⟨Nat.le_of_lt left, fun _ => left⟩
  | some row =>
    obtain ⟨most, left⟩ := h.bounded id row found
    obtain ⟨row'', there', change⟩ := follows.taskRow?_kept h.orderly found
    cases there.symm.trans there'
    rcases change with rfl | ⟨member, act, deed, rfl, isDeed, treats, asks⟩
    · exact ⟨most, left⟩
    · cases treats with
      | same => exact ⟨most, left⟩
      | claimed _ pending => exact ⟨left pending, fun waits => by cases waits⟩
      | ended final =>
        refine ⟨most, fun waits => ?_⟩
        rcases final with rfl | rfl <;> cases waits
      | requeued =>
        -- The worker has the task in hand, and so it knows the count of the row.
        obtain ⟨task, hand, spare⟩ := spares member act rfl _ isDeed
        obtain ⟨task', hand', same⟩ := Orderly.recorder asks isDeed
        cases hand.symm.trans hand'
        obtain ⟨row', found', attempts, most'⟩ := h.known member task hand
        rw [same, (Store.taskRow?_mem found).2, found] at found'
        cases found'
        have left : row.attempts < row.maxAttempts := by omega
        exact ⟨most, fun _ => left⟩
      | abandoned => exact ⟨most, fun waits => by cases waits⟩

theorem counted_concat (h : Counted earlier) (follows : Follows earlier entry) (id : String) :
    claims (earlier ++ [entry]) id ≤ (entry.event.after.taskRow? id).elim 0 (·.attempts) := by
  have before := h.counted id
  have more : claims (earlier ++ [entry]) id =
      claims earlier id + if entry.isClaimOf id then 1 else 0 := by
    simp [claims, List.countP_append, List.countP_cons]
  rw [more]
  cases found : (state earlier).taskRow? id with
  | none =>
    have unclaimed : ¬ entry.isClaimOf id = true := by
      intro claims
      obtain ⟨_, _, found', -⟩ := follows.claims h.orderly (Entry.isClaimOf_iff.mp claims)
      cases found.symm.trans found'
    rw [found, Option.elim_none] at before
    rw [if_neg unclaimed]
    omega
  | some row =>
    rw [found, Option.elim_some] at before
    obtain ⟨row', there, ⟨attempts, -, -, unclaimed⟩ | ⟨claims, -, now, rfl⟩⟩ :=
      follows.counts h.orderly found
    · rw [there, Option.elim_some, if_neg fun claims => unclaimed (Entry.isClaimOf_iff.mp claims)]
      omega
    · rw [there, Option.elim_some, if_pos (Entry.isClaimOf_iff.mpr claims)]
      exact Nat.succ_le_succ before

theorem known_concat (h : Counted earlier) (follows : Follows earlier entry) {task : Task}
    (hand : inHand (own member (earlier ++ [entry])) = some task) :
    ∃ row, entry.event.after.taskRow? task.id = some row ∧ row.attempts = task.attempts ∧
      row.maxAttempts = task.maxAttempts := by
  rcases inHand_cases hand with ⟨before, -⟩ | ⟨act, rfl, deed⟩
  · obtain ⟨row, found, attempts, most⟩ := h.known member task before
    obtain ⟨row', there, ⟨attempts', most', -⟩ | ⟨claims, -⟩⟩ := follows.counts h.orderly found
    · exact ⟨row', there, attempts'.trans attempts, most'.trans most⟩
    · exact absurd ⟨task, before, rfl⟩ (h.orderly.unheld_of_claims follows claims)
  · cases follows with
    | operation before possible asks =>
      obtain ⟨_, op, answer, same, effect⟩ := possible
      rw [before] at effect
      obtain ⟨now, claim⟩ := effect.claimNext (same.symm.trans deed)
      obtain ⟨row, there, -, read⟩ := Store.claimNext_row h.orderly.distinct claim
      obtain ⟨_, _, _, _, rfl⟩ := TaskRow.task_eq read
      exact ⟨row, there, rfl, rfl⟩

theorem manned_concat (h : Counted earlier) (follows : Follows earlier entry)
    (there : entry.event.after.taskRow? id = some row') (running : row'.status = .running) :
    ∃ member, HoldsTask (earlier ++ [entry]) member id := by
  by_cases claims : entry.Claims id
  · obtain ⟨member, act, task, rfl, deed, same⟩ := claims
    refine ⟨member, task, ?_, same⟩
    rw [own_concat_operation, if_pos rfl, inHand_concat, Act.hand, deed]
  cases found : (state earlier).taskRow? id with
  | none =>
    have waits := (follows.taskRow?_new h.orderly found there).1
    cases running.symm.trans waits
  | some row =>
    obtain ⟨row'', there', ⟨-, -, same, -⟩ | ⟨claimed, -⟩⟩ := follows.counts h.orderly found
    · cases there.symm.trans there'
      rw [same running] at there running
      obtain ⟨member, holds⟩ := h.manned id row found running
      refine ⟨member, holds.stays follows fun act status eq records => ?_⟩
      subst eq
      cases follows with
      | operation before possible asks =>
        obtain ⟨_, op, answer, deed, effect⟩ := possible
        rw [before] at effect
        obtain ⟨ended, row₁, there₁, recorded⟩ := effect.recorded (deed.symm.trans records) found
        cases there.symm.trans there₁
        exact ended (recorded.symm.trans running)
    · exact absurd claimed claims

theorem concat (h : Counted earlier) (follows : Follows earlier entry)
    (spares : ∀ member act, entry = .operation member act → Spares (own member earlier) act) :
    Counted (earlier ++ [entry]) where
  orderly := h.orderly.concat follows
  bounded id row found := by
    rw [state_concat] at found
    exact h.bounded_concat follows spares found
  counted id := by
    rw [state_concat]
    exact h.counted_concat follows id
  known member task hand := by
    rw [state_concat]
    exact h.known_concat follows hand
  manned id row found running := by
    rw [state_concat] at found
    exact h.manned_concat follows found running

theorem empty : Counted [] where
  orderly := .empty
  bounded id row found := by cases found
  counted id := Nat.zero_le _
  known member task hand := by cases hand
  manned id row found := by cases found

end Counted

theorem work_counted {jobs : List Fleet.Job} {turns : List Turn}
    (split : work jobs turns = earlier ++ later) : Counted earlier := by
  induction earlier using List.reverseRecOn generalizing later with
  | nil => exact .empty
  | append_singleton earlier entry ih =>
    rw [List.append_assoc] at split
    refine (ih split).concat (work_follows split) fun member act eq => ?_
    subst eq
    cases work_continues Thread.ofJob_spares split with
    | operation before possible spares => exact spares

end Crew

end VmFleet
