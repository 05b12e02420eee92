/-
Any number of workers and janitors at one store at once, and clients beside
them. Whose operation comes next is up to a schedule, so others may act between
any two operations of one, also while it waits for the tool. Whoever dies gets
no further turn.
-/
import Mathlib.Data.List.Induction
import VmFleet.Proofs.Asking
import VmFleet.Proofs.Changes

namespace VmFleet

/-- What is left of a program. -/
structure Thread where
  {α : Type}
  rest : Program α

namespace Thread

/-- Carries out the next operation; `none` if there is none. -/
def next? (thread : Thread) (tool : Provisioner) (now : Instant) (s : Store) :
    Option (Act × Thread) :=
  match thread.rest with
  | .ask op next =>
    let (answer, w) := ({ store := s, now } : World).perform tool.tool op
    some (⟨op.deed answer, s, w.store⟩, ⟨next answer⟩)
  | .pure _ | .crash _ => none

def ofJob : Fleet.Job → Thread
  | .runOnce queue settings jitter => ⟨Queue.runOnce queue settings jitter⟩
  | .sweep maxAge => ⟨Lifecycle.sweepStale maxAge⟩
  | .recover kind vmKey why => ⟨Lifecycle.recoverAborted kind vmKey why⟩

/-- Whatever others write, each operation that is left satisfies `G` with those before it. -/
def Along (G : List Act → Act → Prop) (thread : Thread) (past : List Act) : Prop :=
  thread.rest.Along G (fun _ _ => True) past

theorem ofJob_along (job : Fleet.Job) : (ofJob job).Along Asks [] := by
  cases job with
  | runOnce queue settings jitter => exact Queue.runOnce_along queue settings jitter
  | sweep maxAge =>
    exact (Lifecycle.sweepStale_along maxAge).imp (fun past _ h => h.asks past) fun _ _ h => h
  | recover kind vmKey why =>
    exact (Lifecycle.recoverAborted_along kind vmKey why).imp (fun past _ h => h.asks past)
      fun _ _ h => h

variable {thread thread' : Thread} {tool : Provisioner} {now : Instant} {s : Store} {act : Act}
  {G : List Act → Act → Prop} {past : List Act}

theorem Along.next? (h : thread.Along G past)
    (next : thread.next? tool now s = some (act, thread')) :
    act.before = s ∧ act.Possible ∧ G past act ∧ thread'.Along G (past ++ [act]) := by
  obtain ⟨program⟩ := thread
  cases program with
  | ask op rest =>
    obtain ⟨rfl, rfl⟩ := Prod.mk.inj (Option.some.inj next)
    have effect := Effect.of_perform tool (w := { store := s, now }) op rfl
    obtain ⟨shown, left⟩ := h _ _ _ effect
    exact ⟨rfl, ⟨_, op, _, rfl, effect⟩, shown, left⟩
  | pure | crash => cases next

end Thread

namespace Crew

inductive Turn where
  | request (request : Fleet.Request) (now : Instant)
  /-- The next operation of a member; if it is a call, the tool's answer to it. -/
  | operation (member : Nat) (tool : Provisioner) (now : Instant)

/-- What was done in a turn. -/
inductive Entry where
  | request (before after : Store)
  | operation (member : Nat) (act : Act)

def Entry.event : Entry → Event
  | .request before after => ⟨before, after, none⟩
  | .operation _ act => act.event

/-- What is done in the turns, in order. A turn of a member that has come to its end is left out. -/
def log (s : Store) (members : List Thread) : List Turn → List Entry
  | [] => []
  | .request request now :: turns =>
    .request s (request.apply now s) :: log (request.apply now s) members turns
  | .operation member tool now :: turns =>
    match members[member]?.bind (·.next? tool now s) with
    | some (act, thread) =>
      .operation member act :: log act.after (members.set member thread) turns
    | none => log s members turns

/-- What a crew for these jobs does at a store that is empty at first. -/
def work (jobs : List Fleet.Job) (turns : List Turn) : List Entry :=
  log .empty (jobs.map .ofJob) turns

/-- The store after the entries. -/
def state (entries : List Entry) : Store :=
  Event.last .empty (entries.map (·.event))

/-- A member's own operations. -/
def own (member : Nat) (entries : List Entry) : List Act :=
  entries.filterMap fun
    | .operation other act => if other = member then some act else none
    | .request _ _ => none

/-- What may come after the entries. -/
inductive Follows (earlier : List Entry) : Entry → Prop
  | request (request : Fleet.Request) (now : Instant) :
      Follows earlier (.request (state earlier) (request.apply now (state earlier)))
  | operation {member : Nat} {act : Act} (before : act.before = state earlier)
      (possible : act.Possible) (asks : Asks (own member earlier) act) :
      Follows earlier (.operation member act)

/-- A tool that finds no way to the host. -/
def lostTool : Provisioner where
  reply _ _ _ := (some .zero, .answered (.error (.unreachable "no route")))

variable {s : Store} {members : List Thread} {turns : List Turn} {earlier later : List Entry}
  {entry : Entry}

@[simp] theorem state_concat (earlier : List Entry) (entry : Entry) :
    state (earlier ++ [entry]) = entry.event.after := by
  simp [state, Event.last]

@[simp] theorem own_concat_operation (member other : Nat) (act : Act) (earlier : List Entry) :
    own member (earlier ++ [.operation other act]) =
      own member earlier ++ if other = member then [act] else [] := by
  by_cases same : other = member <;> simp [own, same]

@[simp] theorem own_concat_request (member : Nat) (before after : Store) (earlier : List Entry) :
    own member (earlier ++ [.request before after]) = own member earlier := by
  simp [own]

/-- What may come after the entries, where each operation satisfies `G` with those that its member
carried out before it. -/
inductive Continues (G : List Act → Act → Prop) (earlier : List Entry) : Entry → Prop
  | request (request : Fleet.Request) (now : Instant) :
      Continues G earlier (.request (state earlier) (request.apply now (state earlier)))
  | operation {member : Nat} {act : Act} (before : act.before = state earlier)
      (possible : act.Possible) (shown : G (own member earlier) act) :
      Continues G earlier (.operation member act)

theorem log_continues {G : List Act → Act → Prop} (earlier : List Entry)
    (each : ∀ member (thread : Thread), members[member]? = some thread →
      thread.Along G (own member earlier))
    {done : List Entry} (split : log (state earlier) members turns = done ++ entry :: later) :
    Continues G (earlier ++ done) entry := by
  induction turns generalizing earlier members done with
  | nil => simp [log] at split
  | cons turn turns ih =>
    -- The turn's own entry comes first, or it is one of those that were done before.
    have first : ∀ {x : Entry} {members'}, Continues G earlier x →
        (∀ member (thread : Thread), members'[member]? = some thread →
          thread.Along G (own member (earlier ++ [x]))) →
        x :: log (state (earlier ++ [x])) members' turns = done ++ entry :: later →
        Continues G (earlier ++ done) entry := by
      intro x members' continues each split
      cases done with
      | nil =>
        obtain ⟨rfl, -⟩ := List.cons.inj split
        rwa [List.append_nil]
      | cons _ done =>
        obtain ⟨rfl, others⟩ := List.cons.inj split
        rw [List.append_cons]
        exact ih _ each others
    cases turn with
    | request request now =>
      rw [log] at split
      refine first (.request request now) (fun member thread there => ?_)
        (by rwa [state_concat])
      rw [own_concat_request]
      exact each member thread there
    | operation member tool now =>
      rw [log] at split
      split at split
      · next act thread' next =>
        obtain ⟨thread, there, next⟩ := Option.bind_eq_some_iff.mp next
        obtain ⟨before, possible, shown, along⟩ := (each member thread there).next? next
        refine first (.operation before possible shown) (fun other thread'' there' => ?_)
          (by rwa [state_concat])
        rw [own_concat_operation]
        by_cases same : member = other
        · subst same
          rw [List.getElem?_set_self (List.getElem?_eq_some_iff.mp there).choose] at there'
          cases there'
          rwa [if_pos rfl]
        · rw [List.getElem?_set_ne same] at there'
          rw [if_neg same, List.append_nil]
          exact each other thread'' there'
      · exact ih _ each split

/-- What every job's operations satisfy is satisfied by all operations of a crew. -/
theorem work_continues {G : List Act → Act → Prop} {jobs : List Fleet.Job}
    (each : ∀ job : Fleet.Job, (Thread.ofJob job).Along G [])
    (split : work jobs turns = earlier ++ entry :: later) : Continues G earlier entry := by
  refine log_continues [] (fun member thread there => ?_) split
  rw [List.getElem?_map] at there
  obtain ⟨job, -, rfl⟩ := Option.map_eq_some_iff.mp there
  exact each job

theorem work_follows {jobs : List Fleet.Job}
    (split : work jobs turns = earlier ++ entry :: later) : Follows earlier entry := by
  cases work_continues Thread.ofJob_along split with
  | request request now => exact .request request now
  | operation before possible asks => exact .operation before possible asks

/-- What every entry keeps holds after any entries. -/
theorem work_invariant {jobs : List Fleet.Job} {I : List Entry → Prop} (start : I [])
    (keeps : ∀ earlier entry, Follows earlier entry → I earlier → I (earlier ++ [entry]))
    (split : work jobs turns = earlier ++ later) : I earlier := by
  induction earlier using List.reverseRecOn generalizing later with
  | nil => exact start
  | append_singleton earlier entry ih =>
    rw [List.append_assoc] at split
    exact keeps earlier entry (work_follows split) (ih split)

theorem Follows.before_eq (h : Follows earlier entry) : entry.event.before = state earlier := by
  cases h with
  | request => rfl
  | operation before => exact before

theorem Follows.vmsDistinct (h : Follows earlier entry) (distinct : (state earlier).VmsDistinct) :
    entry.event.after.VmsDistinct := by
  cases h with
  | request request now =>
    have change : Store.Change (fun _ => False) (fun _ => False) (state earlier)
        (request.apply now (state earlier)) := (request.answers now distinct).change
    exact change.vmsDistinct distinct
  | @operation member act before possible asks =>
    obtain ⟨_, op, answer, -, effect⟩ := possible
    rw [← before] at distinct
    show act.after.VmsDistinct
    rcases effect.vms_cases with ⟨vms, next⟩ | ⟨_, _, _, _, _, -, found, -, key, id, -, same⟩ |
      ⟨_, -, same⟩
    · exact distinct.congr vms next
    · rw [same]
      exact distinct.setVm found key id
    · rw [same]
      exact distinct.removeVm

theorem work_distinct {jobs : List Fleet.Job} (split : work jobs turns = earlier ++ later) :
    (state earlier).VmsDistinct := by
  refine work_invariant (I := fun entries => (state entries).VmsDistinct) Store.empty_vmsDistinct
    (fun earlier entry follows distinct => ?_) split
  rw [state_concat]
  exact follows.vmsDistinct distinct

/-- What becomes of the VM of a key: its status stays, it is changed as a member asks, or the VM is
removed by one who has taken it into the transient status of a delete task. -/
theorem Follows.vm?_cases {key : Int} {old : Vm} (h : Follows earlier entry)
    (distinct : (state earlier).VmsDistinct) (found : entry.event.before.vm? key = some old) :
    (∃ vm, entry.event.after.vm? key = some vm ∧ (vm.status = old.status ∨
      ∃ member act expected, entry = .operation member act ∧
        Shift (own member earlier) key expected vm.status ∧ old.status ∈ expected)) ∨
    (entry.event.after.vm? key = none ∧ ∃ member act task, entry = .operation member act ∧
      inHand (own member earlier) = some task ∧ task.kind = .delete ∧ task.vmKey = key ∧
      ∃ a ∈ own member earlier, a.Enters task) := by
  rw [h.before_eq] at found
  cases h with
  | request request now =>
    obtain ⟨vm, there, status⟩ := (request.answers now distinct).vm?_kept distinct found
    exact .inl ⟨vm, there, .inl status⟩
  | @operation member act before possible asks =>
    rw [← before] at found
    rcases possible.vm?_cases key with same | ⟨expected, old', vm, deed, found', source, there⟩ |
      ⟨deed, gone⟩
    · exact .inl ⟨old, same.trans found, .inl rfl⟩
    · cases found.symm.trans found'
      rw [Asks, deed] at asks
      exact .inl ⟨vm, there, .inr ⟨member, act, expected, rfl, asks, source⟩⟩
    · rw [Asks, deed] at asks
      obtain ⟨task, hand, kind, vmKey, entered⟩ := asks
      exact .inr ⟨gone, member, act, task, rfl, hand, kind, vmKey, entered⟩

end Crew

end VmFleet
