/-
A fleet in daily use, in which nobody dies: after every request, run and sweep no
VM is between two statuses, and records and slots agree on every address. So do
the addresses that the tool is told while a run goes on. No task is being worked
on either, unless the last run was to put one off beyond the calendar.
-/
import VmFleet.Config.Check
import VmFleet.Proofs.Coherence
import VmFleet.Proofs.Overruns

namespace VmFleet

namespace Store

/-- Nobody is at work: every VM fits and no task is being worked on. -/
structure AtRest (s : Store) : Prop where
  coherent : s.Coherent
  idle : s.Idle

theorem empty_atRest : Store.empty.AtRest :=
  ⟨empty_coherent, fun _ h => absurd h List.not_mem_nil⟩

theorem Idle.append {s : Store} {row : TaskRow} (h : s.Idle) (waits : row.status = .pending) :
    ∀ x ∈ s.tasks ++ [row], x.status ≠ .running := by
  intro x hx
  rcases List.mem_append.mp hx with hx | hx
  · exact h x hx
  · rw [List.mem_singleton.mp hx, waits]
    decide

end Store

/-! ## Runs of workers -/

namespace Lifecycle

variable {settings : Settings} {attempt : Attempt} {task : Task} {claimed s : Store} {vm : Vm}
  {slots : List Slot} {outcome : Outcome}

theorem Handled.coherent (h : Handled settings attempt task claimed outcome s)
    (coherent : claimed.Coherent) : s.Coherent ∧ s.tasks = claimed.tasks := by
  cases h with
  | refused => exact ⟨coherent, rfl⟩
  | ended ended => exact ⟨ended.coherent coherent, ended.tasks⟩

end Lifecycle

namespace Queue

open Lifecycle (Settings)

variable {queue : QueueConfig} {settings : Settings} {jitter : Jitter} {p : Provisioner}
  {task : Task} {start claimed s s' : Store} {now : Instant}

/-- A claim puts a worker on the rows of the claimed task and changes nothing else. -/
theorem claim_others (claim : start.claimNext now = .ok (some task, claimed)) (idle : start.Idle) :
    (∃ tasks, claimed = { start with tasks := tasks }) ∧
      ∀ row ∈ claimed.tasks, row.id ≠ task.id → row.status ≠ .running := by
  rcases Store.claimNext_ok claim with ⟨none, -⟩ | ⟨row, _, -, -, same, id, -, -, rfl⟩
  · cases none
  · cases same
    refine ⟨⟨_, rfl⟩, fun x hx other => ?_⟩
    obtain ⟨y, hy, rfl⟩ := Store.mem_updateWhere.mp hx
    split at other
    · next hit => exact absurd ((beq_iff_eq.mp hit).trans id.symm) other
    · next miss =>
      rw [if_neg miss]
      exact idle y hy

theorem Recorded.coherent (h : Recorded task s s') (coherent : s.Coherent) : s'.Coherent := by
  cases h with
  | unknown => exact coherent
  | ended | requeued => exact coherent.withTasks

/-- Once the task is recorded, no worker is on a row of it. -/
theorem Recorded.idle (h : Recorded task s s')
    (others : ∀ row ∈ s.tasks, row.id ≠ task.id → row.status ≠ .running) : s'.Idle := by
  have written : ∀ f : TaskRow → TaskRow, (∀ row, (f row).status ≠ .running) →
      (s.setTask task.id f).Idle := by
    intro f stopped row hrow
    obtain ⟨y, hy, rfl⟩ := Store.mem_updateWhere.mp hrow
    split
    · exact stopped y
    · next miss => exact others y hy (by simpa using miss)
  cases h with
  | unknown gone =>
    intro row hrow
    have other := List.find?_eq_none.mp gone row hrow
    exact others row hrow (by simpa using other)
  | ended final =>
    exact written _ fun row => by rcases final with rfl | rfl <;> simp [Store.finished]
  | requeued => exact written _ fun row => by simp

theorem Worked.atRest (h : Worked settings task claimed s) (coherent : claimed.Coherent)
    (others : ∀ row ∈ claimed.tasks, row.id ≠ task.id → row.status ≠ .running) : s.AtRest := by
  cases h with
  | handled handled recorded =>
    obtain ⟨kept, tasks⟩ := handled.coherent coherent
    exact ⟨recorded.coherent kept, recorded.idle (tasks ▸ others)⟩
  | aborted entered holding recovered recorded =>
    have tasks := recovered.tasks
    exact ⟨recorded.coherent (recovered.coherent entered holding coherent),
      recorded.idle (tasks ▸ others)⟩

theorem Ran.atRest (h : Ran settings start now s) (rest : start.AtRest) : s.AtRest := by
  cases h with
  | idle => exact rest
  | worked claim worked =>
    obtain ⟨⟨tasks, rfl⟩, others⟩ := claim_others claim rest.idle
    exact worked.atRest rest.coherent.withTasks others

/-- A worker that broke down has left the VMs in order and its task running. -/
theorem Overruns.leaves {w : World} {why : String}
    (late : Overruns queue settings jitter p start now)
    (run : (runOnce queue settings jitter).run p.tool { store := start, now } = (.crashed why, w))
    (rest : start.AtRest) : w.store.Coherent ∧ ¬ w.store.Idle := by
  obtain ⟨_, _, broken, task, claimed, attempt, cause, claim, handled⟩ := late.run
  obtain ⟨-, rfl⟩ := Prod.mk.inj (run.symm.trans broken)
  obtain ⟨⟨tasks, rfl⟩, -⟩ := claim_others claim rest.idle
  obtain ⟨coherent, same⟩ := handled.coherent rest.coherent.withTasks
  exact ⟨coherent, fun idle =>
    Store.not_idle_of_claimNext claim fun row hrow => idle row (same ▸ hrow)⟩

theorem runOnce_leaves {ending : Program.Ending (Except Error (Option RunReport))} {w : World}
    (run : (runOnce queue settings jitter).run p.tool { store := start, now } = (ending, w))
    (rest : start.AtRest) :
    w.store.Coherent ∧ (w.store.Idle ↔ ¬ Overruns queue settings jitter p start now) := by
  cases ending with
  | finished answer =>
    have ⟨coherent, idle⟩ := ((runOnce_holds rfl).2 _ _ run).atRest rest
    refine ⟨coherent, iff_of_true idle fun late => ?_⟩
    obtain ⟨_, _, broken, -⟩ := late.run
    cases run.symm.trans broken
  | crashed why =>
    have late := runOnce_crashed run
    have ⟨coherent, busy⟩ := late.leaves run rest
    exact ⟨coherent, iff_of_false busy (not_not_intro late)⟩

end Queue

/-! ## Calls of the tool -/

/-- Of every VM the tool is told the address that the VM holds. There is one, unless the VM is to be
deleted; then it is the one on the record. -/
def Event.Told (e : Event) : Prop :=
  ∀ c answer, e.call = some (c, answer) →
    c.request.address = e.before.addressOf c.request.vmId ∧
    (c.action ≠ .delete → c.request.address.isSome) ∧
    (c.action = .delete → ∃ vm, e.before.vmById? c.request.vmId = some vm ∧
      c.request.address = vm.address)

namespace Lifecycle

variable {settings : Settings} {attempt : Attempt} {task : Task} {start : Store} {e : Event}

theorem Handles.told (h : Handles settings attempt task start e) (coherent : start.Coherent) :
    e.Told := by
  cases h with
  | silent | entered | allocated | released | ended =>
    intro c answer call
    cases call
  | @called vm slots address action budget answer entered holding member =>
    intro c answer call
    cases call
    simp only [requestOf_vmId, requestOf_address]
    cases holding with
    | granted kind allocated =>
      obtain ⟨_, pool, grant⟩ := allocated
      refine ⟨(Store.addressOf_eq_some grant.holds_self).symm, fun _ => rfl, fun delete => ?_⟩
      rw [kind, delete] at member
      exact absurd member (by decide)
    | kept create =>
      refine ⟨entered.address_eq coherent, fun other => ?_, fun _ => ⟨vm, ?_, rfl⟩⟩
      · refine entered.placed coherent create fun delete => ?_
        rw [delete] at member
        exact other (List.mem_singleton.mp member)
      · obtain ⟨old, found, id, -⟩ := entered.fits coherent
        refine (coherent.distinct.working found id).vmById?_iff.mpr ⟨?_, rfl⟩
        exact (Store.vm?_mem (entered.vm?_working _)).1

theorem Recovers.silent_call {kind : TaskKind} {vm : Vm} (h : Recovers kind vm e) :
    e.call = none := by
  cases h <;> rfl

end Lifecycle

theorem Event.told_of_no_call {e : Event} (h : e.call = none) : e.Told := by
  intro c answer call
  cases h.symm.trans call

theorem Queue.Runs.told {settings : Lifecycle.Settings} {start : Store} {now : Instant} {e : Event}
    (h : Queue.Runs settings start now e) (rest : start.AtRest) : e.Told := by
  cases h with
  | silent | claims => exact Event.told_of_no_call rfl
  | works claim works =>
    obtain ⟨⟨tasks, rfl⟩, -⟩ := claim_others claim rest.idle
    cases works with
    | silent | records => exact Event.told_of_no_call rfl
    | handles handles => exact handles.told rest.coherent.withTasks
    | recovers _ _ recovers => exact Event.told_of_no_call recovers.silent_call

/-! ## Sweeps -/

/-- A sweep of a store at rest finds nothing to do. -/
theorem Lifecycle.Sweeps.rests {start : Store} {e : Event} (h : Lifecycle.Sweeps start e)
    (rest : start.AtRest) (before : e.before = start) : e.after = start ∧ e.call = none := by
  have stable : ∀ {vm : Vm}, start.vm? vm.key = some vm → vm.status ∉ VmStatus.transient :=
    fun found => (rest.coherent.fits _ (Store.vm?_mem found).1).settled
  cases h with
  | silent => exact ⟨before, rfl⟩
  | released found status =>
    subst before
    have settled := stable found
    rw [status] at settled
    exact absurd settled (by decide)
  | marked found status =>
    subst before
    exact absurd status (stable found)
  | failed failed =>
    subst before
    refine ⟨?_, rfl⟩
    rw [(Store.failAbandoned_ok failed).2, Store.updateWhere_eq_self]
    -- A worker would have to be on an abandoned row.
    intro row hrow
    simp [Store.isAbandoned, rest.idle row hrow]
  | recovers unfinished _ _ =>
    obtain ⟨row, hrow, running, -⟩ := unfinished
    exact absurd running (rest.idle row hrow)

/-! ## Requests -/

namespace Fleet

variable {s s' : Store} {now : Instant}

theorem Answers.coherent (h : Answers s now s') (coherent : s.Coherent) : s'.Coherent := by
  cases h with
  | refused => exact coherent
  | pools sound rest holders =>
    have vms : s'.vms = s.vms := by rw [rest]
    refine ⟨coherent.distinct.congr vms (by rw [rest]), sound coherent.sound, fun vm hvm => ?_,
      fun id holds => ?_⟩
    · have fits := coherent.fits vm (vms ▸ hvm)
      exact { fits with address := fits.address.trans (Store.addressOf_congr (holders vm.id)).symm }
    · rw [vms]
      exact coherent.owned id (holders id ▸ holds)
  | created free key status address =>
    exact (coherent.added free key status address).withTasks
  | withdrawn => exact coherent.skip
  | edited found id status address =>
    have fits := coherent.fits _ (Store.vm?_mem found).1
    refine coherent.working found id (.same coherent.sound _)
      ⟨?_, ?_, fun runs => ?_, fun waits => ?_⟩
    · exact status ▸ fits.settled
    · rw [address, fits.address, id]
      rfl
    · rw [address]
      exact fits.placed (status ▸ runs)
    · rw [address]
      exact fits.bare (status ▸ waits)
  | queued => exact coherent.withTasks

theorem Answers.atRest (h : Answers s now s') (rest : s.AtRest) : s'.AtRest := by
  refine ⟨h.coherent rest.coherent, ?_⟩
  cases h with
  | refused | withdrawn | edited => exact rest.idle
  | pools _ same _ =>
    rw [same]
    exact rest.idle
  | created _ _ _ _ queued => exact rest.idle.append queued.waits
  | queued queued => exact rest.idle.append queued.waits

/-! ## Steps -/

/-- Steps of daily use: requests, sweeps and runs of workers. Nobody dies. -/
def Step.isDaily : Step → Bool
  | .request .. | .work (.sweep _) .. | .work (.runOnce ..) .. => true
  | .work (.recover ..) .. | .death .. => false

/-- The step is the run of a worker that is to put a task off to a time that the calendar does not
have. -/
def Step.Overruns (s : Store) : Step → Prop
  | .work (.runOnce queue settings jitter) tool now =>
    Queue.Overruns queue settings jitter tool s now
  | .request .. | .work (.sweep _) .. | .work (.recover ..) .. | .death .. => False

instance Step.decidableOverruns (s : Store) : (step : Step) → Decidable (step.Overruns s)
  | .work (.runOnce queue settings jitter) tool now =>
    inferInstanceAs (Decidable (Queue.Overruns queue settings jitter tool s now))
  | .request .. | .work (.sweep _) .. | .work (.recover ..) .. | .death .. => .isFalse id

/-- No step from this store on overruns the calendar. -/
def WithinCalendar (s : Store) : List Step → Prop
  | [] => True
  | step :: rest => ¬ step.Overruns s ∧ WithinCalendar (step.after s) rest

instance decidableWithinCalendar : (s : Store) → (steps : List Step) →
    Decidable (WithinCalendar s steps)
  | _, [] => .isTrue trivial
  | s, step :: rest =>
    @instDecidableAnd _ _ inferInstance (decidableWithinCalendar (step.after s) rest)

theorem WithinCalendar.dropLast {steps : List Step} (h : WithinCalendar s steps) :
    WithinCalendar s steps.dropLast := by
  induction steps generalizing s with
  | nil => trivial
  | cons step more ih =>
    cases more with
    | nil => trivial
    | cons next more => exact ⟨h.1, ih h.2⟩

/-- After a step all VMs fit, and a worker is on a task only where it overran. The tool is told what
the store says. -/
theorem Step.coherent {step : Step} (daily : step.isDaily = true) (rest : s.AtRest) :
    (step.after s).Coherent ∧ ((step.after s).Idle ↔ ¬ step.Overruns s) ∧
      ∀ e ∈ step.events s, e.Told := by
  cases step with
  | request request now =>
    have ⟨coherent, idle⟩ := (request.answers now rest.coherent.distinct).atRest rest
    refine ⟨coherent, iff_of_true idle not_false, fun e he => ?_⟩
    rw [List.mem_singleton.mp he]
    exact Event.told_of_no_call rfl
  | work job tool now =>
    cases job with
    | runOnce queue settings jitter =>
      obtain ⟨runs, -⟩ := Queue.runOnce_holds (p := tool) (w := { store := s, now }) rfl
      refine and_assoc.mp ⟨?_, fun e he => (runs e he).told rest⟩
      cases run : (Queue.runOnce queue settings jitter).run tool.tool { store := s, now } with
      | mk ending w' =>
      have last : (Step.work (.runOnce queue settings jitter) tool now).after s = w'.store :=
        Program.last_events run
      rw [last]
      exact Queue.runOnce_leaves run rest
    | sweep maxAge =>
      have sweeps := (Lifecycle.sweepStale_holds rest.coherent.distinct maxAge).events (p := tool)
        (w := { store := s, now }) rfl
      have still := (Step.events_linked (.work (.sweep maxAge) tool now) s).invariant
        (I := (· = s)) (G := Event.Told) sweeps
        (fun e sweeps same =>
          have ⟨after, silent⟩ := sweeps.rests rest same
          ⟨after, Event.told_of_no_call silent⟩) rfl
      rw [show (Step.work (.sweep maxAge) tool now).after s = s from still.1]
      exact ⟨rest.coherent, iff_of_true rest.idle not_false, still.2⟩
    | recover kind vmKey why => cases daily
  | death job tool now operations => cases daily

/-- So it is after any steps of which none but the last overruns. -/
theorem coherent_after {steps : List Step} (daily : ∀ step ∈ steps, step.isDaily = true)
    (calendar : WithinCalendar s steps.dropLast) (rest : s.AtRest) :
    (after s steps).Coherent ∧ ((after s steps).Idle ↔ WithinCalendar s steps) ∧
      ∀ entry ∈ log s steps, entry.event.Told := by
  induction steps generalizing s with
  | nil =>
    exact ⟨rest.coherent, iff_of_true rest.idle trivial, fun _ h => absurd h List.not_mem_nil⟩
  | cons step more ih =>
    obtain ⟨coherent, idle, told⟩ := Step.coherent (daily step List.mem_cons_self) rest
    have first : ∀ {entry : Entry}, entry ∈ (step.events s).map (⟨step, s, ·⟩) →
        entry.event.Told := by
      intro entry member
      obtain ⟨e, he, rfl⟩ := List.mem_map.mp member
      exact told e he
    cases more with
    | nil =>
      refine ⟨coherent, idle.trans (and_iff_left trivial).symm, fun entry he => ?_⟩
      exact (List.mem_append.mp he).elim first fun none => absurd none List.not_mem_nil
    | cons next more =>
      obtain ⟨within, calendar⟩ := calendar
      obtain ⟨final, still, others⟩ := ih (fun step h => daily step (List.mem_cons_of_mem _ h))
        calendar ⟨coherent, idle.mpr within⟩
      refine ⟨final, still.trans (and_iff_right within).symm, fun entry he => ?_⟩
      exact (List.mem_append.mp he).elim first (others entry)

/-- **Records and slots agree.** In any daily use of a fleet that begins with an empty store,
whatever the tool does: after every step no VM is in a transient status, and no task is being worked
on unless in the last step a worker was to put one off to a time that the calendar does not have. A
slot that is held is held by a VM with its address on the record, and a VM with an address holds
exactly one slot, of that address. VMs that run or are stopped have an address, VMs that wait to be
created have none. The tool has been told the address that the VM held at the time: there is one for
every action but a delete, and to a delete goes the address on the record. -/
theorem records_and_slots_agree {steps : List Step} (daily : ∀ step ∈ steps, step.isDaily = true)
    (calendar : WithinCalendar .empty steps.dropLast) :
    let s := after .empty steps
    (∀ vm ∈ s.vms, vm.status ∉ VmStatus.transient) ∧
    ((∀ row ∈ s.tasks, row.status ≠ .running) ↔ WithinCalendar .empty steps) ∧
    (∀ slot ∈ s.slots, slot.active = true →
      ∃ vm ∈ s.vms, slot.holder = some vm.id ∧ vm.address = some slot.address.text) ∧
    (∀ vm ∈ s.vms, ∀ address, vm.address = some address →
      ∃ slot, s.slots.filter (fun x => x.holder == some vm.id && x.active) = [slot] ∧
        slot.address.text = address) ∧
    (∀ vm ∈ s.vms, (vm.status = .running ∨ vm.status = .stopped → vm.address.isSome) ∧
      (vm.status = .pending → vm.address = none)) ∧
    ∀ entry ∈ log .empty steps, ∀ c answer, entry.event.call = some (c, answer) →
      c.request.address = entry.event.before.addressOf c.request.vmId ∧
      (c.action ≠ .delete → c.request.address.isSome) ∧
      (c.action = .delete → ∃ vm, entry.event.before.vmById? c.request.vmId = some vm ∧
        c.request.address = vm.address) := by
  intro s
  obtain ⟨coherent, idle, told⟩ := coherent_after daily calendar Store.empty_atRest
  refine ⟨fun vm hvm => (coherent.fits vm hvm).settled, idle, fun slot hslot active => ?_,
    fun vm hvm address has => ?_, fun vm hvm => ?_, told⟩
  · obtain ⟨id, holder⟩ := Option.isSome_iff_exists.mp (coherent.sound.held slot hslot active).1
    have holds := coherent.sound.activeSlot?_of_mem hslot active holder
    obtain ⟨vm, hvm, rfl⟩ := coherent.owned id (by rw [holds]; rfl)
    exact ⟨vm, hvm, holder,
      (coherent.fits vm hvm).address.trans (Store.addressOf_eq_some holds)⟩
  · have held := (coherent.fits vm hvm).address
    rw [has, Store.addressOf] at held
    obtain ⟨slot, holds, text⟩ := Option.map_eq_some_iff.mp held.symm
    exact ⟨slot, coherent.sound.filter_held holds, text⟩
  · exact ⟨(coherent.fits vm hvm).placed, (coherent.fits vm hvm).bare⟩

/-- A use with trouble of every kind: a host that is not reached, a second task for a create, a call
that never comes back, with and without the hard limit in its way, and a delete that is refused. -/
def troubledUse : List Step :=
  let tool (lasts : Option Duration) (ends : CallEnd) : Provisioner := ⟨fun _ _ _ => (lasts, ends)⟩
  let well := tool (some .zero) (.answered (.ok ⟨.create, [], some 0, [], "", ⟨0, 0⟩, ⟨0, 0⟩⟩))
  let unreachable := tool (some .zero) (.answered (.error (.unreachable "no route")))
  let refusing := tool (some .zero) (.answered (.error (.rejected "no")))
  let hanging := tool none (.broken "")
  let work := plainWorker (.ofSeconds 300)
  [.request (.createPool "default" "10.0.0.0/30" "10.0.0.1" none) ⟨0, 0⟩,
    .request (.createPool "other" "10.0.1.0/30" "10.0.1.1" none) ⟨1, 0⟩,
    .request (.createVm 3 ["srv-1"] "task-1" { name := "a", owner := "alice" } {}) ⟨2, 0⟩,
    .request (.enqueue 3 "task-2" .create 1 {}) ⟨3, 0⟩,
    .work work unreachable ⟨10, 0⟩,
    .work work well ⟨20, 0⟩,
    .work work well ⟨30, 0⟩,
    .request (.ask 3 "task-3" .stop "srv-1" "alice") ⟨40, 0⟩,
    .work work hanging ⟨50, 0⟩,
    .work (.sweep .zero) well ⟨200, 0⟩,
    .request (.createVm 3 ["srv-2"] "task-4" { name := "b", owner := "bob" }
      { pool := some "other" }) ⟨210, 0⟩,
    .work (plainWorker (.ofSeconds 10)) hanging ⟨300, 0⟩,
    .work work well ⟨400, 0⟩,
    .request (.ask 3 "task-5" .delete "srv-1" "alice") ⟨500, 0⟩,
    .work work refusing ⟨510, 0⟩]

/-- No step of it overruns, and in the end a VM runs whose record and slot agree while nobody is at
work. -/
theorem troubledUse_agrees :
    (∀ step ∈ troubledUse, step.isDaily = true) ∧
    WithinCalendar .empty troubledUse.dropLast ∧
    (∀ row ∈ (after .empty troubledUse).tasks, row.status ≠ .running) ∧
    ∃ vm ∈ (after .empty troubledUse).vms, vm.status = .running ∧ ∃ slot,
      (after .empty troubledUse).slots.filter (fun x => x.holder == some vm.id && x.active) =
        [slot] ∧ vm.address = some slot.address.text := by
  have daily : ∀ step ∈ troubledUse, step.isDaily = true := by decide
  have all : WithinCalendar .empty troubledUse := by decide +kernel
  have runs : (after .empty troubledUse).vms.any (·.status = .running) = true := by decide +kernel
  obtain ⟨vm, hvm, running⟩ := List.any_eq_true.mp runs
  have running : vm.status = .running := by simpa using running
  obtain ⟨-, idle, -, holds, placed, -⟩ := records_and_slots_agree daily all.dropLast
  obtain ⟨address, has⟩ := Option.isSome_iff_exists.mp ((placed vm hvm).1 (.inl running))
  obtain ⟨slot, only, text⟩ := holds vm hvm address has
  exact ⟨daily, all.dropLast, idle.mpr all, vm, hvm, running, slot, only, text ▸ has⟩

/-- A backoff of hundreds of thousands of years. -/
def patientConfig : Config := { queue := { retryBackoff := .ofMillis 11000000000000000 } }

/-- A create for a host that is not reached. -/
def unreachedUse : List Step :=
  let unreachable : Provisioner :=
    ⟨fun _ _ _ => (some .zero, .answered (.error (.unreachable "no route")))⟩
  [.request (.createPool "default" "10.0.0.0/30" "10.0.0.1" none) ⟨0, 0⟩,
    .request (.createVm 3 ["srv-1"] "task-1" { name := "a", owner := "alice" } {}) ⟨1, 0⟩,
    .work (.runOnce patientConfig.queue (.of patientConfig) ⟨0, parts_pos⟩) unreachable ⟨2, 0⟩]

/-- The configuration passes its check and nobody dies, but the task is left running. -/
theorem unreachedUse_keeps_running :
    patientConfig.check = .ok () ∧ (∀ step ∈ unreachedUse, step.isDaily = true) ∧
      (after .empty unreachedUse).tasks.map (·.status) = [.running] := by
  refine ⟨?_, ?_, ?_⟩ <;> decide +kernel

end Fleet

end VmFleet
