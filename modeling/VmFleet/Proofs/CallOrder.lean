/-
The calls of the tool for one VM, over any use of a fleet with workers dying
wherever they may and with tasks that come twice, late or again: which calls may
follow which.
-/
import VmFleet.Proofs.Course
import VmFleet.Proofs.StatusGraph

namespace VmFleet

namespace VmStatus

/-- The statuses of a VM that has been created remotely and is not to be deleted. -/
def built : List VmStatus :=
  [.running, .stopping, .stopped, .starting, .restarting]

theorem next_of_ending {status next : VmStatus} (edge : next ∈ status.next)
    (ending : status ∈ [deleting, .error]) : next ∈ [deleting, .error] := by
  revert next
  revert status
  decide

end VmStatus

namespace TaskKind

variable {kind : TaskKind}

theorem source_mem_built (h : kind.via ∈ VmStatus.built) {status : VmStatus}
    (source : status ∈ kind.sources) : status ∈ VmStatus.built := by
  revert status h
  cases kind <;> decide

theorem source_of_revert_mem_built (h : kind.revert ∈ VmStatus.built) {status : VmStatus}
    (source : status ∈ kind.sources) : status ∈ VmStatus.built := by
  revert status h
  cases kind <;> decide

theorem via_mem_built (create : kind ≠ .create) (delete : kind ≠ .delete) :
    kind.via ∈ VmStatus.built := by
  cases kind <;> first | contradiction | decide

theorem delete_of_mem_actions (h : .delete ∈ kind.actions) : kind = .delete := by
  revert h
  cases kind <;> decide

theorem via_mem_built_of_action {action : Action} (h : action ∈ kind.actions)
    (running : action = .start ∨ action = .stop) : kind.via ∈ VmStatus.built := by
  rcases running with rfl | rfl <;> revert h <;> cases kind <;> decide

theorem mem_actions_of_via_deleting (h : kind.via ∈ [VmStatus.deleting, .error]) {action : Action}
    (member : action ∈ kind.actions) : action = .delete := by
  revert h action
  cases kind <;> decide

end TaskKind

theorem Queue.Runs.called {settings : Lifecycle.Settings} {start : Store} {now : Instant}
    {e : Event}
    {c : Call} {answer : Option (Except Error Report)} (h : Queue.Runs settings start now e)
    (call : e.call = some (c, answer)) :
    ∃ task claimed vm, start.claimNext now = .ok (some task, claimed) ∧
      e.before.vm? task.vmKey = some vm ∧ e.after = e.before ∧ vm.status = task.kind.via ∧
      c.action ∈ task.kind.actions ∧
      ∃ address, c.request = Lifecycle.requestOf settings task vm address := by
  cases h with
  | silent | claims => cases call
  | @works task claimed _ claim works =>
    cases works with
    | silent | records => cases call
    | recovers _ _ recovers => cases recovers <;> cases call
    | handles handles =>
      cases handles with
      | silent | entered | allocated | released | ended => cases call
      | @called vm slots address action budget answer entered holding member =>
        cases call
        refine ⟨task, claimed, vm, claim, ?_, rfl, entered.status, member, address, rfl⟩
        rw [← entered.key]
        exact entered.vm?_working slots

namespace Fleet

variable {s : Store} {steps : List Step} {earlier later : List Entry} {entry : Entry} {key : Int}
  {c : Call} {answer : Option (Except Error Report)} {step : Step} {start : Store}
  {past : List Act} {act : Act} {task : Task}

/-- The entry is a call of the tool in a run that claimed a task of this key. -/
def Entry.Calls (entry : Entry) (key : Int) (c : Call) (answer : Option (Except Error Report)) :
    Prop :=
  entry.event.call = some (c, answer) ∧ ∃ queue settings jitter now task claimed,
    entry.step.job? = some (.runOnce queue settings jitter, now) ∧
    entry.start.claimNext now = .ok (some task, claimed) ∧ task.vmKey = key

/-- A create call for the VM came back with success. -/
def Created (entries : List Entry) (key : Int) : Prop :=
  ∃ entry ∈ entries, ∃ c report, entry.Calls key c (some (.ok report)) ∧ c.action = .create

/-- A delete call was made for the VM. -/
def Deleted (entries : List Entry) (key : Int) : Prop :=
  ∃ entry ∈ entries, ∃ c answer, entry.Calls key c answer ∧ c.action = .delete

/-- What the status of a VM tells of the calls made for it. -/
structure Staged (earlier : List Entry) (key : Int) : Prop where
  used : Created earlier key ∨ Deleted earlier key → key < (state earlier).nextVm
  built : ∀ vm, (state earlier).vm? key = some vm → vm.status ∈ VmStatus.built →
    Created earlier key
  spent : Created earlier key → ∀ vm, (state earlier).vm? key = some vm → vm.status ≠ .pending
  ending : Deleted earlier key → ∀ vm, (state earlier).vm? key = some vm →
    vm.status ∈ [.deleting, .error]

theorem Created.append (h : Created earlier key) (more : List Entry) :
    Created (earlier ++ more) key := by
  obtain ⟨entry, he, call⟩ := h
  exact ⟨entry, List.mem_append_left _ he, call⟩

theorem Created.of_concat (h : Created (earlier ++ [entry]) key) :
    Created earlier key ∨
      ∃ c report, entry.Calls key c (some (.ok report)) ∧ c.action = .create := by
  simpa [Created, or_and_right, exists_or] using h

theorem Deleted.of_concat (h : Deleted (earlier ++ [entry]) key) :
    Deleted earlier key ∨ ∃ c answer, entry.Calls key c answer ∧ c.action = .delete := by
  simpa [Deleted, or_and_right, exists_or] using h

/-! ## What a worker has done in its run -/

namespace InRun

theorem created (run : InRun earlier step start past) (hand : inHand past = some task)
    (creates : ∃ a ∈ past, a.Creates) : Created earlier task.vmKey := by
  obtain ⟨a, ha, c, report, call, create⟩ := creates
  obtain ⟨before, -, rfl⟩ := run.split
  obtain ⟨queue, settings, jitter, now, claimed, job, claim⟩ := run.hand task hand
  refine ⟨_, List.mem_append_right _ (List.mem_map_of_mem ha), c, report, ⟨call, ?_⟩, create⟩
  exact ⟨queue, settings, jitter, now, task, claimed, job, claim, rfl⟩

/-- When a worker took its VM into the transient status of the task's kind, some entries had been
made, and all later ones are operations of its own. -/
theorem entered (run : InRun earlier step start past) (split : log .empty steps = earlier ++ later)
    (enters : ∃ a ∈ past, a.Enters task) :
    ∃ before mine old, earlier = before ++ mine.map (fun a => ⟨step, start, a.event⟩) ∧
      mine ⊆ past ∧ (state before).vm? task.vmKey = some old ∧ old.status ∈ task.kind.sources := by
  obtain ⟨a, ha, old, _, found, source, -⟩ := enters
  obtain ⟨before, -, rfl⟩ := run.split
  obtain ⟨first, rest, rfl⟩ := List.append_of_mem ha
  refine ⟨before ++ first.map fun a => ⟨step, start, a.event⟩, a :: rest, old, by simp, by simp,
    ?_, source⟩
  have here : log .empty steps = (before ++ first.map fun a => ⟨step, start, a.event⟩) ++
      ⟨step, start, a.event⟩ :: (rest.map (fun a => ⟨step, start, a.event⟩) ++ later) := by
    rw [split]
    simp
  rw [← (log_follows here).before_eq]
  exact found

/-- A VM that waited to be created when the worker came to it, and that the worker has not had
created, has not been created at all. -/
theorem not_created (run : InRun earlier step start past)
    (split : log .empty steps = earlier ++ later)
    (before : ∀ before past, earlier = before ++ past → ∀ key, Staged before key)
    (enters : ∃ a ∈ past, a.Enters task) (kind : task.kind = .create)
    (uncreated : Uncreated past) : ¬ Created earlier task.vmKey := by
  obtain ⟨old, mine, vm, rfl, own, found, source⟩ := run.entered split enters
  rintro ⟨x, hx, c, report, ⟨call, calls⟩, create⟩
  rcases List.mem_append.mp hx with hx | hx
  · refine (before old _ rfl task.vmKey).spent ⟨x, hx, c, report, ⟨call, calls⟩, create⟩ vm found ?_
    rw [kind] at source
    exact List.mem_singleton.mp source
  · obtain ⟨a, ha, rfl⟩ := List.mem_map.mp hx
    exact uncreated a (own ha) ⟨c, report, call, create⟩

end InRun

/-! ## One entry -/

/-- What a VM that is there after an entry was before: it is new, it was in the same status, or its
status was changed to `error` or as a worker asked in its run. -/
theorem Follows.vm?_cases (h : Follows earlier entry) (distinct : (state earlier).VmsDistinct)
    {vm : Vm} (there : entry.event.after.vm? key = some vm) :
    (key = (state earlier).nextVm ∧ vm.status = .pending) ∨
    ∃ old, (state earlier).vm? key = some old ∧ (vm.status = old.status ∨ vm.status = .error ∨
      ∃ step start past expected, InRun earlier step start past ∧
        Shift past key expected vm.status ∧ old.status ∈ expected) := by
  cases h with
  | @request step now s' answers =>
    cases found : (state earlier).vm? key with
    | none =>
      have change : Store.Change (fun _ => False) (fun _ => False) (state earlier) s' :=
        answers.change
      rcases change.vm?_cases distinct key with
        same | ⟨old, _, moves, -⟩ | ⟨old, found', -⟩ | ⟨isNext, vm', there', pending⟩
      · cases found.symm.trans (same.symm.trans there)
      · cases found.symm.trans moves.found
      · cases found.symm.trans found'
      · cases there.symm.trans there'
        exact .inl ⟨isNext, pending⟩
    | some old =>
      obtain ⟨vm', there', status⟩ := answers.vm?_kept distinct found
      cases there.symm.trans there'
      exact .inr ⟨old, rfl, .inl status⟩
  | @resolves step start act before possible resolves =>
    rcases possible.vm?_cases key with same | ⟨expected, old, vm', deed, found, -, there'⟩ |
      ⟨-, gone⟩
    · exact .inr ⟨vm, before ▸ same.symm.trans there, .inl rfl⟩
    · cases there.symm.trans there'
      have failed : vm.status = .error := by
        generalize vm.status = next at deed
        cases resolves <;> cases deed
        rfl
      exact .inr ⟨old, before ▸ found, .inr (.inl failed)⟩
    · cases gone.symm.trans there
  | @works step start past act before possible run asks =>
    rcases possible.vm?_cases key with same | ⟨expected, old, vm', deed, found, source, there'⟩ |
      ⟨-, gone⟩
    · exact .inr ⟨vm, before ▸ same.symm.trans there, .inl rfl⟩
    · cases there.symm.trans there'
      rw [Asks, deed] at asks
      exact .inr ⟨old, before ▸ found, .inr (.inr ⟨step, start, past, expected, run, asks, source⟩)⟩
    · cases gone.symm.trans there

theorem Follows.calls (h : Follows earlier entry) (call : entry.event.call = some (c, answer)) :
    ∃ key, entry.Calls key c answer := by
  cases h with
  | request => cases call
  | resolves before possible resolves => cases resolves <;> cases call
  | works before possible run asks runs =>
    obtain ⟨queue, settings, jitter, now, job, runs⟩ := runs
    obtain ⟨task, claimed, -, claim, -⟩ := runs.called call
    exact ⟨task.vmKey, call, queue, settings, jitter, now, task, claimed, job, claim, rfl⟩

/-- A call is made for a VM that is there, in the transient status of the task's kind, into which
the worker has taken it. A VM is not created twice in a run. -/
theorem Follows.called (h : Follows earlier entry) (calls : entry.Calls key c answer) :
    ∃ step start past task vm, InRun earlier step start past ∧ inHand past = some task ∧
      task.vmKey = key ∧ (∃ a ∈ past, a.Enters task) ∧ (c.action = .create → Uncreated past) ∧
      c.action ∈ task.kind.actions ∧ (state earlier).vm? key = some vm ∧
      vm.status = task.kind.via ∧ vm.id = c.request.vmId ∧ entry.event.after = state earlier := by
  obtain ⟨call, queue, settings, jitter, now, task, claimed, job, claim, rfl⟩ := calls
  cases h with
  | request => cases call
  | resolves before possible resolves => cases resolves <;> cases call
  | @works step start past act before possible run asks runs =>
    rw [Asks, Act.deed_of_call? call] at asks
    obtain ⟨task', hand, member, entered, uncreated⟩ := asks
    have same : task' = task := by
      obtain ⟨_, _, _, _, _, job', claim'⟩ := run.hand task' hand
      cases job.symm.trans job'
      cases claim.symm.trans claim'
      rfl
    subst same
    obtain ⟨_, _, _, _, job', runs⟩ := runs
    cases job.symm.trans job'
    obtain ⟨task, claimed', vm, claim', found, silent, status, -, address, told⟩ := runs.called call
    cases claim.symm.trans claim'
    have id : c.request.vmId = vm.id := told ▸ Lifecycle.requestOf_vmId address
    have found : act.before.vm? task'.vmKey = some vm := found
    rw [before] at found
    exact ⟨step, start, past, task', vm, run, hand, rfl, entered, uncreated, member, found, status,
      id.symm, silent.trans before⟩

/-! ## Any number of entries -/

namespace Staged

variable {vm : Vm}

section

variable (split : log .empty steps = earlier ++ entry :: later)
  (before : ∀ before past, earlier = before ++ past → ∀ key, Staged before key)

include split before

theorem built_concat (distinct : (state earlier).VmsDistinct)
    (there : entry.event.after.vm? key = some vm) (built : vm.status ∈ VmStatus.built) :
    Created (earlier ++ [entry]) key := by
  have staged := before earlier [] (List.append_nil _).symm
  rcases (log_follows split).vm?_cases distinct there with ⟨-, pending⟩ |
    ⟨old, found, same | error | ⟨step, start, past, expected, run, shift, source⟩⟩
  · rw [pending] at built
    exact absurd built (by decide)
  · exact ((staged key).built old found (same ▸ built)).append _
  · rw [error] at built
    exact absurd built (by decide)
  · generalize vm.status = next at shift built
    cases shift with
    | enter =>
      exact ((staged _).built old found (TaskKind.source_mem_built built source)).append _
    | @settle task hand delete created =>
      by_cases kind : task.kind = .create
      · exact (run.created hand (created kind)).append _
      · have status := List.mem_singleton.mp source
        exact ((staged _).built old found (status ▸ TaskKind.via_mem_built kind delete)).append _
    | fail => exact absurd built (by decide)
    | @revert task _ _ _ hand delete entered looked uncreated =>
      -- The VM was built when the worker came to it.
      obtain ⟨first, mine, old, rfl, -, found, source⟩ := run.entered split entered
      have already := (before first _ rfl task.vmKey).built old found
        (TaskKind.source_of_revert_mem_built built source)
      exact (already.append _).append _

theorem spent_concat (distinct : (state earlier).VmsDistinct)
    (created : Created (earlier ++ [entry]) key) (there : entry.event.after.vm? key = some vm) :
    vm.status ≠ .pending := by
  have staged := before earlier [] (List.append_nil _).symm
  rcases created.of_concat with created | ⟨c, report, calls, create⟩
  · rcases (log_follows split).vm?_cases distinct there with ⟨isNext, -⟩ |
      ⟨old, found, same | error | ⟨step, start, past, expected, run, shift, source⟩⟩
    · have used := (staged key).used (.inl created)
      omega
    · rw [same]
      exact (staged key).spent created old found
    · rw [error]
      decide
    · generalize vm.status = next at shift
      cases shift with
      | enter => exact VmStatus.via_ne_pending _
      | settle hand delete => exact (TaskKind.settled_stable delete).2
      | fail => decide
      | @revert task _ _ _ hand delete entered looked uncreated =>
        intro pending
        have kind := TaskKind.revert_eq_pending.mp pending
        exact run.not_created split before entered kind uncreated created
  · obtain ⟨_, _, _, task, vm', -, -, -, -, -, member, found, status, -, after⟩ :=
      (log_follows split).called calls
    rw [after] at there
    cases found.symm.trans there
    rw [status]
    exact VmStatus.via_ne_pending _

theorem ending_concat (distinct : (state earlier).VmsDistinct) (changes : entry.Changes)
    (deleted : Deleted (earlier ++ [entry]) key) (there : entry.event.after.vm? key = some vm) :
    vm.status ∈ [.deleting, .error] := by
  have staged := before earlier [] (List.append_nil _).symm
  have follows := log_follows split
  rcases deleted.of_concat with deleted | ⟨c, answer, calls, delete⟩
  · rw [Entry.Changes, follows.before_eq] at changes
    rcases changes.vm?_cases distinct key with
      same | ⟨old, vm', moves, after⟩ | ⟨old, found, gone, -⟩ | ⟨isNext, -⟩
    · exact (staged key).ending deleted vm (same.symm.trans there)
    · have status := (staged key).ending deleted old moves.found
      rw [after] at there
      cases moves.there.symm.trans there
      rcases moves.edge with same | edge
      · rwa [same]
      · exact VmStatus.next_of_ending edge status
    · cases gone.symm.trans there
    · have used := (staged key).used (.inr deleted)
      omega
  · obtain ⟨_, _, _, task, vm', -, -, -, -, -, member, found, status, -, after⟩ :=
      follows.called calls
    rw [after] at there
    cases found.symm.trans there
    rw [delete] at member
    rw [status, TaskKind.delete_of_mem_actions member]
    decide

theorem used_concat (distinct : (state earlier).VmsDistinct) (changes : entry.Changes)
    (called : Created (earlier ++ [entry]) key ∨ Deleted (earlier ++ [entry]) key) :
    key < entry.event.after.nextVm := by
  have staged := before earlier [] (List.append_nil _).symm
  have follows := log_follows split
  rw [Entry.Changes, follows.before_eq] at changes
  have grows := changes.nextVm_le
  have now : ∀ {c answer}, entry.Calls key c answer → key < (state earlier).nextVm := by
    intro c answer calls
    obtain ⟨_, _, _, _, vm, -, -, -, -, -, -, found, -⟩ := follows.called calls
    obtain ⟨hvm, rfl⟩ := Store.vm?_mem found
    exact distinct.fresh vm hvm
  have used : key < (state earlier).nextVm := by
    rcases called with created | deleted
    · rcases created.of_concat with created | ⟨_, _, calls, -⟩
      · exact (staged key).used (.inl created)
      · exact now calls
    · rcases deleted.of_concat with deleted | ⟨_, _, calls, -⟩
      · exact (staged key).used (.inr deleted)
      · exact now calls
  omega

end

theorem empty (key : Int) : Staged [] key where
  used h := by
    rcases h with ⟨_, he, -⟩ | ⟨_, he, -⟩
    all_goals exact absurd he List.not_mem_nil
  built vm found := by cases found
  spent h vm found := by cases found
  ending h vm found := by cases found

end Staged

theorem log_staged (split : log .empty steps = earlier ++ later) (key : Int) :
    Staged earlier key := by
  obtain ⟨-, all⟩ := log_changes steps Store.empty_vmsDistinct Store.empty_slotsSound
  refine log_induction (I := fun entries => ∀ key, Staged entries key) Staged.empty ?_ split key
  intro earlier entry later split before key
  obtain ⟨distinct, -, changes⟩ := all entry (by simp [split])
  rw [(log_follows split).before_eq] at distinct
  constructor
  · rw [state_concat]
    exact Staged.used_concat split before distinct changes
  · rw [state_concat]
    exact fun vm there => Staged.built_concat split before distinct there
  · rw [state_concat]
    exact fun created vm there => Staged.spent_concat split before distinct created there
  · rw [state_concat]
    exact fun deleted vm there => Staged.ending_concat split before distinct changes deleted there

/-- **The order of calls.** In any use of a fleet that begins with an empty store, with workers
dying after any operation and tasks that come twice, late or again: every call of the tool is made
in the run of a task, for the VM of that task's key, which is in the store with the public id that
the tool is told. After a create call that came back with success no create call is made for the VM;
a start or a stop call is made only after one; after a delete call only delete calls are made, and
once the VM is removed, none. -/
theorem calls_in_order (steps : List Step) :
    (∀ entry ∈ log .empty steps, ∀ c answer, entry.event.call = some (c, answer) →
      ∃ key vm, entry.Calls key c answer ∧ entry.event.before.vm? key = some vm ∧
        vm.id = c.request.vmId) ∧
    (∀ earlier entry later key c answer, log .empty steps = earlier ++ entry :: later →
      entry.Calls key c answer →
      (∀ report, c.action = .create → answer = some (.ok report) →
        ∀ other ∈ later, ∀ c' answer', other.Calls key c' answer' → c'.action ≠ .create) ∧
      (c.action = .start ∨ c.action = .stop →
        ∃ other ∈ earlier, ∃ c' report, other.Calls key c' (some (.ok report)) ∧
          c'.action = .create) ∧
      (c.action = .delete → ∀ other ∈ later, ∀ c' answer', other.Calls key c' answer' →
        c'.action = .delete)) ∧
    ∀ earlier entry later key, log .empty steps = earlier ++ entry :: later →
      (entry.event.before.vm? key).isSome → entry.event.after.vm? key = none →
      ∀ other ∈ later, ∀ c answer, ¬ other.Calls key c answer := by
  -- An entry of those that come later, with all entries before it.
  have further : ∀ {earlier entry later other}, log .empty steps = earlier ++ entry :: later →
      other ∈ later →
      ∃ between rest, log .empty steps = (earlier ++ entry :: between) ++ other :: rest := by
    intro earlier entry later other split ho
    obtain ⟨between, rest, rfl⟩ := List.append_of_mem ho
    exact ⟨between, rest, by rw [split]; simp⟩
  refine ⟨fun entry he c answer call => ?_,
    fun earlier entry later key c answer split calls => ⟨fun report create ok other ho c' answer'
      calls' create' => ?_, fun power => ?_, fun delete other ho c' answer' calls' => ?_⟩, ?_⟩
  · obtain ⟨earlier, later, split⟩ := List.append_of_mem he
    have follows := log_follows split
    obtain ⟨key, calls⟩ := follows.calls call
    obtain ⟨_, _, _, _, vm, -, -, -, -, -, -, found, -, id, -⟩ := follows.called calls
    exact ⟨key, vm, calls, follows.before_eq ▸ found, id⟩
  · obtain ⟨between, rest, split'⟩ := further split ho
    have created : Created (earlier ++ entry :: between) key :=
      ⟨entry, by simp, c, report, ok ▸ calls, create⟩
    obtain ⟨_, _, _, task, vm, run, -, rfl, entered, uncreated, member, -⟩ :=
      (log_follows split').called calls'
    have kind := TaskKind.create_mem_actions (create' ▸ member)
    have before : ∀ first rest, earlier ++ entry :: between = first ++ rest →
        ∀ key, Staged first key := by
      intro first rest whole key
      rw [whole, List.append_assoc] at split'
      exact log_staged split' key
    exact run.not_created split' before entered kind (uncreated create') created
  · obtain ⟨_, _, _, task, vm, -, -, -, -, -, member, found, status, -⟩ :=
      (log_follows split).called calls
    exact (log_staged split key).built vm found
      (status ▸ TaskKind.via_mem_built_of_action member power)
  · obtain ⟨between, rest, split'⟩ := further split ho
    have deleted : Deleted (earlier ++ entry :: between) key :=
      ⟨entry, by simp, c, answer, calls, delete⟩
    obtain ⟨_, _, _, task, vm, -, -, -, -, -, member, found, status, -⟩ :=
      (log_follows split').called calls'
    have ending := (log_staged split' key).ending deleted vm found
    exact TaskKind.mem_actions_of_via_deleting (status ▸ ending) member
  · intro earlier entry later key split there gone other ho c answer calls
    obtain ⟨between, rest, split'⟩ := further split ho
    obtain ⟨_, _, _, _, vm, -, -, -, -, -, -, found, -, -, after⟩ :=
      (log_follows split').called calls
    have still := (status_graph steps).2 earlier entry later key split there gone other ho
    rw [after] at still
    cases found.symm.trans still

end Fleet

end VmFleet
