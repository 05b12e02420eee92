/-
How a VM leaves `error` and `deleting` where any number of workers and janitors
are at work. A worker whose task failed looks the VM up and puts it back from
the status it sees, whichever that is. So what others have done to the VM during
the remote call is undone: only who writes between the look and the change of
status is heeded.
-/
import VmFleet.Proofs.AddressKept
import VmFleet.Proofs.Crew

namespace VmFleet

namespace TaskKind

/-- Of `error` and `deleting`, only a delete starts from one, and it goes to the other. -/
theorem via_of_troubled_source {kind : TaskKind} {status : VmStatus}
    (source : status ∈ kind.sources) (troubled : status ∈ [.error, VmStatus.deleting]) :
    kind.via = .deleting := by
  revert status
  cases kind <;> decide

theorem via_not_troubled {kind : TaskKind} (delete : kind ≠ .delete) :
    kind.via ∉ [.error, VmStatus.deleting] := by
  revert delete
  cases kind <;> decide

end TaskKind

namespace Lifecycle

variable {attempt : Attempt} {vm old : Vm} {s : Store} {e : Error}

/-- A task that failed in passing puts its VM back from whatever status the VM is in. -/
theorem settleFailure_puts_back (revert : VmStatus) (passing : e.isTransient = true)
    (left : attempt.isFinal = false) (found : s.vm? vm.key = some old) :
    (settleFailure attempt vm revert e).Holds (fun _ => True) (fun outcome s' =>
      outcome = .retry e.message ∧
      ∃ now, s'.vm? vm.key = some (old.moved revert (failurePatch vm e.message) now)) s := by
  refine .perform fun looked s' effect => ⟨trivial, ?_⟩
  obtain ⟨rfl, rfl⟩ := effect.findVm
  simp only [found, Option.map_some, Option.getD_some, passing, left, Bool.not_false,
    Bool.and_self, if_true]
  refine .perform fun moved s' effect => ⟨trivial, ?_⟩
  obtain ⟨now, rfl, rfl⟩ := effect.transition_of_mem found (by simp)
  have key : old.key = vm.key := (Store.vm?_mem found).2
  exact .pure ⟨rfl, now, Store.vm?_setVm_self found key⟩

end Lifecycle

namespace Crew

variable {earlier : List Entry} {entry : Entry} {key : Int} {status next : VmStatus}

/-- A worker puts the VM of the key back. It has the task in hand and once took the VM into the
transient status of the task's kind; its last operation was a look, which saw the VM in the status
that the VM now leaves. -/
def Entry.PutsBack (entry : Entry) (earlier : List Entry) (key : Int) (status next : VmStatus) :
    Prop :=
  ∃ member act task seen s s', entry = .operation member act ∧
    inHand (own member earlier) = some task ∧ task.vmKey = key ∧ task.kind ≠ .delete ∧
    (∃ a ∈ own member earlier, a.Enters task) ∧
    (own member earlier).getLast? = some ⟨.look key (some seen), s, s'⟩ ∧
    seen.status = status ∧ next = task.kind.revert

/-- A worker removes the VM of the key. It has a delete task in hand and took the VM into
`deleting`. -/
def Entry.Removes (entry : Entry) (earlier : List Entry) (key : Int) : Prop :=
  ∃ member act task, entry = .operation member act ∧ inHand (own member earlier) = some task ∧
    task.kind = .delete ∧ task.vmKey = key ∧ ∃ a ∈ own member earlier, a.Enters task

theorem shift_of_troubled {member : Nat} {act : Act} {expected : List VmStatus}
    (shift : Shift (own member earlier) key expected next) (source : status ∈ expected)
    (troubled : status ∈ [.error, .deleting]) :
    next ∈ [.error, .deleting] ∨
      (Entry.operation member act).PutsBack earlier key status next := by
  cases shift with
  | enter hand =>
    left
    rw [TaskKind.via_of_troubled_source source troubled]
    decide
  | settle hand delete =>
    rw [List.mem_singleton.mp source] at troubled
    exact absurd troubled (TaskKind.via_not_troubled delete)
  | fail => exact .inl (by decide)
  | @revert task found s s' hand delete entered looked uncreated =>
    right
    have seen := List.mem_singleton.mp source
    cases found with
    | none =>
      rw [seen] at troubled
      exact absurd troubled (TaskKind.via_not_troubled delete)
    | some vm => exact ⟨member, act, task, vm, s, s', rfl, hand, rfl, delete, entered, looked,
        seen.symm, rfl⟩

/-- **Leaving `error` and `deleting`.** Whatever any number of workers and janitors do to an empty
store and in what order, and whatever clients ask for: a VM in `error` or `deleting` stays in one of
the two, or it is removed by a worker that once took it into `deleting`, unless a worker puts it
back that has just seen it there. Such a worker, undisturbed, does put the VM back from any
status. -/
theorem error_and_deleting_left (jobs : List Fleet.Job) (turns : List Turn) :
    (∀ earlier entry later key old, work jobs turns = earlier ++ entry :: later →
      entry.event.before.vm? key = some old → old.status ∈ [.error, .deleting] →
      (∃ vm, entry.event.after.vm? key = some vm ∧
        (vm.status ∈ [.error, .deleting] ∨ entry.PutsBack earlier key old.status vm.status)) ∨
      entry.event.after.vm? key = none ∧ entry.Removes earlier key) ∧
    ∀ (attempt : Lifecycle.Attempt) (vm old : Vm) revert (e : Error) (tool : Provisioner)
      (w : World), e.isTransient = true → attempt.isFinal = false → w.coming = [] →
      w.store.vm? vm.key = some old → ∃ w' now,
        (Lifecycle.settleFailure attempt vm revert e).run tool.tool w =
          (.finished (.retry e.message), w') ∧
        w'.store.vm? vm.key =
          some (old.moved revert (Lifecycle.failurePatch vm e.message) now) := by
  refine ⟨fun earlier entry later key old split found troubled => ?_, ?_⟩
  · have follows := work_follows split
    rcases follows.vm?_cases (work_distinct split) found with
      ⟨vm, there, same | ⟨member, act, expected, rfl, shift, source⟩⟩ | removed
    · exact .inl ⟨vm, there, .inl (same ▸ troubled)⟩
    · exact .inl ⟨vm, there, shift_of_troubled shift source troubled⟩
    · exact .inr removed
  · intro attempt vm old revert e tool w passing left quiet found
    obtain ⟨outcome, w', run⟩ :=
      (Lifecycle.settleFailure_returns attempt vm revert e).finished tool.tool w
    have puts := Lifecycle.settleFailure_puts_back revert passing left found
    obtain ⟨rfl, now, there⟩ := puts.finished quiet run
    exact ⟨w', now, run, there⟩

/-! ## A stop that comes to its end too late -/

/-- Three workers and a janitor. -/
def lateCrew : List Fleet.Job :=
  let worker := Fleet.plainWorker (.ofSeconds 300)
  [worker, worker, .sweep .zero, worker]

/-- A VM is created; it is to be stopped, and while the tool is called for that, the janitor puts
the VM into `error`. -/
def sweptStop : List Turn :=
  let prompt := Fleet.promptTool
  [.request (.createPool "default" "10.0.0.0/30" "10.0.0.1" none) ⟨1, 0⟩,
    .request (.createVm 3 ["srv-1"] "task-1" { name := "a", owner := "alice" } {}) ⟨2, 0⟩] ++
  List.replicate 9 (.operation 0 prompt ⟨3, 0⟩) ++
  [.request (.ask 3 "task-2" .stop "srv-1" "alice") ⟨4, 0⟩] ++
  List.replicate 6 (.operation 1 lostTool ⟨5, 0⟩) ++
  List.replicate 5 (.operation 2 prompt ⟨6, 0⟩)

/-- Then it is to be deleted, and a worker begins with that. -/
def sweptThenDeleted : List Turn :=
  sweptStop ++ .request (.ask 3 "task-3" .delete "srv-1" "alice") ⟨7, 0⟩ ::
    List.replicate 4 (.operation 3 Fleet.promptTool ⟨8, 0⟩)

/-- The worker that was to stop the VM looks it up and puts it back. -/
def puttingBack : List Turn :=
  List.replicate 2 (.operation 1 lostTool ⟨9, 0⟩)

/-- So the VM goes from `error`, and from `deleting`, to `running`. -/
theorem late_stop_revives :
    let status (turns : List Turn) := ((state (work lateCrew turns)).vm? 1).map (·.status)
    status sweptStop = some .error ∧ status (sweptStop ++ puttingBack) = some .running ∧
    status sweptThenDeleted = some .deleting ∧
      status (sweptThenDeleted ++ puttingBack) = some .running := by
  decide +kernel

end Crew

end VmFleet
