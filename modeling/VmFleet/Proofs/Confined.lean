/-
What the work on one VM may touch. A handler, and the recovery after it, leave
every other record, every slot that another VM holds, the pools and the tasks as
they are, wherever they are stopped, and call the tool for that one VM. The slot
rows are met by key, by holder and by pool, and the records by key; what carries
the result is that the handler's VM has the same public id from its entry on.
-/
import VmFleet.Proofs.Independence
import VmFleet.Proofs.Recovering

namespace VmFleet

namespace Store

variable {s t u : Store} {key : Int} {vm : Vm} {now : Instant}

/-- The public id of the VM with the key, if there is such a VM. -/
def idOf? (s : Store) (key : Int) : Option String :=
  (s.vm? key).map (·.id)

/-- The stores agree on everything that is not of the VM with the key: on the records of other VMs,
on the slots that are held but not by the VM, on the pools and on the tasks. Whose slots these are
is read in the first store. -/
structure SameBeside (key : Int) (s t : Store) : Prop where
  vms : t.vms.filter (·.key != key) = s.vms.filter (·.key != key)
  slots : t.slots.filter (fun slot => slot.active && slot.holder != s.idOf? key) =
    s.slots.filter fun slot => slot.active && slot.holder != s.idOf? key
  pools : t.pools = s.pools
  tasks : t.tasks = s.tasks

namespace SameBeside

theorem refl (key : Int) (s : Store) : SameBeside key s s :=
  ⟨rfl, rfl, rfl, rfl⟩

theorem setVm (h : SameBeside key s t) (same : vm.key = key) :
    SameBeside key s (t.setVm key fun _ => vm) := by
  refine ⟨?_, h.slots, h.pools, h.tasks⟩
  rw [← h.vms]
  refine filter_updateWhere_of_failed fun x _ hx => ?_
  rw [beq_iff_eq] at hx
  simp [same, hx]

theorem removeVm (h : SameBeside key s t) : SameBeside key s (t.removeVm key).2 := by
  refine ⟨?_, h.slots, h.pools, h.tasks⟩
  rw [← h.vms, Store.removeVm, List.filter_filter]
  exact List.filter_congr fun x _ => Bool.and_self _

theorem release (h : SameBeside key s t) {id : String} (own : s.idOf? key = some id) :
    SameBeside key s (t.release now id).2 := by
  refine ⟨h.vms, ?_, h.pools, h.tasks⟩
  rw [← h.slots]
  refine filter_updateWhere_of_failed fun x _ hx => ?_
  simp only [Bool.and_eq_true, beq_iff_eq] at hx
  simp [hx.1, own, freed]

theorem granted (h : SameBeside key s t) (keys : (t.slots.map (·.key)).Nodup) {name id : String}
    {pool : Pool} {slot : Slot} (grant : Granted t now name id pool slot u)
    (own : s.idOf? key = some id) : SameBeside key s u := by
  cases grant with
  | again => exact h
  | @fresh _ free _ _ _ member _ unheld =>
    refine ⟨h.vms, ?_, h.pools, h.tasks⟩
    rw [← h.slots]
    refine filter_updateWhere_of_failed fun x hx hk => ?_
    have same : x = free := List.inj_on_of_nodup_map keys hx member (by simpa using hk)
    rw [same]
    simp [unheld, own, taken]

end SameBeside

end Store

/-! ## Programs -/

/-- The program keeps to the VM with the key: after each of its operations, wherever it is stopped,
the store is the one it began with beside that VM, and each of its calls of the tool is for that
VM. -/
structure Program.KeepsTo {α : Type} (key : Int) (program : Program α) (p : Provisioner)
    (w : World) : Prop where
  stopped : ∀ n, w.store.SameBeside key (Event.last w.store ((program.events p w).take n))
  ended : w.store.SameBeside key (program.run p.tool w).2.store
  calls : ∃ made, (program.run p.tool w).2.calls = w.calls ++ made ∧
    ∀ record ∈ made, w.store.idOf? key = some record.call.request.vmId

/-- An operation that begins beside the store of the given one keeps to the VM. -/
def Event.KeepsTo (key : Int) (start : Store) (e : Event) : Prop :=
  start.SameBeside key e.before → start.SameBeside key e.after ∧
    ∀ call answer, e.call = some (call, answer) → start.idOf? key = some call.request.vmId

/-- A write that keeps beside the VM; it is no call. -/
theorem Event.KeepsTo.of_write {key : Int} {start before after : Store}
    (h : start.SameBeside key before → start.SameBeside key after) :
    (⟨before, after, none⟩ : Event).KeepsTo key start :=
  fun beside => ⟨h beside, fun _ _ call => by cases call⟩

namespace World

theorem calls_perform_own {β : Type} (p : Provisioner) (op : Operation β) (w : World) :
    ∃ made, (w.perform p.tool op).2.calls = w.calls ++ made ∧ ∀ record ∈ made,
      op.asCall? (w.perform p.tool op).1 = some (record.call, record.answer) := by
  have silent : ∀ {answer : β} {w' : World}, w'.calls = w.calls →
      ∃ made, w'.calls = w.calls ++ made ∧
        ∀ record ∈ made, op.asCall? answer = some (record.call, record.answer) :=
    fun same => ⟨[], by rw [same, List.append_nil], fun _ h => absurd h List.not_mem_nil⟩
  cases op
  case call c abortAt => exact ⟨_, rfl, fun record h => by cases List.mem_singleton.mp h; rfl⟩
  case now | findVm | vmsIn | removeVm | release => exact silent rfl
  all_goals exact silent (w.commit_frame _).2.1

end World

namespace Program

variable {α : Type} {program : Program α} {p : Provisioner} {w : World} {key : Int}

/-- The calls of a run that the world keeps a record of are among its operations. -/
theorem calls_events (program : Program α) (p : Provisioner) (w : World) :
    ∃ made, (program.run p.tool w).2.calls = w.calls ++ made ∧ ∀ record ∈ made,
      ∃ e ∈ program.events p w, e.call = some (record.call, record.answer) := by
  induction program generalizing w with
  | pure a => exact ⟨[], (List.append_nil _).symm, fun _ h => absurd h List.not_mem_nil⟩
  | crash why => exact ⟨[], (List.append_nil _).symm, fun _ h => absurd h List.not_mem_nil⟩
  | ask op next ih =>
    obtain ⟨first, calls, own⟩ := World.calls_perform_own p op w
    obtain ⟨more, calls', later⟩ := ih (w.perform p.tool op).1 (w.perform p.tool op).2
    refine ⟨first ++ more, by rw [← List.append_assoc, ← calls]; exact calls', ?_⟩
    intro record hrecord
    rcases List.mem_append.mp hrecord with here | there
    · exact ⟨_, List.mem_cons_self, own record here⟩
    · obtain ⟨e, he, call⟩ := later record there
      exact ⟨e, List.mem_cons_of_mem _ he, call⟩

theorem KeepsTo.of_holds {G : Event → Prop} {Q : α → Store → Prop}
    (holds : program.Holds G Q w.store) (quiet : w.coming = [])
    (step : ∀ e, G e → e.KeepsTo key w.store) : program.KeepsTo key p w := by
  have all := holds.events (p := p) quiet
  have linked := program.events_linked (p := p) (w := w)
  have stopped : ∀ n, w.store.SameBeside key
      (Event.last w.store ((program.events p w).take n)) := fun n =>
    ((linked.take n).invariant (fun e he => all e (List.mem_of_mem_take he)) step (.refl key _)).1
  obtain ⟨last, named⟩ := linked.invariant all step (.refl key _)
  obtain ⟨made, calls, events⟩ := program.calls_events p w
  refine ⟨stopped, program.last_events rfl ▸ last, made, calls, fun record hrecord => ?_⟩
  obtain ⟨e, he, call⟩ := events record hrecord
  exact named e he _ _ call

end Program

/-! ## The work on a VM -/

namespace Lifecycle

variable {settings : Settings} {attempt : Attempt} {task : Task} {start : Store} {vm : Vm}
  {kind : TaskKind}

theorem Entered.own (h : Entered task start vm) : start.idOf? task.vmKey = some vm.id := by
  obtain ⟨old, found, -, id, -⟩ := h.origin
  rw [Store.idOf?, found, Option.map_some, id]

theorem Entered.sameBeside (h : Entered task start vm) {slots : List Slot} {vm' : Vm}
    (before : start.SameBeside task.vmKey (start.working vm slots)) (same : vm'.key = vm.key) :
    start.SameBeside task.vmKey (start.working vm' slots) := by
  rw [← Store.setVm_working same, h.key]
  exact before.setVm (same.trans h.key)

theorem Ended.keepsTo {outcome : Outcome} {before after : Store}
    (h : Ended settings attempt task start outcome before after) :
    (⟨before, after, none⟩ : Event).KeepsTo task.vmKey start := by
  refine .of_write fun beside => ?_
  cases h with
  | created _ _ entered _ _ => exact entered.sameBeside beside rfl
  | removed _ entered _ => exact entered.key ▸ beside.removeVm
  | settled _ entered _ _ => exact entered.sameBeside beside rfl
  | reverted _ entered _ _ _ _ => exact entered.sameBeside beside rfl
  | failed _ entered _ _ _ => exact entered.sameBeside beside rfl

theorem Handles.keepsTo {e : Event} (h : Handles settings attempt task start e)
    (keys : (start.slots.map (·.key)).Nodup) : e.KeepsTo task.vmKey start := by
  cases h with
  | silent => exact .of_write id
  | entered entered =>
    have key := entered.key
    exact .of_write fun beside => key ▸ (key ▸ beside).setVm rfl
  | allocated entered _ allocated =>
    obtain ⟨now, pool, grant⟩ := allocated
    exact .of_write fun beside => beside.granted keys grant entered.own
  | called entered _ _ =>
    refine fun beside => ⟨beside, fun call answer same => ?_⟩
    obtain ⟨rfl, -⟩ := Prod.mk.inj (Option.some.inj same)
    rw [entered.own, requestOf_vmId]
  | released entered _ _ => exact .of_write fun beside => beside.release entered.own
  | ended ended => exact ended.keepsTo

theorem Recovers.keepsTo {e : Event} {key : Int} (h : Recovers kind vm e)
    (found : start.vm? key = some vm) : e.KeepsTo key start := by
  have same : vm.key = key := (Store.vm?_mem found).2
  have own : start.idOf? key = some vm.id := by rw [Store.idOf?, found, Option.map_some]
  cases h with
  | silent => exact .of_write id
  | released _ _ => exact .of_write fun beside => beside.release own
  | marked _ _ _ =>
    rw [same]
    exact .of_write fun beside => beside.setVm same

/-- **Work on a VM touches that VM alone.** From any store in which no two slots have one key, for
any task of the VM, whether it is stored or not, and however the tool answers: the handler, the
handler under a time limit and the recovery leave the records of other VMs, the slots that others
hold, the pools and the tasks as they were, at their end and wherever they are stopped, and every
call of the tool that they make is for this VM. -/
theorem work_keepsTo (settings : Settings) (attempt : Attempt) (task : Task) (limit : Instant)
    (kind : TaskKind) (why : String) (p : Provisioner) (w : World) (quiet : w.coming = [])
    (keys : (w.store.slots.map (·.key)).Nodup) :
    (handle settings attempt task).KeepsTo task.vmKey p w ∧
      ((handle settings attempt task).within limit).KeepsTo task.vmKey p w ∧
      (recoverAborted kind task.vmKey why).KeepsTo task.vmKey p w := by
  have handled := handle_holds settings attempt task w.store
  refine ⟨.of_holds handled quiet fun e he => he.keepsTo keys, ?_, ?_⟩
  · have limited : ((handle settings attempt task).within limit).Holds
        (Handles settings attempt task w.store) (fun _ _ => True) w.store :=
      .within (handled.imp (fun e he => ⟨he, fun _ => trivial⟩) fun _ _ _ => trivial)
    exact .of_holds limited quiet fun e he => he.keepsTo keys
  · cases found : w.store.vm? task.vmKey with
    | none =>
      have idle : (recoverAborted kind task.vmKey why).Holds
          (fun e => e.KeepsTo task.vmKey w.store) (fun _ _ => True) w.store :=
        recoverAborted_gone found (.of_write id) why trivial
      exact .of_holds idle quiet fun _ he => he
    | some vm =>
      exact .of_holds (recoverAborted_holds found why) quiet fun e he => he.keepsTo found

/-- A create whose call breaks down after the VM was given an address, beside a VM that runs: the
call was for the VM of the task, and the other VM holds what it held. -/
theorem broken_create_keepsTo :
    let w : World := { store := sharedPool, now := ⟨10, 0⟩ }
    let broken : Provisioner := .immediate fun _ _ => .broken "no route"
    let create := handle ⟨"lab", none, .ofSeconds 5⟩ (.of createTask ⟨70, 0⟩) createTask
    create.KeepsTo 1 broken w ∧
      (create.run broken.tool w).2.calls.map (·.call.request.vmId) = ["srv-1"] ∧
      (create.run broken.tool w).2.store.slots.map (fun slot => (slot.holder, slot.active)) =
        [(some "srv-2", true), (some "srv-1", false), (none, false)] :=
  ⟨(work_keepsTo _ _ createTask ⟨70, 0⟩ .create "" _ _ rfl (by decide)).1, by decide +kernel,
    by decide +kernel⟩

end Lifecycle

end VmFleet
