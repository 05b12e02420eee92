/-
Programs operation by operation, while others write to the store in between: what
each operation was and what came of it, what it may change, and a way to show
something of every operation of a program, given those before it, that holds
whatever the others do.
-/
import VmFleet.Proofs.Events
import VmFleet.Proofs.TaskRecords

namespace VmFleet

/-- What an operation was, and what it brought, as far as VMs, tasks and the tool are concerned. -/
inductive Deed where
  | look (key : Int) (found : Option Vm)
  /-- A change of status, which is made if the VM is in one of the statuses expected. -/
  | shift (key : Int) (expected : List VmStatus) (next : VmStatus)
  | remove (key : Int)
  | call (c : Call) (answer : Option (Except Error Report))
  /-- A claim, and the task that was got. -/
  | claim (task : Option Task)
  /-- The status that a task is to have after its run. -/
  | record (taskId : String) (status : TaskStatus)
  /-- Abandoned tasks are failed. -/
  | failAbandoned
  /-- It is about the clock or slots, or a list of VMs is got. -/
  | aside

def Operation.deed {β : Type} : Operation β → β → Deed
  | .findVm key, found => .look key found
  | .transition key expected next _, _ => .shift key expected next
  | .removeVm key, _ => .remove key
  | .call c _, answer => .call c answer
  | .claim, answer => .claim answer.toOption.join
  | .complete id _, _ => .record id .completed
  | .fail id _, _ => .record id .failed
  | .retry id _ _, _ => .record id .pending
  | .failAbandoned _, _ => .failAbandoned
  | .now, _ | .vmsIn _, _ | .allocate _ _, _ | .release _, _ => .aside

/-- An operation that was carried out, with the stores around it. -/
structure Act where
  deed : Deed
  before : Store
  after : Store

namespace Act

/-- The stores are such as an operation of this kind may find and leave. -/
def Possible (a : Act) : Prop :=
  ∃ (β : Type) (op : Operation β) (answer : β),
    a.deed = op.deed answer ∧ Effect a.before op answer a.after

/-- The call that the operation is, with its answer. -/
def call? (a : Act) : Option (Call × Option (Except Error Report)) :=
  match a.deed with
  | .call c answer => some (c, answer)
  | _ => none

def event (a : Act) : Event :=
  ⟨a.before, a.after, a.call?⟩

end Act

theorem Act.deed_of_call? {a : Act} {c : Call} {answer : Option (Except Error Report)}
    (h : a.call? = some (c, answer)) : a.deed = .call c answer := by
  unfold Act.call? at h
  split at h
  · next deed =>
    cases h
    exact deed
  · cases h

theorem Operation.call?_deed {β : Type} (op : Operation β) (answer : β) (s s' : Store) :
    Act.call? ⟨op.deed answer, s, s'⟩ = op.asCall? answer := by
  cases op <;> rfl

/-! ## What an operation changes -/

namespace Effect

variable {β : Type} {s s' : Store} {op : Operation β} {answer : β}

theorem claim {answer : Except Error (Option Task)} (h : Effect s .claim answer s') :
    (∃ now found, s.claimNext now = .ok (found, s') ∧ answer = .ok found) ∨
      ∃ e, answer = .error e ∧ s' = s := by
  obtain ⟨p, w, rfl, -, rfl, rfl⟩ := h
  rcases commit_cases (w := w) (r := w.store.claimNext w.now) rfl with
    ⟨found, t, ok, answer, store⟩ | ⟨e, -, answer, store⟩
  · exact .inl ⟨w.now, found, store ▸ ok, answer⟩
  · exact .inr ⟨e, answer, store⟩

/-- The table of VMs changes where a VM's status is changed or its record is removed. -/
theorem vms_cases (h : Effect s op answer s') :
    (s'.vms = s.vms ∧ s'.nextVm = s.nextVm) ∨
    (∃ key expected next old vm, op.deed answer = .shift key expected next ∧
      s.vm? key = some old ∧ old.status ∈ expected ∧ vm.key = key ∧ vm.id = old.id ∧
      vm.status = next ∧ s' = s.setVm key fun _ => vm) ∨
    ∃ key, op.deed answer = .remove key ∧ s' = (s.removeVm key).2 := by
  have unchanged : s' = s → s'.vms = s.vms ∧ s'.nextVm = s.nextVm := by
    rintro rfl
    exact ⟨rfl, rfl⟩
  have tasks : ∀ {id f}, (s' = s.setTask id f) ∨ (s.taskRow? id = none ∧ s' = s) →
      s'.vms = s.vms ∧ s'.nextVm = s.nextVm := by
    rintro id f (rfl | ⟨-, same⟩)
    · exact ⟨rfl, rfl⟩
    · exact unchanged same
  cases op with
  | now => exact .inl (unchanged h.now)
  | findVm => exact .inl (unchanged h.findVm.2)
  | vmsIn => exact .inl (unchanged h.vmsIn.2)
  | call => exact .inl (unchanged h.call)
  | transition key expected next patch =>
    rcases h.transition with ⟨old, now, found, source, -, same⟩ | ⟨e, -, same, -⟩
    · obtain ⟨-, rfl⟩ := Store.vm?_mem found
      exact .inr (.inl ⟨old.key, expected, next, old, old.moved next patch now, rfl, found, source,
        rfl, rfl, rfl, same⟩)
    · exact .inl (unchanged same)
  | removeVm key => exact .inr (.inr ⟨key, rfl, h.removeVm⟩)
  | allocate =>
    rcases h.allocate with ⟨now, granted, slot, grant, -⟩ | ⟨e, -, same⟩
    · exact .inl (by rw [grant.slots_only]; exact ⟨rfl, rfl⟩)
    · exact .inl (unchanged same)
  | release =>
    obtain ⟨now, rfl⟩ := h.release
    exact .inl ⟨rfl, rfl⟩
  | claim =>
    rcases h.claim with ⟨now, found, claim, -⟩ | ⟨e, -, same⟩
    · rcases Store.claimNext_ok claim with ⟨-, same⟩ | ⟨_, _, -, -, -, -, -, -, rfl⟩
      · exact .inl (unchanged same)
      · exact .inl ⟨rfl, rfl⟩
    · exact .inl (unchanged same)
  | complete =>
    rcases h.complete with ⟨_, same⟩ | gone
    · exact .inl (tasks (.inl same))
    · exact .inl (tasks (f := id) (.inr gone))
  | fail =>
    rcases h.fail with ⟨_, same⟩ | gone
    · exact .inl (tasks (.inl same))
    · exact .inl (tasks (f := id) (.inr gone))
  | retry => exact .inl (tasks h.retry)
  | failAbandoned =>
    rcases h.failAbandoned with ⟨now, tasks, failed, -⟩ | ⟨e, -, same⟩
    · rw [(Store.failAbandoned_ok failed).2]
      exact .inl ⟨rfl, rfl⟩
    · exact .inl (unchanged same)

end Effect

theorem Act.Possible.vm?_cases {a : Act} (h : a.Possible) (key : Int) :
    a.after.vm? key = a.before.vm? key ∨
    (∃ expected old vm, a.deed = .shift key expected vm.status ∧ a.before.vm? key = some old ∧
      old.status ∈ expected ∧ a.after.vm? key = some vm) ∨
    (a.deed = .remove key ∧ a.after.vm? key = none) := by
  obtain ⟨_, op, answer, deed, effect⟩ := h
  rw [deed]
  rcases effect.vms_cases with ⟨vms, -⟩ |
    ⟨k, expected, next, old, vm, shift, found, source, same, -, rfl, after⟩ | ⟨k, remove, after⟩
  · exact .inl (by rw [Store.vm?, vms]; rfl)
  · rw [after]
    by_cases hk : key = k
    · subst hk
      exact .inr (.inl ⟨expected, old, vm, shift, found, source, Store.vm?_setVm_self found same⟩)
    · exact .inl (Store.vm?_setVm_of_ne same hk)
  · rw [after]
    by_cases hk : key = k
    · subst hk
      exact .inr (.inr ⟨remove, Store.vm?_removeVm.trans (if_pos rfl)⟩)
    · exact .inl (Store.vm?_removeVm.trans (if_neg hk))

/-- What an operation makes of a row of the task table. -/
inductive Deed.Treats : Deed → TaskRow → TaskRow → Prop
  | same {deed row} : Treats deed row row
  | claimed {task : Task} {row : TaskRow} {now : Stamp} (id : task.id = row.id)
      (pending : row.status = .pending) :
      Treats (.claim (some task)) row (Store.claimed row now)
  | ended {row : TaskRow} {status : TaskStatus} {now : Instant} {note : Option String}
      (final : status = .completed ∨ status = .failed) :
      Treats (.record row.id status) row (Store.finished row status now note)
  | requeued {row : TaskRow} {notBefore : Instant} {message : String} :
      Treats (.record row.id .pending) row
        { row with status := .pending, notBefore := .of notBefore, lastError := some message }
  | abandoned {row : TaskRow} {now : Instant} {note : Option String}
      (running : row.status = .running) :
      Treats .failAbandoned row (Store.finished row .failed now note)

namespace Effect

variable {β : Type} {s s' : Store} {op : Operation β} {answer : β}

/-- An operation keeps the rows of the task table, each of them as the operation treats it. -/
theorem tasks_map (h : Effect s op answer s') (distinct : s.TasksDistinct) :
    ∃ f : TaskRow → TaskRow, s'.tasks = s.tasks.map f ∧ (∀ row, (f row).id = row.id) ∧
      ∀ row ∈ s.tasks, (op.deed answer).Treats row (f row) := by
  have unchanged : s'.tasks = s.tasks → ∃ f : TaskRow → TaskRow, s'.tasks = s.tasks.map f ∧
      (∀ row, (f row).id = row.id) ∧ ∀ row ∈ s.tasks, (op.deed answer).Treats row (f row) :=
    fun same => ⟨id, by rw [same, List.map_id], fun _ => rfl, fun _ _ => .same⟩
  -- Some rows are changed, and each of them as the operation treats it.
  have updated : ∀ {p : TaskRow → Bool} {f : TaskRow → TaskRow},
      s'.tasks = Store.updateWhere p f s.tasks → (∀ row, (f row).id = row.id) →
      (∀ row ∈ s.tasks, p row = true → (op.deed answer).Treats row (f row)) →
      ∃ f : TaskRow → TaskRow, s'.tasks = s.tasks.map f ∧ (∀ row, (f row).id = row.id) ∧
        ∀ row ∈ s.tasks, (op.deed answer).Treats row (f row) := by
    intro p f same ids treats
    refine ⟨_, same, fun row => ?_, fun row hrow => ?_⟩
    · split
      · exact ids row
      · rfl
    · split
      · next hit => exact treats row hrow hit
      · exact .same
  cases op with
  | now => exact unchanged (by rw [h.now])
  | findVm => exact unchanged (by rw [h.findVm.2])
  | vmsIn => exact unchanged (by rw [h.vmsIn.2])
  | call => exact unchanged (by rw [h.call])
  | transition =>
    rcases h.transition with ⟨_, _, -, -, -, same⟩ | ⟨_, -, same, -⟩
    · exact unchanged (by rw [same]; rfl)
    · exact unchanged (by rw [same])
  | removeVm => exact unchanged (by rw [h.removeVm]; rfl)
  | allocate =>
    rcases h.allocate with ⟨_, _, _, grant, -⟩ | ⟨_, -, same⟩
    · exact unchanged (by rw [grant.slots_only])
    · exact unchanged (by rw [same])
  | release =>
    obtain ⟨_, same⟩ := h.release
    exact unchanged (by rw [same]; rfl)
  | claim =>
    rcases h.claim with ⟨now, found, claim, rfl⟩ | ⟨_, -, same⟩
    · rcases Store.claimNext_ok claim with ⟨-, same⟩ |
        ⟨row, task, hrow, pending, rfl, id, -, -, same⟩
      · exact unchanged (by rw [same])
      · refine updated (congrArg Store.tasks same) (fun _ => rfl) fun x hx hit => ?_
        have only : x = row := List.inj_on_of_nodup_map distinct hx hrow (beq_iff_eq.mp hit)
        subst only
        exact .claimed id pending
    · exact unchanged (by rw [same])
  | complete =>
    rcases h.complete with ⟨now, same⟩ | ⟨-, same⟩
    · refine updated (congrArg Store.tasks same) (fun _ => rfl) fun x _ hit => ?_
      cases beq_iff_eq.mp hit
      exact .ended (.inl rfl)
    · exact unchanged (by rw [same])
  | fail =>
    rcases h.fail with ⟨now, same⟩ | ⟨-, same⟩
    · refine updated (congrArg Store.tasks same) (fun _ => rfl) fun x _ hit => ?_
      cases beq_iff_eq.mp hit
      exact .ended (.inr rfl)
    · exact unchanged (by rw [same])
  | retry =>
    rcases h.retry with same | ⟨-, same⟩
    · refine updated (congrArg Store.tasks same) (fun _ => rfl) fun x _ hit => ?_
      cases beq_iff_eq.mp hit
      exact .requeued
    · exact unchanged (by rw [same])
  | failAbandoned =>
    rcases h.failAbandoned with ⟨now, tasks, failed, -⟩ | ⟨_, -, same⟩
    · refine updated (congrArg Store.tasks (Store.failAbandoned_ok failed).2) (fun _ => rfl)
        fun x _ hit => .abandoned ?_
      simp only [Store.isAbandoned, Bool.and_eq_true, beq_iff_eq] at hit
      exact hit.1
    · exact unchanged (by rw [same])

theorem claimNext {task : Task} (h : Effect s op answer s')
    (claims : op.deed answer = .claim (some task)) :
    ∃ now, s.claimNext now = .ok (some task, s') := by
  cases op <;> try cases claims
  next =>
    have got : answer.toOption.join = some task := Deed.claim.inj claims
    rcases h.claim with ⟨now, found, claim, rfl⟩ | ⟨_, rfl, -⟩
    · cases got
      exact ⟨now, claim⟩
    · cases got

theorem claimed {task : Task} (h : Effect s op answer s')
    (claims : op.deed answer = .claim (some task)) :
    ∃ row ∈ s.tasks, row.status = .pending ∧ row.id = task.id ∧ row.kind = task.kind ∧
      row.vmKey = task.vmKey ∧ ∃ now : Stamp, s' = s.setTask row.id (Store.claimed · now) := by
  obtain ⟨now, claim⟩ := h.claimNext claims
  rcases Store.claimNext_ok claim with ⟨none, -⟩ | ⟨row, _, hrow, pending, some, id, kind, vmKey,
    same⟩
  · cases none
  · cases some
    exact ⟨row, hrow, pending, id.symm, kind.symm, vmKey.symm, .of now, same⟩

theorem recorded {id : String} {status : TaskStatus} {row : TaskRow} (h : Effect s op answer s')
    (records : op.deed answer = .record id status) (found : s.taskRow? id = some row) :
    status ≠ .running ∧ ∃ row', s'.taskRow? id = some row' ∧ row'.status = status := by
  have written : ∀ {f : TaskRow → TaskRow}, s' = s.setTask id f ∨
      (s.taskRow? id = none ∧ s' = s) → (∀ row, (f row).id = row.id) →
      s'.taskRow? id = some (f row) := by
    rintro f (rfl | ⟨gone, -⟩) ids
    · rw [Store.taskRow?_setTask ids, found, Option.map_some]
    · cases found.symm.trans gone
  cases op <;> cases records
  case complete note =>
    rcases h.complete with ⟨now, same⟩ | gone
    · exact ⟨by decide, _, written (.inl same) fun _ => rfl, rfl⟩
    · cases found.symm.trans gone.1
  case fail message =>
    rcases h.fail with ⟨now, same⟩ | gone
    · exact ⟨by decide, _, written (.inl same) fun _ => rfl, rfl⟩
    · cases found.symm.trans gone.1
  case retry notBefore message =>
    exact ⟨by decide, _, written h.retry fun _ => rfl, rfl⟩

end Effect

/-! ## Whole programs -/

namespace Program

variable {α β : Type} {G G' : List Act → Act → Prop} {Q : List Act → α → Prop} {past : List Act}

/-- Whatever others write between the operations of the program, each operation satisfies `G` with
those that the program carried out before it, and a result satisfies `Q` with all of them. -/
def Along (G : List Act → Act → Prop) (Q : List Act → α → Prop) : Program α → List Act → Prop
  | .pure a, past => Q past a
  | .ask op next, past => ∀ b s s', Effect s op b s' →
      G past ⟨op.deed b, s, s'⟩ ∧ (next b).Along G Q (past ++ [⟨op.deed b, s, s'⟩])
  | .crash _, _ => True

theorem Along.imp {p : Program α} {Q' : List Act → α → Prop} (h : p.Along G Q past)
    (acts : ∀ past a, G past a → G' past a) (result : ∀ past r, Q past r → Q' past r) :
    p.Along G' Q' past := by
  induction p generalizing past with
  | pure a => exact result past a h
  | ask op next ih =>
    intro b s s' effect
    obtain ⟨act, rest⟩ := h b s s' effect
    exact ⟨acts _ _ act, ih b rest⟩
  | crash why => trivial

/-- Every operation finds and leaves stores such as it may. -/
theorem along_possible (p : Program α) (past : List Act) :
    p.Along (fun _ a => a.Possible) (fun _ _ => True) past := by
  induction p generalizing past with
  | pure a => trivial
  | ask op next ih => exact fun b s s' effect => ⟨⟨_, op, b, rfl, effect⟩, ih b _⟩
  | crash why => trivial

theorem Along.bind {p : Program α} {f : α → Program β} {R : List Act → β → Prop}
    (h : p.Along G (fun past a => (f a).Along G R past) past) : (p >>= f).Along G R past := by
  induction p generalizing past with
  | pure a => exact h
  | ask op next ih =>
    intro b s s' effect
    obtain ⟨act, rest⟩ := h b s s' effect
    exact ⟨act, ih b rest⟩
  | crash why => trivial

theorem Along.perform {op : Operation β} {f : β → Program α}
    (h : ∀ b s s', Effect s op b s' →
      G past ⟨op.deed b, s, s'⟩ ∧ (f b).Along G Q (past ++ [⟨op.deed b, s, s'⟩])) :
    (Program.perform op >>= f).Along G Q past :=
  h

theorem Along.pure {a : α} (h : Q past a) : (Pure.pure a : Program α).Along G Q past :=
  h

/-- What each operation keeps of those before it holds with every operation and at the end. -/
theorem Along.keeps {p : Program α} {I : List Act → Prop} (h : p.Along G Q past)
    (keep : ∀ past a, G past a → I past → I (past ++ [a])) (start : I past) :
    p.Along (fun past a => G past a ∧ I past) (fun past r => Q past r ∧ I past) past := by
  induction p generalizing past with
  | pure a => exact ⟨h, start⟩
  | ask op next ih =>
    intro b s s' effect
    obtain ⟨act, rest⟩ := h b s s' effect
    exact ⟨⟨act, start⟩, ih b rest (keep _ _ act start)⟩
  | crash why => trivial

theorem Along.within {p : Program α} {limit : Instant} {Q : List Act → Option α → Prop}
    (h : p.Along (fun past a => G past a ∧ ∀ c, a.deed = .call c none → Q (past ++ [a]) none)
      (fun past r => Q past (some r)) past) : (p.within limit).Along G Q past := by
  induction p generalizing past with
  | pure a => exact h
  | crash why => trivial
  | ask op next ih =>
    cases op
    case call c abortAt =>
      rw [Program.within]
      intro b s s' effect
      obtain ⟨⟨act, aborted⟩, rest⟩ := h b s s' effect
      refine ⟨act, ?_⟩
      cases b with
      | none => exact aborted c rfl
      | some r => exact ih (some r) rest
    all_goals
      intro b s s' effect
      obtain ⟨⟨act, -⟩, rest⟩ := h b s s' effect
      exact ⟨act, ih b rest⟩

end Program

/-! ## With nobody else at work -/

namespace Program

variable {α : Type} {G : List Act → Act → Prop} {Q : List Act → α → Prop} {past : List Act}
  {p : Provisioner} {w : World}

/-- The operations that a run carries out, in order. -/
def acts (p : Provisioner) : Program α → World → List Act
  | .pure _, _ => []
  | .ask op next, w =>
    let (answer, w') := w.perform p.tool op
    ⟨op.deed answer, w.store, w'.store⟩ :: (next answer).acts p w'
  | .crash _, _ => []

theorem acts_ask {β : Type} {op : Operation β} {next : β → Program α} :
    (ask op next).acts p w = ⟨op.deed (w.perform p.tool op).1, w.store,
      (w.perform p.tool op).2.store⟩ :: (next (w.perform p.tool op).1).acts p
        (w.perform p.tool op).2 :=
  rfl

theorem events_eq (program : Program α) (p : Provisioner) (w : World) :
    program.events p w = (program.acts p w).map Act.event := by
  induction program generalizing w with
  | pure a => rfl
  | ask op next ih =>
    simp only [events, acts, List.map_cons, Act.event, Operation.call?_deed, ih]
  | crash why => rfl

theorem Along.acts {program : Program α} (h : program.Along G Q past) (quiet : w.coming = []) :
    ∀ earlier a later, program.acts p w = earlier ++ a :: later → G (past ++ earlier) a := by
  induction program generalizing past w with
  | pure a =>
    intro earlier a later split
    simp [Program.acts] at split
  | crash why =>
    intro earlier a later split
    simp [Program.acts] at split
  | ask op next ih =>
    intro earlier a later split
    obtain ⟨act, rest⟩ := h _ _ _ (.of_perform p op quiet)
    rw [acts_ask] at split
    cases earlier with
    | nil =>
      obtain ⟨rfl, -⟩ := List.cons.inj split
      rwa [List.append_nil]
    | cons first earlier =>
      obtain ⟨rfl, others⟩ := List.cons.inj split
      rw [List.append_cons]
      exact ih _ rest (World.perform_coming p op quiet) earlier a later others

end Program

end VmFleet
