/-
A client asks for a VM: its record is stored first, under the first drawn id that
no record has, and its create task after it. Either both are there or neither is,
also where the store takes the one and not the other.
-/
import VmFleet.Proofs.DataModel

namespace VmFleet

/-- The request keeps every rule. -/
structure Draft.KeepsRules (d : Draft) : Prop where
  name : NameFits d.name
  description : ∀ text, d.description = some text → text.length ≤ 500
  vcpus : 1 ≤ d.vcpus ∧ d.vcpus ≤ 32
  memory : 128 ≤ d.memoryMb ∧ d.memoryMb ≤ 32768
  owner : d.owner ≠ ""

theorem Draft.fault?_eq_none_iff {d : Draft} : d.fault? = none ↔ d.KeepsRules := by
  rw [fault?_eq_none]
  constructor
  · rintro ⟨name, description, vcpus, memory, owner⟩
    exact ⟨name, description, vcpus, memory, owner⟩
  · rintro ⟨name, description, vcpus, memory, owner⟩
    exact ⟨name, description, vcpus, memory, owner⟩

namespace Client

/-! ## A store that fails -/

/-- What a failing store answers instead of storing a row: the record under one of the drawn ids,
counted by the draws that are left after it, or the task. What it has stored it can read. -/
structure Outage where
  vm : Nat → Option Error := fun _ => none
  task : Option Error := none

/-- Draws ids as `insertFresh` does. Only a taken id is a reason to draw again. -/
def insertFreshDespite (o : Outage) (s : Store) (now : Instant) (draft : Draft) :
    (turns : Nat) → (ids : List String) → Except Error (Vm × Store)
  | turns + 1, id :: ids =>
    match o.vm turns with
    | some e => .error e
    | none =>
      match s.insertVm now id draft with
      | .ok r => .ok r
      | .error e =>
        if turns = 0 || ids.isEmpty then .error e else insertFreshDespite o s now draft turns ids
  | _, _ => .error (.validation "could not generate a VM id")

/-- Asks for a VM as `createVm` does, of a store that may fail. A record without its task can be
removed again. -/
def createVmDespite (o : Outage) (s : Store) (now : Instant) (maxAttempts : Nat)
    (ids : List String) (taskId : String) (draft : Draft) (placement : Placement) :
    Except Error (Vm × Task) × Store :=
  match checkRule draft.fault? with
  | .error e => (.error e, s)
  | .ok () =>
    match insertFreshDespite o s now draft idDraws ids with
    | .error e => (.error e, s)
    | .ok (vm, s) =>
      let params : TaskParams := ⟨placement.host, placement.pool, draft.kernelPath⟩
      match o.task with
      | some e => (.error e, (s.removeVm vm.key).2)
      | none =>
        match Queue.enqueue s now maxAttempts taskId .create vm.key params with
        | .ok (task, s) => (.ok (vm, task), s)
        | .error e => (.error e, (s.removeVm vm.key).2)

/-- What a store has more when a VM was accepted: a pending record of what was asked for, under the
first drawn id that no record had, and a pending create task for it. -/
structure Accepted (s : Store) (now : Instant) (maxAttempts : Nat) (ids : List String)
    (taskId : String) (draft : Draft) (placement : Placement) (vm : Vm) (task : Task) (s' : Store) :
    Prop where
  vms : s'.vms = s.vms ++ [vm]
  tasks : s'.tasks = s.tasks ++ [.ofTask task]
  elsewhere : s'.pools = s.pools ∧ s'.slots = s.slots
  drawn : ∃ front back, ids.take 3 = front ++ vm.id :: back ∧
    ∀ id ∈ front, ∃ other ∈ s.vms, other.id = id
  newId : ∀ other ∈ s.vms, other.id ≠ vm.id
  newKey : ∀ other ∈ s.vms, other.key ≠ vm.key
  vm_eq : vm = {
    key := s.nextVm
    id := vm.id
    name := draft.name
    description := draft.description
    vcpus := draft.vcpus
    memoryMb := draft.memoryMb
    address := none
    host := none
    kernelPath := draft.kernelPath
    rootfsPath := none
    status := .pending
    errorMessage := none
    owner := draft.owner
    createdAt := now.cutToMicros
    updatedAt := now.cutToMicros }
  task_eq : task = {
    id := taskId
    kind := .create
    vmKey := vm.key
    params := ⟨placement.host, placement.pool, draft.kernelPath⟩
    status := .pending
    attempts := 0
    maxAttempts := max 1 maxAttempts
    notBefore := now
    createdAt := now
    startedAt := none
    completedAt := none
    lastError := none }
  newTask : ∀ row ∈ s.tasks, row.id ≠ taskId

/-- How the request for a VM ends, and the store after it. A request that is refused leaves every
table as it was; the key of a record that went away again is not given out a second time. -/
inductive Ended (s : Store) (now : Instant) (maxAttempts : Nat) (ids : List String)
    (taskId : String) (draft : Draft) (placement : Placement) :
    Except Error (Vm × Task) × Store → Prop
  | accepted {vm task s'} (keeps : draft.KeepsRules)
      (accepted : Accepted s now maxAttempts ids taskId draft placement vm task s') :
      Ended s now maxAttempts ids taskId draft placement (.ok (vm, task), s')
  | refused {e} : Ended s now maxAttempts ids taskId draft placement (.error e, s)
  | withdrawn {e} :
      Ended s now maxAttempts ids taskId draft placement
        (.error e, { s with nextVm := s.nextVm + 1 })

variable {o : Outage} {s s' : Store} {now : Instant} {maxAttempts : Nat} {ids : List String}
  {id taskId : String} {draft : Draft} {placement : Placement} {vm : Vm} {turns : Nat}

/-- Where nothing fails the requests are the same. -/
theorem createVmDespite_none (s : Store) (now : Instant) (maxAttempts : Nat) (ids : List String)
    (taskId : String) (draft : Draft) (placement : Placement) :
    createVmDespite {} s now maxAttempts ids taskId draft placement =
      createVm s now maxAttempts ids taskId draft placement := by
  have drawn : ∀ turns ids, insertFreshDespite {} s now draft turns ids =
      insertFresh s now draft turns ids := by
    intro turns ids
    fun_induction insertFresh s now draft turns ids with
    | case1 turns id ids r inserted => simp only [insertFreshDespite, inserted]
    | case2 turns id ids e refused last => simp only [insertFreshDespite, refused, last, if_true]
    | case3 turns id ids e refused more ih =>
      simp only [insertFreshDespite, refused, more, Bool.false_eq_true, if_false, ih]
    | case4 turns ids stuck => rw [insertFreshDespite]; exact stuck
  simp only [createVmDespite, drawn]
  rfl

/-! ## Drawing an id -/

theorem vmById?_eq_none_iff : s.vmById? id = none ↔ ∀ vm ∈ s.vms, vm.id ≠ id := by
  simp [Store.vmById?, List.find?_eq_none]

theorem taskRow?_eq_none_iff : s.taskRow? id = none ↔ ∀ row ∈ s.tasks, row.id ≠ id := by
  simp [Store.taskRow?, List.find?_eq_none]

theorem insertVm_error {e : Error} (h : s.insertVm now id draft = .error e) :
    ∃ vm ∈ s.vms, vm.id = id := by
  simp only [Store.insertVm] at h
  split at h
  · next taken =>
    obtain ⟨vm, found⟩ := Option.isSome_iff_exists.mp taken
    exact ⟨vm, List.mem_of_find?_eq_some found, by simpa using List.find?_some found⟩
  · cases h

/-- A record is stored under the first of the drawn ids that no record has. -/
theorem insertFreshDespite_ok {r : Vm × Store}
    (h : insertFreshDespite o s now draft turns ids = .ok r) :
    ∃ front id back, ids.take turns = front ++ id :: back ∧
      (∀ id ∈ front, ∃ other ∈ s.vms, other.id = id) ∧ s.insertVm now id draft = .ok r := by
  fun_induction insertFreshDespite o s now draft turns ids with
  | case1 => cases h
  | case2 turns id ids _ r' inserted =>
    exact ⟨[], id, ids.take turns, rfl, nofun, inserted.trans h⟩
  | case3 => cases h
  | case4 turns id ids _ e taken _ ih =>
    obtain ⟨front, next, back, split, used, inserted⟩ := ih h
    refine ⟨id :: front, next, back, congrArg (id :: ·) split, ?_, inserted⟩
    exact List.forall_mem_cons.mpr ⟨insertVm_error taken, used⟩
  | case5 => cases h

theorem insertFresh_ok_iff : (∃ r, insertFresh s now draft turns ids = .ok r) ↔
    ∃ id ∈ ids.take turns, ∀ vm ∈ s.vms, vm.id ≠ id := by
  fun_induction insertFresh s now draft turns ids with
  | case1 turns id ids r inserted =>
    obtain ⟨free, -⟩ := Store.insertVm_ok inserted
    exact ⟨fun _ => ⟨id, List.mem_cons_self, vmById?_eq_none_iff.mp free⟩, fun _ => ⟨r, rfl⟩⟩
  | case2 turns id ids e taken last =>
    obtain ⟨vm, member, same⟩ := insertVm_error taken
    have rest : ids.take turns = [] := by
      rcases Bool.or_eq_true_iff.mp last with none | none
      · rw [of_decide_eq_true none, List.take_zero]
      · rw [List.isEmpty_iff.mp none, List.take_nil]
    simp only [List.take_succ_cons, rest, List.mem_singleton, exists_eq_left, reduceCtorEq,
      exists_false, false_iff, not_forall]
    exact ⟨vm, member, fun other => other same⟩
  | case3 turns id ids e taken _ ih =>
    obtain ⟨vm, member, same⟩ := insertVm_error taken
    rw [ih, List.take_succ_cons]
    constructor
    · rintro ⟨x, hx, free⟩
      exact ⟨x, List.mem_cons_of_mem id hx, free⟩
    · rintro ⟨x, hx, free⟩
      rcases List.mem_cons.mp hx with rfl | hx
      · exact absurd same (free vm member)
      · exact ⟨x, hx, free⟩
  | case4 turns ids stuck =>
    have rest : ids.take turns = [] := by
      cases turns with
      | zero => exact List.take_zero
      | succ turns =>
        cases ids with
        | nil => rfl
        | cons id ids => exact (stuck turns id ids rfl rfl).elim
    simp [rest]

/-! ## The whole request -/

theorem createVmDespite_ended (distinct : s.VmsDistinct) (o : Outage) :
    Ended s now maxAttempts ids taskId draft placement
      (createVmDespite o s now maxAttempts ids taskId draft placement) := by
  unfold createVmDespite
  split
  · exact .refused
  next keeps =>
  have keeps := Draft.fault?_eq_none_iff.mp (checkRule_eq_ok.mp keeps)
  split
  · exact .refused
  next vm s₁ inserted =>
  obtain ⟨front, id, back, drawn, used, inserted⟩ := insertFreshDespite_ok inserted
  have record := Store.insertVm_eq inserted
  obtain ⟨free, key, rfl, -, -, rfl⟩ := Store.insertVm_ok inserted
  have withdrawn := Store.removeVm_append_new key distinct (n := s.nextVm + 1)
  split
  · rw [withdrawn]
    exact .withdrawn
  dsimp only
  split
  · next task s₂ stored =>
    obtain ⟨isTask, queued, rfl⟩ := Fleet.enqueue_ok stored
    refine .accepted keeps ⟨rfl, rfl, ⟨rfl, rfl⟩, ⟨front, back, drawn, used⟩,
      vmById?_eq_none_iff.mp free, ?_, record, ?_, ?_⟩
    · intro other member
      have := distinct.fresh other member
      omega
    · rw [isTask, Nat.max_comm]
      rfl
    · subst isTask
      exact taskRow?_eq_none_iff.mp queued.fresh
  · rw [withdrawn]
    exact .withdrawn

theorem enqueue_unused {kind : TaskKind} {vmKey : Int} {params : TaskParams}
    (unused : ∀ row ∈ s.tasks, row.id ≠ taskId) :
    ∃ r, Queue.enqueue s now maxAttempts taskId kind vmKey params = .ok r := by
  have free : s.taskRow? taskId = none := taskRow?_eq_none_iff.mpr unused
  simp [Queue.enqueue, Store.insertTask, Task.fresh, free, Except.map]

/-- A request is accepted if it keeps the rules and one of three drawn ids is free. -/
theorem createVm_ok_iff (unused : ∀ row ∈ s.tasks, row.id ≠ taskId) :
    (∃ r, (createVm s now maxAttempts ids taskId draft placement).1 = .ok r) ↔
      draft.KeepsRules ∧ ∃ id ∈ ids.take 3, ∀ vm ∈ s.vms, vm.id ≠ id := by
  have drawn : (∃ r, insertFresh s now draft idDraws ids = .ok r) ↔
      ∃ id ∈ ids.take 3, ∀ vm ∈ s.vms, vm.id ≠ id := insertFresh_ok_iff
  rw [← Draft.fault?_eq_none_iff, ← drawn]
  cases rules : draft.fault? with
  | some fault => simp [createVm, rules, checkRule]
  | none =>
    cases inserted : insertFresh s now draft idDraws ids with
    | error e => simp [createVm, rules, checkRule, inserted]
    | ok r =>
      obtain ⟨vm, s₁⟩ := r
      obtain ⟨id, -, stored⟩ := Fleet.insertFresh_ok inserted
      obtain ⟨-, -, -, -, -, rfl⟩ := Store.insertVm_ok stored
      have queued : ∃ r, Queue.enqueue { s with vms := s.vms ++ [vm], nextVm := s.nextVm + 1 } now
          maxAttempts taskId .create vm.key ⟨placement.host, placement.pool, draft.kernelPath⟩ =
            .ok r := enqueue_unused unused
      obtain ⟨⟨task, s₂⟩, queued⟩ := queued
      simp [createVm, rules, checkRule, inserted, queued]

/-- **A request for a VM stores a pending record and its create task, or it is refused and stores
neither, also where the store takes the record and not the task.** Where the store takes both, a
request is accepted exactly if it keeps the rules and one of the first three drawn ids is free. -/
theorem created_with_task_or_refused (distinct : s.VmsDistinct) (now : Instant)
    (maxAttempts : Nat) (ids : List String) (taskId : String) (draft : Draft)
    (placement : Placement) :
    (∀ o, Ended s now maxAttempts ids taskId draft placement
      (createVmDespite o s now maxAttempts ids taskId draft placement)) ∧
    Ended s now maxAttempts ids taskId draft placement
      (createVm s now maxAttempts ids taskId draft placement) ∧
    ((∀ row ∈ s.tasks, row.id ≠ taskId) →
      ((∃ r, (createVm s now maxAttempts ids taskId draft placement).1 = .ok r) ↔
        draft.KeepsRules ∧ ∃ id ∈ ids.take 3, ∀ vm ∈ s.vms, vm.id ≠ id)) := by
  refine ⟨fun o => createVmDespite_ended distinct o, ?_, createVm_ok_iff⟩
  rw [← createVmDespite_none]
  exact createVmDespite_ended distinct {}

/-- A fleet with one VM, under an id that is drawn again. -/
def oneVm : Store :=
  (createVm .empty ⟨1, 0⟩ 3 ["srv-00000001"] "task-1" { name := "a", owner := "ada" } {}).2

/-- The id is drawn again and then another: that one is taken. Without a task nothing stays. -/
theorem secondVm_created :
    (∃ vm task s', Accepted oneVm ⟨2, 0⟩ 0 ["srv-00000001", "srv-00000002"] "task-2"
      { name := "b", owner := "ada", kernelPath := some "/k" } ⟨some "h1", some "lab"⟩ vm task s') ∧
    (createVmDespite { task := some (.database "disk full") } oneVm ⟨2, 0⟩ 0
      ["srv-00000001", "srv-00000002"] "task-2" { name := "b", owner := "ada" } {}).2.vms =
        oneVm.vms := by
  have distinct : oneVm.VmsDistinct := ⟨by decide +kernel, by decide +kernel, by decide +kernel⟩
  constructor
  · obtain ⟨-, ended, ok⟩ := created_with_task_or_refused distinct ⟨2, 0⟩ 0
      ["srv-00000001", "srv-00000002"] "task-2"
      { name := "b", owner := "ada", kernelPath := some "/k" } ⟨some "h1", some "lab"⟩
    have keeps : Draft.KeepsRules { name := "b", owner := "ada", kernelPath := some "/k" } :=
      Draft.fault?_eq_none_iff.mp (by decide +kernel)
    obtain ⟨r, answer⟩ := (ok (by decide +kernel)).mpr
      ⟨keeps, "srv-00000002", by decide, by decide +kernel⟩
    generalize createVm _ _ _ _ _ _ _ = ending at ended answer
    cases ended with
    | accepted _ accepted => exact ⟨_, _, _, accepted⟩
    | refused => cases answer
    | withdrawn => cases answer
  · have ended := (created_with_task_or_refused distinct ⟨2, 0⟩ 0 ["srv-00000001", "srv-00000002"]
      "task-2" { name := "b", owner := "ada" } {}).1 { task := some (.database "disk full") }
    have refused : (createVmDespite { task := some (.database "disk full") } oneVm ⟨2, 0⟩ 0
      ["srv-00000001", "srv-00000002"] "task-2" { name := "b", owner := "ada" } {}).1 =
        .error (.database "disk full") := by
      decide +kernel
    generalize createVmDespite _ _ _ _ _ _ _ _ = ending at ended refused ⊢
    cases ended with
    | accepted _ _ => cases refused
    | refused => rfl
    | withdrawn => rfl

end Client

end VmFleet
