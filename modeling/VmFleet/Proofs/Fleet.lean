/-
A fleet in use: requests of clients, runs of workers, sweeps and recoveries, one
after the other from any store. A worker may die after any operation; the store
is then left as its last operation left it. The log of a use has one entry for
each request and each operation.
-/
import VmFleet.Client.Requests
import VmFleet.Proofs.AllocatorCalls
import VmFleet.Proofs.Working

namespace VmFleet.Fleet

/-! ## Steps -/

/-- What a client asks for. It is answered at once. -/
inductive Request where
  | createPool (name cidr gateway : String) (description : Option String)
  | setPoolActive (name : String) (active : Bool)
  | createVm (maxAttempts : Nat) (ids : List String) (taskId : String) (draft : Draft)
    (placement : Client.Placement)
  | updateVm (vmId owner : String) (name description : Option String)
  /-- A task for one of the owner's VMs. -/
  | ask (maxAttempts : Nat) (taskId : String) (kind : TaskKind) (vmId owner : String)
  /-- A task put straight into the queue, for whatever key. -/
  | enqueue (maxAttempts : Nat) (taskId : String) (kind : TaskKind) (vmKey : Int)
    (params : TaskParams)

open AllocatorCall (committed)

/-- The store after the request; one that is refused changes nothing. -/
def Request.apply (request : Request) (now : Instant) (s : Store) : Store :=
  match request with
  | .createPool name cidr gateway description =>
    (AllocatorCall.createPool name cidr gateway description).apply now s
  | .setPoolActive name active => (AllocatorCall.setActive name active).apply now s
  | .createVm maxAttempts ids taskId draft placement =>
    (Client.createVm s now maxAttempts ids taskId draft placement).2
  | .updateVm vmId owner name description =>
    committed s (Client.updateVm s now vmId owner name description)
  | .ask maxAttempts taskId kind vmId owner =>
    committed s (Client.request s now maxAttempts taskId kind vmId owner)
  | .enqueue maxAttempts taskId kind vmKey params =>
    committed s (Queue.enqueue s now maxAttempts taskId kind vmKey params)

/-- Work that takes several operations. -/
inductive Job where
  | runOnce (queue : QueueConfig) (settings : Lifecycle.Settings) (jitter : Jitter)
  | sweep (maxAge : Duration)
  | recover (kind : TaskKind) (vmKey : Int) (why : String)

theorem parts_pos : 0 < Backoff.parts := by decide

/-- A worker with everything but its hard limit as it comes. -/
def plainWorker (hardLimit : Duration) : Job :=
  .runOnce { hardLimit } ⟨"default", none, .ofSeconds 60⟩ ⟨0, parts_pos⟩

/-- The operations of a job that begins with the store at the given time. -/
def Job.events (job : Job) (tool : Provisioner) (now : Instant) (s : Store) : List Event :=
  match job with
  | .runOnce queue settings jitter =>
    (Queue.runOnce queue settings jitter).events tool { store := s, now }
  | .sweep maxAge => (Lifecycle.sweepStale maxAge).events tool { store := s, now }
  | .recover kind vmKey why =>
    (Lifecycle.recoverAborted kind vmKey why).events tool { store := s, now }

/-- A request, a job, or one that is cut short. -/
inductive Step where
  | request (request : Request) (now : Instant)
  | work (job : Job) (tool : Provisioner) (now : Instant)
  /-- Whoever does the job dies after so many operations. -/
  | death (job : Job) (tool : Provisioner) (now : Instant) (operations : Nat)

namespace Step

/-- The operations of a step. A request is one. -/
def events (s : Store) : Step → List Event
  | .request r now => [⟨s, r.apply now s, none⟩]
  | .work job tool now => job.events tool now s
  | .death job tool now operations => (job.events tool now s).take operations

/-- The store after the step. -/
def after (s : Store) (step : Step) : Store :=
  Event.last s (step.events s)

/-- The job of a step, with the time it begins at. -/
def job? : Step → Option (Job × Instant)
  | .request _ _ => none
  | .work job _ now | .death job _ now _ => some (job, now)

end Step

/-- One operation of a use, with its step and the store which that began with. -/
structure Entry where
  step : Step
  start : Store
  event : Event

/-- The operations of the steps, in order. -/
def log (s : Store) : List Step → List Entry
  | [] => []
  | step :: rest => (step.events s).map (⟨step, s, ·⟩) ++ log (step.after s) rest

/-- The store after the steps. -/
def after (s : Store) (steps : List Step) : Store :=
  steps.foldl Step.after s

variable {s s' : Store} {now : Instant} {steps : List Step}

theorem Job.events_linked (job : Job) (tool : Provisioner) (now : Instant) (s : Store) :
    Event.Linked s (job.events tool now s) := by
  cases job
  all_goals exact Program.events_linked (w := { store := s, now }) _

theorem Step.events_linked (step : Step) (s : Store) : Event.Linked s (step.events s) := by
  cases step with
  | request request now => exact ⟨rfl, trivial⟩
  | work job tool now => exact job.events_linked tool now s
  | death job tool now operations => exact (job.events_linked tool now s).take operations

theorem events_log_cons (step : Step) (rest : List Step) (s : Store) :
    (log s (step :: rest)).map (·.event) =
      step.events s ++ (log (step.after s) rest).map (·.event) := by
  simp [log, Function.comp_def]

theorem log_linked (steps : List Step) (s : Store) :
    Event.Linked s ((log s steps).map (·.event)) := by
  induction steps generalizing s with
  | nil => trivial
  | cons step rest ih =>
    rw [events_log_cons]
    exact Event.linked_append.mpr ⟨step.events_linked s, ih (step.after s)⟩

theorem last_log (steps : List Step) (s : Store) :
    Event.last s ((log s steps).map (·.event)) = after s steps := by
  induction steps generalizing s with
  | nil => rfl
  | cons step rest ih =>
    rw [events_log_cons, Event.last_append]
    exact ih (step.after s)

/-- What comes after an entry begins with the store it left and leads to the end. -/
theorem log_split {earlier later : List Entry} {entry : Entry}
    (split : log s steps = earlier ++ entry :: later) :
    Event.Linked entry.event.after (later.map (·.event)) ∧
      Event.last entry.event.after (later.map (·.event)) = after s steps := by
  have linked := log_linked steps s
  have last := last_log steps s
  rw [split, List.map_append, List.map_cons] at linked last
  rw [Event.last_append] at last
  exact ⟨(Event.linked_append.mp linked).2.2, last⟩

/-! ## What a request does -/

/-- A row as it is put into the queue: under a new id, not begun, with an attempt left. -/
structure Queued (s : Store) (row : TaskRow) : Prop where
  fresh : s.taskRow? row.id = none
  waits : row.status = .pending
  left : row.attempts < row.maxAttempts
  unended : row.completedAt = none

/-- What a request does to the store. -/
inductive Answers (s : Store) (now : Instant) : Store → Prop
  | refused : Answers s now s
  | pools {s' : Store} (sound : s.SlotsSound → s'.SlotsSound) (rest : s' = { s with
        pools := s'.pools
        slots := s'.slots
        nextPool := s'.nextPool
        nextSlot := s'.nextSlot })
      (holders : ∀ id, s'.activeSlot? id = s.activeSlot? id) : Answers s now s'
  /-- A VM is stored, and with it the task that is to create it. -/
  | created {vm : Vm} {task : TaskRow} (free : s.vmById? vm.id = none) (key : vm.key = s.nextVm)
      (status : vm.status = .pending) (address : vm.address = none) (queued : Queued s task)
      (kind : task.kind = .create) (own : task.vmKey = vm.key) :
      Answers s now { s with
        vms := s.vms ++ [vm]
        nextVm := s.nextVm + 1
        tasks := s.tasks ++ [task] }
  /-- A key was used up for a VM whose task could not be stored. -/
  | withdrawn : Answers s now { s with nextVm := s.nextVm + 1 }
  | edited {old vm : Vm} (found : s.vm? vm.key = some old) (id : vm.id = old.id)
      (status : vm.status = old.status) (address : vm.address = old.address) :
      Answers s now (s.setVm vm.key fun _ => vm)
  | queued {task : TaskRow} (queued : Queued s task) :
      Answers s now { s with tasks := s.tasks ++ [task] }

/-- A request leaves the rows of tasks as they are and puts one behind them at most. -/
theorem Answers.tasks (h : Answers s now s') :
    s'.tasks = s.tasks ∨ ∃ row, Queued s row ∧ s'.tasks = s.tasks ++ [row] := by
  cases h with
  | refused | withdrawn | edited => exact .inl rfl
  | pools _ rest _ => exact .inl (by rw [rest])
  | created _ _ _ _ queued | queued queued => exact .inr ⟨_, queued, rfl⟩

theorem insertFresh_ok {draft : Draft} {turns : Nat} {ids : List String} {r : Vm × Store}
    (h : Client.insertFresh s now draft turns ids = .ok r) :
    ∃ id ∈ ids, s.insertVm now id draft = .ok r := by
  fun_induction Client.insertFresh s now draft turns ids with
  | case1 turns id ids r' inserted => exact ⟨id, List.mem_cons_self, inserted.trans h⟩
  | case2 turns id ids e refused last => cases h
  | case3 turns id ids e refused more ih =>
    obtain ⟨id, member, inserted⟩ := ih h
    exact ⟨id, List.mem_cons_of_mem _ member, inserted⟩
  | case4 => cases h

theorem enqueue_ok {maxAttempts : Nat} {taskId : String} {kind : TaskKind} {vmKey : Int}
    {params : TaskParams} {task : Task}
    (h : Queue.enqueue s now maxAttempts taskId kind vmKey params = .ok (task, s')) :
    task = .fresh taskId kind vmKey params maxAttempts now ∧ Queued s (.ofTask task) ∧
      s' = { s with tasks := s.tasks ++ [.ofTask task] } := by
  simp only [Queue.enqueue, Store.insertTask] at h
  split at h
  · cases h
  · next unused =>
    simp only [Except.map, Except.ok.injEq, Prod.mk.injEq] at h
    obtain ⟨rfl, rfl⟩ := h
    have left : 0 < max maxAttempts 1 := by omega
    have fresh : s.taskRow? taskId = none := Option.not_isSome_iff_eq_none.mp unused
    exact ⟨rfl, ⟨fresh, rfl, left, rfl⟩, rfl⟩

theorem Answers.enqueue {maxAttempts : Nat} {taskId : String} {kind : TaskKind} {vmKey : Int}
    {params : TaskParams} :
    Answers s now (committed s (Queue.enqueue s now maxAttempts taskId kind vmKey params)) := by
  cases stored : Queue.enqueue s now maxAttempts taskId kind vmKey params with
  | error e => exact .refused
  | ok r =>
    obtain ⟨-, queued, same⟩ := enqueue_ok stored
    simp only [committed, same]
    exact .queued queued

theorem Answers.createVm (distinct : s.VmsDistinct) {maxAttempts : Nat} {ids : List String}
    {taskId : String} {draft : Draft} {placement : Client.Placement} :
    Answers s now (Client.createVm s now maxAttempts ids taskId draft placement).2 := by
  simp only [Client.createVm]
  split
  · exact .refused
  split
  · exact .refused
  next vm s₁ inserted =>
  obtain ⟨id, -, inserted⟩ := insertFresh_ok inserted
  obtain ⟨free, key, rfl, status, address, rfl⟩ := Store.insertVm_ok inserted
  split
  · next task s₂ stored =>
    obtain ⟨rfl, queued, rfl⟩ := enqueue_ok stored
    -- The VM that was stored just before has changed nothing about the tasks.
    have queued : Queued s _ := ⟨queued.fresh, queued.waits, queued.left, queued.unended⟩
    exact .created free key status address queued rfl rfl
  · rw [Store.removeVm_append_new key distinct]
    exact .withdrawn

theorem Answers.updateVm {vmId owner : String} {name description : Option String} :
    Answers s now (committed s (Client.updateVm s now vmId owner name description)) := by
  cases done : Client.updateVm s now vmId owner name description with
  | error e => exact .refused
  | ok r =>
    obtain ⟨_, -, done⟩ := bind_ok done
    obtain ⟨_, -, done⟩ := bind_ok done
    obtain ⟨vm, -, done⟩ := bind_ok done
    obtain ⟨old, found, id, status, address, same⟩ := Store.updateVmDetails_ok done
    simp only [committed, same]
    exact .edited found id status address

theorem Answers.ask {maxAttempts : Nat} {taskId : String} {kind : TaskKind} {vmId owner : String} :
    Answers s now (committed s (Client.request s now maxAttempts taskId kind vmId owner)) := by
  cases done : Client.request s now maxAttempts taskId kind vmId owner with
  | error e => exact .refused
  | ok r =>
    obtain ⟨vm, -, stored⟩ := bind_ok done
    split at stored
    · rw [← stored]
      exact .enqueue
    · cases stored

theorem Answers.createPool {name cidr gateway : String} {description : Option String} :
    Answers s now ((AllocatorCall.createPool name cidr gateway description).apply now s) := by
  have does := AllocatorCall.does_apply (.createPool name cidr gateway description) now s
  generalize AllocatorCall.apply _ now s = s' at does
  have sound := does.slotsSound
  cases does with
  | refused => exact .refused
  | created read stored =>
    obtain ⟨-, -, same⟩ := Store.insertPool_ok stored
    refine .pools sound (by rw [same]) fun id => ?_
    rw [same]
    exact Store.find?_append_freeSlots _ _ _ _ _

theorem Answers.setPoolActive {name : String} {active : Bool} :
    Answers s now ((AllocatorCall.setActive name active).apply now s) := by
  have does := AllocatorCall.does_apply (.setActive name active) now s
  generalize AllocatorCall.apply _ now s = s' at does
  cases does with
  | refused => exact .refused
  | switched => exact .pools (fun sound => sound.congr rfl rfl) rfl fun _ => rfl

/-- Every request is answered in one of the ways. -/
theorem Request.answers (request : Request) (now : Instant) (distinct : s.VmsDistinct) :
    Answers s now (request.apply now s) := by
  cases request with
  | createPool name cidr gateway description => exact .createPool
  | setPoolActive name active => exact .setPoolActive
  | createVm maxAttempts ids taskId draft placement => exact .createVm distinct
  | updateVm vmId owner name description => exact .updateVm
  | ask maxAttempts taskId kind vmId owner => exact .ask
  | enqueue maxAttempts taskId kind vmKey params => exact .enqueue

/-! ## What a job does -/

/-- What an operation does of a job that begins with the store at the given time. -/
def Job.Does (job : Job) (s : Store) (now : Instant) (e : Event) : Prop :=
  match job with
  | .runOnce _ settings _ => Queue.Runs settings s now e
  | .sweep _ => Lifecycle.Sweeps s e
  | .recover kind vmKey _ => (e.after = e.before ∧ e.call = none) ∨
    ∃ vm, s.vm? vmKey = some vm ∧ Lifecycle.Recovers kind vm e

theorem Job.does (job : Job) (tool : Provisioner) (now : Instant) (distinct : s.VmsDistinct) :
    ∀ e ∈ job.events tool now s, job.Does s now e := by
  cases job with
  | runOnce queue settings jitter => exact (Queue.runOnce_holds rfl).1
  | sweep maxAge => exact (Lifecycle.sweepStale_holds distinct maxAge).events rfl
  | recover kind vmKey why =>
    have holds : (Lifecycle.recoverAborted kind vmKey why).Holds
        ((Job.recover kind vmKey why).Does s now) (fun _ _ => True) s := by
      cases found : s.vm? vmKey with
      | none => exact Lifecycle.recoverAborted_gone found (.inl ⟨rfl, rfl⟩) why trivial
      | some vm =>
        exact (Lifecycle.recoverAborted_holds found why).imp
          (fun e recovers => .inr ⟨vm, found, recovers⟩) fun _ _ _ => trivial
    exact holds.events rfl

theorem Step.does (step : Step) (distinct : s.VmsDistinct) : ∀ e ∈ step.events s,
    (step.job? = none ∧ e.before = s ∧ e.call = none ∧ ∃ now, Answers s now e.after) ∨
      ∃ job now, step.job? = some (job, now) ∧ job.Does s now e := by
  intro e he
  cases step with
  | request request now =>
    rw [List.mem_singleton.mp he]
    exact .inl ⟨rfl, rfl, rfl, now, request.answers now distinct⟩
  | work job tool now => exact .inr ⟨job, now, rfl, job.does tool now distinct e he⟩
  | death job tool now operations =>
    exact .inr ⟨job, now, rfl, job.does tool now distinct e (List.mem_of_mem_take he)⟩

/-- What every operation keeps holds after any steps, and what an operation shows where it holds is
shown of every entry of the log. -/
theorem log_invariant {I : Store → Prop} {G : Entry → Prop}
    (distinct : ∀ s, I s → s.VmsDistinct)
    (request : ∀ step s s' now, step.job? = none → Answers s now s' → I s →
      I s' ∧ G ⟨step, s, ⟨s, s', none⟩⟩)
    (job : ∀ step job now s e, step.job? = some (job, now) → job.Does s now e → I s → I e.before →
      I e.after ∧ G ⟨step, s, e⟩)
    (steps : List Step) (start : I s) :
    I (after s steps) ∧ ∀ entry ∈ log s steps, G entry := by
  induction steps generalizing s with
  | nil => exact ⟨start, fun e he => absurd he List.not_mem_nil⟩
  | cons step rest ih =>
    have one : ∀ e : Event,
        ((step.job? = none ∧ e.before = s ∧ e.call = none ∧ ∃ now, Answers s now e.after) ∨
          ∃ job now, step.job? = some (job, now) ∧ job.Does s now e) →
        I e.before → I e.after ∧ G ⟨step, s, e⟩ := by
      rintro ⟨_, after, _⟩ (⟨none, rfl, rfl, now, answers⟩ | ⟨job', now, some, does⟩) before
      · exact request step _ after now none answers start
      · exact job step job' now s _ some does start before
    obtain ⟨kept, shown⟩ :=
      (step.events_linked s).invariant (step.does (distinct s start)) one start
    obtain ⟨final, others⟩ := ih kept
    refine ⟨final, fun entry he => ?_⟩
    rcases List.mem_append.mp he with he | he
    · obtain ⟨e, member, rfl⟩ := List.mem_map.mp he
      exact shown e member
    · exact others entry he

end VmFleet.Fleet
