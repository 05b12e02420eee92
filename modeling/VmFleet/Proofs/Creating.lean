/-
What a create does to the addresses. It takes the lowest free address of its pool
before the tool is called, and whatever goes wrong after that, the address is
given back: the bindings are then those from before, and the record shows none.
If the create is done there is one binding more, and the record says of the VM
what the tool was told and what it reported.
-/
import VmFleet.Proofs.Independence
import VmFleet.Proofs.ToolOutput

namespace VmFleet

/-! ## Held addresses -/

/-- A held address: of which pool, and by whom. -/
structure Binding where
  poolKey : Int
  address : Ipv4
  holder : Option String
  deriving DecidableEq

def Slot.binding? (slot : Slot) : Option Binding :=
  if slot.active then some ⟨slot.poolKey, slot.address, slot.holder⟩ else none

namespace Store

def bindings (s : Store) : List Binding :=
  s.slots.filterMap Slot.binding?

/-- The slot has the lowest address of those that are free in the pool of this name, which gives
addresses out. -/
structure LowestFree (s : Store) (name : String) (pool : Pool) (slot : Slot) : Prop where
  known : s.poolByName? name = some pool
  active : pool.active = true
  member : slot ∈ s.slots
  owner : slot.poolKey = pool.key
  free : slot.active = false
  lowest : ∀ x ∈ s.slots, x.poolKey = pool.key → x.active = false → slot.address ≤ x.address

/-- The store once the slot is given to a VM. -/
def give (s : Store) (slot : Slot) (id : String) (now : Instant) : Store :=
  { s with slots := updateWhere (·.key == slot.key) (fun _ => taken slot id now) s.slots }

variable {s : Store} {name id : String} {now : Instant} {slot : Slot}

/-- A VM that holds no address is given the lowest free one, or there is none. -/
theorem allocate_bare (name : String) (now : Instant) (bare : s.activeSlot? id = none) :
    (∃ pool slot, s.LowestFree name pool slot ∧
      s.allocate now name id = .ok ((pool, taken slot id now), s.give slot id now)) ∨
      (∃ e, s.allocate now name id = .error e) ∧ ∀ pool slot, ¬ s.LowestFree name pool slot := by
  have free : ∀ {pool : Pool} {x : Slot},
      x ∈ (s.slotsOf pool.key).filter (fun slot => !slot.active) ↔
        x ∈ s.slots ∧ x.poolKey = pool.key ∧ x.active = false := by
    intro pool x
    simp only [slotsOf, List.mem_filter, beq_iff_eq, Bool.not_eq_true', and_assoc]
  cases known : s.poolByName? name with
  | none =>
    refine .inr ⟨⟨.unknownPool name, by simp only [allocate, known]⟩, fun pool slot lowest => ?_⟩
    cases known.symm.trans lowest.known
  | some pool =>
  by_cases inactive : pool.active = false
  · refine .inr ⟨⟨.unknownPool name, by
      simp only [allocate, known, inactive, Bool.not_false, if_true]⟩, fun pool' slot lowest => ?_⟩
    cases known.symm.trans lowest.known
    cases inactive.symm.trans lowest.active
  have active : pool.active = true := by simpa using inactive
  cases found : lowest? ((s.slotsOf pool.key).filter fun slot => !slot.active) with
  | none =>
    refine .inr ⟨⟨.exhausted pool.name (s.poolCounts pool.key).2 (s.poolCounts pool.key).1, by
      simp only [allocate, known, active, bare, found, Bool.not_true, Bool.false_eq_true,
        if_false]⟩, fun pool' slot lowest => ?_⟩
    cases known.symm.trans lowest.known
    have some := lowest?_isSome (List.ne_nil_of_mem
      (free.mpr ⟨lowest.member, lowest.owner, lowest.free⟩))
    rw [found] at some
    cases some
  | some slot =>
    obtain ⟨member, owner, unheld⟩ := free.mp (lowest?_mem found)
    refine .inl ⟨pool, slot, ⟨known, active, member, owner, unheld,
      fun x hx owner unheld => lowest?_le found x (free.mpr ⟨hx, owner, unheld⟩)⟩, ?_⟩
    simp only [allocate, known, active, bare, found, Bool.not_true, Bool.false_eq_true, if_false,
      give]

theorem slots_give (id : String) (now : Instant) (keys : (s.slots.map (·.key)).Nodup)
    (member : slot ∈ s.slots) :
    ∃ front back, s.slots = front ++ slot :: back ∧
      (s.give slot id now).slots = front ++ taken slot id now :: back :=
  updateWhere_eq_append (fun x : Slot => x.key) keys member fun _ => taken slot id now

theorem bindings_give (keys : (s.slots.map (·.key)).Nodup) (member : slot ∈ s.slots)
    (free : slot.active = false) : (s.give slot id now).bindings.Perm
      (⟨slot.poolKey, slot.address, some id⟩ :: s.bindings) := by
  obtain ⟨front, back, split, after⟩ := slots_give id now keys member
  have before : s.bindings = front.filterMap Slot.binding? ++ back.filterMap Slot.binding? := by
    have none : slot.binding? = none := by simp [Slot.binding?, free]
    rw [bindings, split, List.filterMap_append, List.filterMap_cons_none none]
  have new : (taken slot id now).binding? = some ⟨slot.poolKey, slot.address, some id⟩ := rfl
  rw [bindings, after, before, List.filterMap_append, List.filterMap_cons_some new]
  exact List.perm_middle

/-- What was given and is given back leaves the bindings from before. -/
theorem bindings_release_give (keys : (s.slots.map (·.key)).Nodup) (member : slot ∈ s.slots)
    (free : slot.active = false) (bare : s.activeSlot? id = none) (later : Instant) :
    ((s.give slot id now).release later id).2.bindings = s.bindings := by
  simp only [give, release, updateWhere, List.filterMap_map, bindings]
  refine List.filterMap_congr fun x hx => ?_
  by_cases same : x.key = slot.key
  · obtain rfl := List.inj_on_of_nodup_map keys hx member same
    simp [taken, freed, Slot.binding?, free]
  · have unheld : ¬(x.holder = some id ∧ x.active = true) := fun held =>
      activeSlot?_eq_none.mp bare x hx held.2 held.1
    simp [same, unheld]

end Store

/-! ## The parts of a handler as they run -/

namespace Program

theorem run_perform {α β : Type} {op : Operation β} {f : β → Program α} {tool : Tool} {w : World} :
    (perform op >>= f).run tool w = (f (w.perform tool op).1).run tool (w.perform tool op).2 :=
  rfl

end Program

namespace Lifecycle

variable {settings : Settings} {attempt : Attempt} {task : Task} {p : Provisioner} {w : World}
  {vm : Vm}

theorem transition_run (tool : Tool) {key : Int} {expected : List VmStatus}
    (found : w.store.vm? key = some vm) (source : vm.status ∈ expected) (next : VmStatus)
    (patch : VmPatch) :
    w.perform tool (.transition key expected next patch) =
      (.ok (vm.moved next patch w.now.cutToMicros), { w with
        store := w.store.setVm key fun _ => vm.moved next patch w.now.cutToMicros }) :=
  congrArg w.commit (Store.transition_of_mem next patch found source)

theorem enter_run (tool : Tool) (found : w.store.vm? task.vmKey = some vm)
    (source : vm.status ∈ task.kind.sources) :
    (enter task).run tool w =
      (.finished (.ok (vm.moved task.kind.via .clearError w.now.cutToMicros)), { w with
        store := w.store.setVm task.vmKey fun _ =>
          vm.moved task.kind.via .clearError w.now.cutToMicros }) := by
  rw [enter, Program.run_perform, transition_run tool found source]
  rfl

/-- A call that nobody aborts is recorded with its answer, and leaves the store alone. -/
theorem call_run (quiet : w.coming = []) (c : Call) :
    ∃ r w', w.perform p.tool (.call c none) = (some r, w') ∧ w'.store = w.store ∧
      w'.coming = [] ∧ w'.calls = w.calls ++ [⟨c, w.now, some r⟩] := by
  refine ⟨_, _, rfl, ?_⟩
  simp only [Provisioner.tool, List.foldl_nil, quiet]
  rw [World.reach_of_coming_eq_nil rfl]
  exact ⟨rfl, rfl, rfl⟩

/-- The tool is called at most once, and what comes back is its answer. -/
theorem provision_run (settings : Settings) (attempt : Attempt) (quiet : w.coming = [])
    (action : Action) (request : ProvisionRequest) :
    ∃ r w', (provision settings attempt action request).run p.tool w = (.finished r, w') ∧
      w'.store = w.store ∧ w'.coming = [] ∧
      ((w'.calls = w.calls ∧ ∃ e, r = .error e) ∨ ∃ budget start,
        w'.calls = w.calls ++ [⟨⟨action, request, budget⟩, start, some r⟩]) := by
  unfold provision
  rw [Program.run_now, World.advance_of_quiet quiet]
  dsimp only
  split
  · exact ⟨_, _, rfl, rfl, quiet, .inl ⟨rfl, _, rfl⟩⟩
  · obtain ⟨r, w', run, store, still, calls⟩ := call_run (p := p)
      (w := { w with now := w.now.after World.tick }) quiet
        ⟨action, request,
          min (attempt.deadline.since (w.now.after World.tick)) settings.toolTimeout⟩
    rw [Program.run_perform, run]
    exact ⟨r, w', rfl, store, still, .inr ⟨_, _, calls⟩⟩

/-- A task that failed ends with a move of its VM out of the status it was entered in. -/
theorem settleFailure_run (attempt : Attempt) (p : Provisioner)
    (found : w.store.vm? vm.key = some vm) (revert : VmStatus) (e : Error) :
    ∃ outcome next now, outcome ≠ .done ∧
      (settleFailure attempt vm revert e).run p.tool w = (.finished outcome, { w with
        store := w.store.setVm vm.key fun _ =>
          vm.moved next (failurePatch vm e.message) now }) := by
  have look : w.perform p.tool (.findVm vm.key) = (some vm, w) := by
    show (w.store.vm? vm.key, w) = _
    rw [found]
  rw [settleFailure, Program.run_perform, look]
  dsimp only [Option.map_some, Option.getD_some]
  split
  · refine ⟨.retry e.message, revert, w.now.cutToMicros, nofun, ?_⟩
    rw [Program.run_perform, transition_run p.tool found List.mem_cons_self]
    rfl
  · refine ⟨.failed e.message, .error, w.now.cutToMicros, nofun, ?_⟩
    show (Program.perform _ >>= fun _ => pure _ : Program Outcome).run p.tool w = _
    rw [Program.run_perform, transition_run p.tool found List.mem_cons_self]
    rfl

/-! ## Creates -/

/-- A VM that failed to be created is left without an address, and the bindings are as they were
when it was settled. -/
theorem settleFailure_unbound (attempt : Attempt) (p : Provisioner)
    (found : w.store.vm? vm.key = some vm)
    (status : vm.status = .provisioning) (e : Error) :
    ∃ outcome w' left, outcome ≠ .done ∧
      (settleFailure attempt vm .pending e).run p.tool w = (.finished outcome, w') ∧
      w'.store.bindings = w.store.bindings ∧ w'.calls = w.calls ∧
      w'.store.vm? vm.key = some left ∧ left.address = none := by
  obtain ⟨outcome, next, now, undone, run⟩ :=
    settleFailure_run attempt p found .pending e
  refine ⟨outcome, _, vm.moved next (failurePatch vm e.message) now, undone, run, rfl, rfl,
    Store.vm?_setVm_self found rfl, ?_⟩
  rw [Vm.moved_address, failurePatch_address, if_pos status]

/-- The rest of a create, with the address that was granted. -/
def createAt (settings : Settings) (attempt : Attempt) (task : Task) (vm : Vm) (address : String) :
    Program Outcome := do
  let undo (e : Error) : Program Outcome := do
    let _ ← Program.perform (.release vm.id)
    settleFailure attempt vm .pending e
  let address := some address
  let host := task.params.host <|> settings.defaultHost
  let kernelPath := task.params.kernelPath <|> vm.kernelPath
  match ← provision settings attempt .create (requestFor vm address host kernelPath) with
  | .error e => undo e
  | .ok report =>
    let patch := createdPatch address host kernelPath report
    match ← Program.perform (.transition vm.key [.provisioning] .running patch) with
    | .ok _ => return .done
    | .error e => undo e

theorem create_eq (settings : Settings) (attempt : Attempt) (task : Task) :
    create settings attempt task = (do
      match ← enter task with
      | .error outcome => return outcome
      | .ok vm =>
        match ← Program.perform (.allocate (task.params.pool.getD settings.defaultPool) vm.id) with
        | .error e => settleFailure attempt vm .pending e
        | .ok allocation => createAt settings attempt task vm allocation.address) :=
  rfl

/-- A create gives its address back, or it is done as the tool was told and has reported. -/
theorem createAt_run (settings : Settings) (attempt : Attempt) (task : Task)
    (quiet : w.coming = []) (found : w.store.vm? vm.key = some vm)
    (status : vm.status = .provisioning) (address : String) :
    ∃ outcome w' left, (createAt settings attempt task vm address).run p.tool w =
        (.finished outcome, w') ∧ w'.store.vm? vm.key = some left ∧
      ((outcome ≠ .done ∧ left.address = none ∧
          ∃ later, w'.store.bindings = (w.store.release later vm.id).2.bindings) ∨
        outcome = .done ∧ w'.store.bindings = w.store.bindings ∧ ∃ now report budget start,
          left = vm.moved .running (createdPatch (some address)
            (task.params.host <|> settings.defaultHost)
            (task.params.kernelPath <|> vm.kernelPath) report) now ∧
          w'.calls = w.calls ++ [⟨⟨.create, requestFor vm (some address)
            (task.params.host <|> settings.defaultHost)
            (task.params.kernelPath <|> vm.kernelPath), budget⟩, start, some (.ok report)⟩]) := by
  obtain ⟨r, w₁, run, store, -, calls⟩ := provision_run (p := p) settings attempt quiet .create
    (requestFor vm (some address) (task.params.host <|> settings.defaultHost)
      (task.params.kernelPath <|> vm.kernelPath))
  rw [createAt, Program.run_bind run]
  rw [← store] at found
  cases r with
  | error e =>
    obtain ⟨outcome, w', left, undone, run', bindings, -, there, bare⟩ :=
      settleFailure_unbound attempt p
        (w := { w₁ with store := (w₁.store.release w₁.now vm.id).2 }) found status e
    refine ⟨outcome, w', left, run', there, .inl ⟨undone, bare, w₁.now, ?_⟩⟩
    rw [bindings, store]
  | ok report =>
    dsimp only
    have source : vm.status ∈ [VmStatus.provisioning] := by
      rw [status]
      exact List.mem_cons_self
    rw [Program.run_perform, transition_run p.tool found source]
    rcases calls with ⟨-, _, failed⟩ | ⟨budget, start, calls⟩
    · cases failed
    · refine ⟨.done, _, _, rfl, Store.vm?_setVm_self found rfl, .inr ⟨rfl, ?_, _, report, budget,
        start, rfl, calls⟩⟩
      rw [← store]
      rfl

/-- A create enters its VM and asks for an address. It goes on with the lowest free one, or fails
where there is none. -/
theorem create_run (settings : Settings) (attempt : Attempt) (kind : task.kind = .create)
    (found : w.store.vm? task.vmKey = some vm) (pending : vm.status = .pending)
    (bare : w.store.activeSlot? vm.id = none) :
    let name := task.params.pool.getD settings.defaultPool
    ∃ entry, entry.key = task.vmKey ∧ entry.id = vm.id ∧ entry.status = .provisioning ∧
      entry.kernelPath = vm.kernelPath ∧
      let begun := { w with store := w.store.setVm task.vmKey fun _ => entry }
      ((∃ pool slot, w.store.LowestFree name pool slot ∧
          (create settings attempt task).run p.tool w =
            (createAt settings attempt task entry slot.address.text).run p.tool
              { begun with store := begun.store.give slot vm.id w.now }) ∨
        (∃ e, (create settings attempt task).run p.tool w =
            (settleFailure attempt entry .pending e).run p.tool begun) ∧
          ∀ pool slot, ¬ w.store.LowestFree name pool slot) := by
  intro name
  have source : vm.status ∈ task.kind.sources := by rw [kind, pending]; exact List.mem_cons_self
  have entered := enter_run p.tool found source
  obtain ⟨entry, isEntry⟩ : ∃ entry, entry = vm.moved task.kind.via .clearError w.now.cutToMicros :=
    ⟨_, rfl⟩
  have key : entry.key = task.vmKey := by rw [isEntry]; exact (Store.vm?_mem found).2
  have id : entry.id = vm.id := by rw [isEntry]; rfl
  have status : entry.status = .provisioning := by rw [isEntry]; exact congrArg TaskKind.via kind
  refine ⟨entry, key, id, status, by rw [isEntry]; rfl, ?_⟩
  rw [← isEntry] at entered
  rw [create_eq, Program.run_bind entered]
  dsimp only
  rw [Program.run_perform, id]
  have ask : ∀ r, (w.store.setVm task.vmKey fun _ => entry).allocate w.now name vm.id = r →
      World.perform p.tool (.allocate name vm.id)
        { w with store := w.store.setVm task.vmKey fun _ => entry } =
          World.commit { w with store := w.store.setVm task.vmKey fun _ => entry }
            (r.map fun (granted, s) => (.of granted.1 granted.2, s)) :=
    fun _ answer => congrArg (World.commit _) (congrArg (Except.map _) answer)
  -- To enter the VM changes neither the pools nor the slots.
  rcases Store.allocate_bare (s := w.store.setVm task.vmKey fun _ => entry) name
    w.now bare with ⟨pool, slot, ⟨known, active, member, owner, free, lowest⟩, ok⟩ |
      ⟨⟨e, refused⟩, noFree⟩
  · refine .inl ⟨pool, slot, ⟨known, active, member, owner, free, lowest⟩, ?_⟩
    rw [ask _ ok]
    rfl
  · refine .inr ⟨⟨e, ?_⟩, fun pool slot h => noFree pool slot
      ⟨h.known, h.active, h.member, h.owner, h.free, h.lowest⟩⟩
    rw [ask _ refused]
    rfl

/-- **A create takes an address or nothing.** Begun on a pending VM without an address it comes to
its end, whatever the tool does. Unless it is done, the bindings are those from before and the VM's
record shows no address; where the pool has no free address the tool is not called. If it is done
there is one binding more, of the lowest free address of the pool that the task or the settings
name. Address and host on the record are those that the tool was told; the kernel is the one last
reported, or the task's, or the VM's own, and the root file system is the one last reported. -/
theorem create_binds_or_undoes (settings : Settings) (attempt : Attempt) (p : Provisioner)
    (quiet : w.coming = []) (keys : (w.store.slots.map (·.key)).Nodup)
    (kind : task.kind = .create) (found : w.store.vm? task.vmKey = some vm)
    (pending : vm.status = .pending) (bare : w.store.activeSlot? vm.id = none) :
    let name := task.params.pool.getD settings.defaultPool
    ∃ outcome w' left, (handle settings attempt task).run p.tool w = (.finished outcome, w') ∧
      w'.store.vm? task.vmKey = some left ∧
      (outcome ≠ .done → w'.store.bindings = w.store.bindings ∧ left.address = none) ∧
      ((∀ pool slot, ¬ w.store.LowestFree name pool slot) → w'.calls = w.calls) ∧
      (outcome = .done → ∃ pool slot call start report, w.store.LowestFree name pool slot ∧
        w'.store.bindings.Perm (⟨pool.key, slot.address, some vm.id⟩ :: w.store.bindings) ∧
        w'.calls = w.calls ++ [⟨call, start, some (.ok report)⟩] ∧ call.action = .create ∧
        left.address = some slot.address.text ∧ call.request.address = left.address ∧
        call.request.host = left.host ∧
        (∀ path, report.LastGives "kernel_path" path → left.kernelPath = some path) ∧
        ((∀ path, ¬ report.LastGives "kernel_path" path) →
          left.kernelPath = (task.params.kernelPath <|> vm.kernelPath)) ∧
        ∀ path, left.rootfsPath = some path ↔ report.LastGives "rootfs_path" path) := by
  intro name
  have handled : handle settings attempt task = create settings attempt task := by
    rw [handle, kind]
  obtain ⟨entry, key, id, status, kernelPath, begins⟩ :=
    create_run (p := p) settings attempt kind found pending bare
  have there : (w.store.setVm task.vmKey fun _ => entry).vm? entry.key = some entry := by
    rw [key]
    exact Store.vm?_setVm_self found key
  rcases begins with ⟨pool, slot, lowest, run⟩ | ⟨⟨e, run⟩, noFree⟩
  · obtain ⟨outcome, w', left, goesOn, isLeft, ends⟩ := createAt_run (p := p) settings attempt task
      (w := { w with store := (w.store.setVm task.vmKey fun _ => entry).give slot vm.id w.now })
      quiet there status slot.address.text
    refine ⟨outcome, w', left, handled ▸ run.trans goesOn, key ▸ isLeft, fun undone => ?_,
      fun none => absurd lowest (none pool slot), fun done => ?_⟩
    · rcases ends with ⟨-, none, later, bindings⟩ | ⟨done, -⟩
      · refine ⟨?_, none⟩
        rw [bindings, id]
        exact Store.bindings_release_give (s := w.store.setVm task.vmKey fun _ => entry) keys
          lowest.member lowest.free bare later
      · exact absurd done undone
    · rcases ends with ⟨undone, -⟩ | ⟨-, bindings, now, report, budget, start, isMade, calls⟩
      · exact absurd done undone
      · refine ⟨pool, slot, _, start, report, lowest, ?_, calls, rfl, ?_⟩
        · rw [bindings, ← lowest.owner]
          exact Store.bindings_give (s := w.store.setVm task.vmKey fun _ => entry) keys
            lowest.member lowest.free
        · rw [isMade, ← kernelPath]
          refine ⟨rfl, rfl, rfl, fun path gives => ?_, fun none => ?_, fun path => ?_⟩
          · rw [← Report.fact?_eq_some] at gives
            simp [Vm.moved, createdPatch, gives]
          · rw [← Report.fact?_eq_none] at none
            simp [Vm.moved, createdPatch, none]
          · exact Report.fact?_eq_some
  · obtain ⟨outcome, w', left, undone, settles, bindings, calls, isLeft, none⟩ :=
      settleFailure_unbound attempt p (w := { w with
        store := w.store.setVm task.vmKey fun _ => entry }) there status e
    exact ⟨outcome, w', left, handled ▸ run.trans settles, key ▸ isLeft,
      fun _ => ⟨bindings, none⟩, fun _ => calls, fun done => absurd done undone⟩

/-- The steps of a tool that reports two kernels, one after the other. -/
def twoKernels : List Step :=
  [⟨"install", .changed, ⟨11, 0⟩, none, none,
      .ofList [("kernel_path", "/boot/old"), ("rootfs_path", "/srv/root")]⟩,
    ⟨"upgrade", .changed, ⟨12, 0⟩, none, none, .ofList [("kernel_path", "/boot/new")]⟩]

/-- The tool with these steps. -/
def upgrading : Provisioner :=
  .immediate fun action _ =>
    .answered (.ok { Report.empty action ⟨11, 0⟩ with steps := twoKernels })

/-- A create with this tool, where two addresses are free. -/
def upgradedRun : Program.Ending Outcome × World :=
  (handle ⟨"lab", none, .ofSeconds 5⟩ (.of createTask ⟨70, 0⟩) createTask).run upgrading.tool
    { store := sharedPool, now := ⟨10, 0⟩ }

/-- How it ends, and the steps that its calls report. -/
def upgradedEnd : Option Outcome × List (List Step) :=
  (match upgradedRun.1 with
    | .finished outcome => some outcome
    | .crashed _ => none,
    upgradedRun.2.calls.map fun call => match call.answer with
      | some (.ok report) => report.steps
      | _ => [])

/-- A pending VM is given the lower of the two free addresses, and the kernel that is reported
last. -/
theorem create_takes_lower : ∃ w' left, upgradedRun = (.finished .done, w') ∧
    w'.store.vm? 1 = some left ∧ left.kernelPath = some "/boot/new" ∧
    ∃ pool slot, sharedPool.LowestFree "lab" pool slot ∧ left.address = some slot.address.text ∧
      w'.store.bindings.Perm (⟨pool.key, slot.address, some "srv-1"⟩ :: sharedPool.bindings) := by
  have found : sharedPool.vm? createTask.vmKey =
      some { (default : Vm) with key := 1, id := "srv-1", status := .pending } := rfl
  obtain ⟨outcome, w', left, run, isLeft, -, -, ends⟩ := create_binds_or_undoes
    (w := { store := sharedPool, now := ⟨10, 0⟩ }) ⟨"lab", none, .ofSeconds 5⟩
    (.of createTask ⟨70, 0⟩) upgrading rfl (by decide) rfl found rfl (by decide)
  have run : upgradedRun = (.finished outcome, w') := run
  have shown : upgradedEnd = (some .done, [twoKernels]) := by decide +kernel
  simp only [upgradedEnd, run, Prod.mk.injEq, Option.some.injEq] at shown
  obtain ⟨rfl, reported⟩ := shown
  obtain ⟨pool, slot, call, start, report, lowest, bindings, calls, -, address, -, -, kernel,
    -⟩ := ends rfl
  have steps : report.steps = twoKernels := by simpa [calls] using reported
  refine ⟨w', left, run, isLeft, kernel _ ?_, pool, slot, lowest, address, bindings⟩
  exact ⟨[_], _, [], steps, by decide, fun _ later => absurd later List.not_mem_nil⟩

end Lifecycle

end VmFleet
