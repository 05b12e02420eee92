/-
The hosts that the tool is told, over any use of a fleet with workers dying
wherever they may. The record of a VM has no host until the VM runs, whatever a
create that failed has told the tool; from then on it has the host of that
create, and every call carries it.
-/
import VmFleet.Proofs.AddressKept
import VmFleet.Proofs.CallOrder
import VmFleet.Proofs.Hosts

namespace VmFleet

namespace Lifecycle

variable {settings : Settings} {task : Task} {vm : Vm} {address : Option String}

theorem requestOf_host_create (kind : task.kind = .create) :
    (requestOf settings task vm address).host = (task.params.host <|> settings.defaultHost) := by
  rw [requestOf, kind]
  rfl

theorem requestOf_host_delete (kind : task.kind = .delete) :
    (requestOf settings task vm address).host = (vm.host <|> task.params.host) := by
  rw [requestOf, kind]
  rfl

theorem requestOf_host (create : task.kind ≠ .create) (delete : task.kind ≠ .delete) :
    (requestOf settings task vm address).host = vm.host := by
  unfold requestOf
  split
  · next kind => exact absurd kind create
  · next kind => exact absurd kind delete
  all_goals rfl

end Lifecycle

/-- A task that works on a VM which has not run creates or deletes it. -/
theorem TaskKind.action_of_early {kind : TaskKind} {action : Action}
    (early : kind.via ∈ [VmStatus.pending, .provisioning, .deleting, .error])
    (member : action ∈ kind.actions) : action = .create ∨ action = .delete := by
  revert early member
  cases kind <;> cases action <;> decide

/-- A worker that has a create in hand asks for `running` once the VM has been created remotely. -/
theorem Shift.creates {past : List Act} {key : Int} {expected : List VmStatus}
    (h : Shift past key expected .running)
    (create : ∀ task, inHand past = some task → task.kind = .create) :
    ∃ a ∈ past, a.Creates := by
  generalize running : VmStatus.running = next at h
  cases h with
  | enter hand =>
    rw [create _ hand] at running
    cases running
  | settle hand delete created => exact created (create _ hand)
  | fail => cases running
  | revert hand =>
    rw [create _ hand] at running
    cases running

namespace Fleet

variable {steps : List Step} {earlier later : List Entry} {entry : Entry} {key : Int} {c : Call}
  {answer : Option (Except Error Report)} {host : Option String} {task : Task}

/-- The entry is one of a run that claimed the task, of a worker with the settings. -/
def Entry.Runs (entry : Entry) (settings : Lifecycle.Settings) (task : Task) : Prop :=
  ∃ queue jitter now claimed, entry.step.job? = some (.runOnce queue settings jitter, now) ∧
    entry.start.claimNext now = .ok (some task, claimed)

theorem Entry.Runs.unique {settings settings' : Lifecycle.Settings} {task' : Task}
    (h : entry.Runs settings task) (h' : entry.Runs settings' task') :
    settings = settings' ∧ task = task' := by
  obtain ⟨queue, jitter, now, claimed, job, claim⟩ := h
  obtain ⟨_, _, _, _, job', claim'⟩ := h'
  cases job.symm.trans job'
  cases claim.symm.trans claim'
  exact ⟨rfl, rfl⟩

/-- The VM of the key was left running on the host. -/
def RanOn (entries : List Entry) (key : Int) (host : Option String) : Prop :=
  ∃ x ∈ entries, ∃ vm, x.event.after.vm? key = some vm ∧ vm.status = .running ∧ vm.host = host

/-- A create call for the VM, told the host, came back with success. -/
def CreatedOn (entries : List Entry) (key : Int) (host : Option String) : Prop :=
  ∃ x ∈ entries, ∃ c report, x.Calls key c (some (.ok report)) ∧ c.action = .create ∧
    c.request.host = host

theorem RanOn.append (h : RanOn earlier key host) (more : List Entry) :
    RanOn (earlier ++ more) key host := by
  obtain ⟨x, hx, ran⟩ := h
  exact ⟨x, List.mem_append_left _ hx, ran⟩

theorem CreatedOn.append (h : CreatedOn earlier key host) (more : List Entry) :
    CreatedOn (earlier ++ more) key host := by
  obtain ⟨x, hx, created⟩ := h
  exact ⟨x, List.mem_append_left _ hx, created⟩

/-- What the tool is told of a VM is what the handler of the task reads off its record. -/
theorem Follows.told (h : Follows earlier entry) (calls : entry.Calls key c answer) :
    ∃ settings task vm address, entry.Runs settings task ∧ task.vmKey = key ∧
      (state earlier).vm? key = some vm ∧ vm.status = task.kind.via ∧
      c.action ∈ task.kind.actions ∧ c.request = Lifecycle.requestOf settings task vm address := by
  obtain ⟨call, queue, settings, jitter, now, task, claimed, job, claim, rfl⟩ := calls
  cases h with
  | request => cases call
  | resolves before possible resolves => cases resolves <;> cases call
  | @works step start past act before possible run asks runs =>
    obtain ⟨_, _, _, _, job', runs⟩ := runs
    cases job.symm.trans job'
    obtain ⟨task, claimed', vm, claim', found, -, status, member, address, told⟩ :=
      runs.called call
    cases claim.symm.trans claim'
    have found : act.before.vm? task.vmKey = some vm := found
    rw [before] at found
    exact ⟨settings, task, vm, address, ⟨queue, jitter, now, claimed, job, claim⟩, rfl, found,
      status, member, told⟩

/-- A worker has told the tool what the handler of its task reads off the VM's record. -/
theorem InRun.told {step : Step} {start : Store} {past : List Act} {a : Act}
    {settings : Lifecycle.Settings} (run : InRun earlier step start past)
    (split : log .empty steps = earlier ++ later) (ha : a ∈ past)
    (call : a.call? = some (c, answer)) (runs : Entry.Runs ⟨step, start, a.event⟩ settings task) :
    ∃ vm address, c.request = Lifecycle.requestOf settings task vm address := by
  obtain ⟨before, -, rfl⟩ := run.split
  obtain ⟨first, rest, rfl⟩ := List.append_of_mem ha
  have here : log .empty steps = (before ++ first.map fun a => ⟨step, start, a.event⟩) ++
      ⟨step, start, a.event⟩ :: (rest.map (fun a => ⟨step, start, a.event⟩) ++ later) := by
    rw [split]
    simp
  have calls : Entry.Calls ⟨step, start, a.event⟩ task.vmKey c answer := by
    obtain ⟨queue, jitter, now, claimed, job, claim⟩ := runs
    exact ⟨call, queue, settings, jitter, now, task, claimed, job, claim, rfl⟩
  obtain ⟨_, _, vm, address, runs', -, -, -, -, told⟩ := (log_follows here).told calls
  obtain ⟨rfl, rfl⟩ := runs.unique runs'
  exact ⟨vm, address, told⟩

/-! ## The host on the record -/

/-- A VM comes to run on the host that the tool was told in the create call. -/
theorem createdOn_of_placed {queue : QueueConfig} {settings : Lifecycle.Settings} {jitter : Jitter}
    {now : Instant} {claimed : Store}
    (split : log .empty steps = earlier ++ entry :: later) (distinct : (state earlier).VmsDistinct)
    (job : entry.step.job? = some (.runOnce queue settings jitter, now))
    (claim : entry.start.claimNext now = .ok (some task, claimed)) (kind : task.kind = .create)
    (placed : Store.Placed entry.event.before entry.event.after task.vmKey
      (task.params.host <|> settings.defaultHost)) :
    CreatedOn earlier task.vmKey (task.params.host <|> settings.defaultHost) := by
  obtain ⟨⟨old, vm, found, provisioning, there, running, -⟩, -⟩ := placed
  have follows := log_follows split
  rw [follows.before_eq] at found
  cases follows with
  | request answers =>
    obtain ⟨vm', there', status⟩ := answers.vm?_kept distinct found
    cases there.symm.trans there'
    rw [running, provisioning] at status
    cases status
  | @resolves step start act before possible resolves =>
    rcases possible.vm?_cases task.vmKey with same | ⟨_, _, vm', deed, -, -, there'⟩ | ⟨-, gone⟩
    · have same := (there.symm.trans same).trans (before ▸ found)
      cases same
      rw [provisioning] at running
      cases running
    · cases there.symm.trans there'
      rw [running] at deed
      cases resolves <;> cases deed
    · cases there.symm.trans gone
  | @works step start past act before possible run asks =>
    rcases possible.vm?_cases task.vmKey with
      same | ⟨expected, old', vm', deed, -, -, there'⟩ | ⟨-, gone⟩
    · have same := (there.symm.trans same).trans (before ▸ found)
      cases same
      rw [provisioning] at running
      cases running
    · cases there.symm.trans there'
      rw [Asks, deed, running] at asks
      have mine : ∀ other, inHand past = some other → other = task := fun other hand => by
        obtain ⟨_, _, _, _, _, job', claim'⟩ := run.hand other hand
        cases job.symm.trans job'
        cases claim.symm.trans claim'
        rfl
      obtain ⟨a, ha, c, report, call, create⟩ :=
        asks.creates fun other hand => mine other hand ▸ kind
      have runs : Entry.Runs ⟨step, start, a.event⟩ settings task :=
        ⟨queue, jitter, now, claimed, job, claim⟩
      obtain ⟨vm, address, told⟩ := run.told split ha call runs
      obtain ⟨_, -, rfl⟩ := run.split
      refine ⟨_, List.mem_append_right _ (List.mem_map_of_mem ha), c, report,
        ⟨call, queue, settings, jitter, now, task, claimed, job, claim, rfl⟩, create, ?_⟩
      rw [told, Lifecycle.requestOf_host_create kind]
    · cases there.symm.trans gone

/-- What the record of a VM tells of the host before the VM has run, and after. -/
structure Hosted (earlier : List Entry) (key : Int) : Prop where
  bare : (∀ host, ¬ RanOn earlier key host) → (state earlier).NotYetRun key ∧
    ∀ vm, (state earlier).vm? key = some vm → vm.host = none
  ran : ∀ host, RanOn earlier key host → CreatedOn earlier key host ∧
    key < (state earlier).nextVm ∧ ∀ vm, (state earlier).vm? key = some vm →
      vm.host = host ∧ vm.status ≠ .pending ∧ vm.status ≠ .provisioning

theorem origin {vm : Vm} (split : log .empty steps = earlier ++ entry :: later)
    (there : entry.event.after.vm? key = some vm) :
    (∃ old, (state earlier).vm? key = some old ∧ vm.host = old.host ∧
      (old.status = .provisioning → vm.status ≠ .running)) ∨
    ((state earlier).vm? key = none ∧ vm.host = none) ∨
    CreatedOn earlier key vm.host ∧ vm.status = .running ∧
      ∃ old, (state earlier).vm? key = some old ∧ old.status = .provisioning := by
  obtain ⟨distinct, -⟩ := log_change split
  have before := (log_follows split).before_eq
  have kept : Store.HostsKept entry.event.before entry.event.after →
      (∃ old, (state earlier).vm? key = some old ∧ vm.host = old.host ∧
        (old.status = .provisioning → vm.status ≠ .running)) ∨
      ((state earlier).vm? key = none ∧ vm.host = none) := by
    intro hosts
    rw [before] at hosts
    exact hosts key vm there
  have member : entry ∈ log .empty steps := by simp [split]
  obtain ⟨-, rehosts⟩ := log_rehosts Store.empty_vmsDistinct Store.empty_slotsSound entry member
  cases rehosts with
  | request _ leaves => exact (kept (leaves.hosts (before ▸ distinct))).imp_right .inl
  | kept hosts => exact (kept hosts).imp_right .inl
  | @placed _ _ _ _ task _ job claim kind placed =>
    have created := createdOn_of_placed split distinct job claim kind placed
    obtain ⟨⟨old, vm', found, provisioning, there', running, host⟩, others⟩ := placed
    rw [before] at found others
    by_cases hk : key = task.vmKey
    · subst hk
      cases there.symm.trans there'
      exact .inr (.inr ⟨host ▸ created, running, old, found, provisioning⟩)
    · rw [others key hk] at there
      refine .inl ⟨vm, there, rfl, fun provisioning running => ?_⟩
      rw [provisioning] at running
      cases running

/-- What has been found of a VM that had run is found of it after one more entry. -/
theorem Hosted.ran_later (h : Hosted earlier key)
    (split : log .empty steps = earlier ++ entry :: later) (ran : RanOn earlier key host) :
    CreatedOn (earlier ++ [entry]) key host ∧ key < entry.event.after.nextVm ∧
      ∀ vm, entry.event.after.vm? key = some vm →
        vm.host = host ∧ vm.status ≠ .pending ∧ vm.status ≠ .provisioning := by
  obtain ⟨distinct, changes⟩ := log_change split
  obtain ⟨created, used, found⟩ := h.ran host ran
  refine ⟨created.append _, Int.lt_of_lt_of_le used changes.nextVm_le, fun vm there => ?_⟩
  rcases changes.vm?_cases distinct key with
    same | ⟨old, vm', moves, after⟩ | ⟨old, -, gone, -⟩ | ⟨isNext, -⟩
  · exact found vm (same.symm.trans there)
  · obtain ⟨host, pending, provisioning⟩ := found old moves.found
    have kept : vm.status ≠ .pending ∧ vm.status ≠ .provisioning := by
      rw [after] at there
      cases moves.there.symm.trans there
      rcases moves.edge with same | edge
      · exact same ▸ ⟨pending, provisioning⟩
      · exact VmStatus.next_pastCreate edge pending provisioning
    refine ⟨?_, kept⟩
    rcases origin split there with
      ⟨old', found', same, -⟩ | ⟨none, -⟩ | ⟨-, -, old', found', status⟩
    · cases moves.found.symm.trans found'
      exact same.trans host
    · cases moves.found.symm.trans none
    · cases moves.found.symm.trans found'
      exact absurd status provisioning
  · cases gone.symm.trans there
  · omega

/-- A VM that is left running for the first time has been created on the host that its record then
has. -/
theorem Hosted.runs_first {vm : Vm} (h : Hosted earlier key)
    (split : log .empty steps = earlier ++ entry :: later)
    (first : ∀ host, ¬ RanOn earlier key host) (there : entry.event.after.vm? key = some vm)
    (running : vm.status = .running) :
    CreatedOn earlier key vm.host ∧ key < (state earlier).nextVm := by
  obtain ⟨distinct, changes⟩ := log_change split
  obtain ⟨notYet, -⟩ := h.bare first
  rcases changes.vm?_cases distinct key with
    same | ⟨old, vm', moves, after⟩ | ⟨old, -, gone, -⟩ | ⟨-, vm', there', pending⟩
  · have early := notYet vm (same.symm.trans there)
    rw [running] at early
    exact absurd early (by decide)
  · have early := notYet old moves.found
    rcases origin split there with ⟨old', found', -, other⟩ | ⟨none, -⟩ | ⟨created, -, -⟩
    · cases moves.found.symm.trans found'
      rw [after] at there
      cases moves.there.symm.trans there
      rcases moves.edge with same | edge
      · rw [← same, running] at early
        exact absurd early (by decide)
      · rcases VmStatus.next_notYetRun edge early with still | ⟨-, provisioning⟩
        · rw [running] at still
          exact absurd still (by decide)
        · exact absurd running (other provisioning)
    · cases moves.found.symm.trans none
    · obtain ⟨hold, rfl⟩ := Store.vm?_mem moves.found
      exact ⟨created, distinct.fresh old hold⟩
  · cases gone.symm.trans there
  · cases there.symm.trans there'
    rw [running] at pending
    cases pending

theorem Hosted.concat (h : Hosted earlier key)
    (split : log .empty steps = earlier ++ entry :: later) : Hosted (earlier ++ [entry]) key := by
  obtain ⟨distinct, changes⟩ := log_change split
  -- A VM that the entry leaves running has run.
  have runs : ∀ vm, entry.event.after.vm? key = some vm → vm.status = .running →
      RanOn (earlier ++ [entry]) key vm.host :=
    fun vm there running => ⟨entry, by simp, vm, there, running, rfl⟩
  refine ⟨fun first => ?_, fun host ran => ?_⟩
  · rw [state_concat]
    obtain ⟨notYet, bare⟩ := h.bare fun host ran => first host (ran.append _)
    refine ⟨?_, fun vm there => ?_⟩
    · rcases changes.notYetRun distinct notYet with still | ⟨vm, _, there, running, -⟩
      · exact still
      · exact absurd (runs vm there running) (first _)
    · rcases origin split there with ⟨old, found, same, -⟩ | ⟨-, none⟩ | ⟨-, running, -⟩
      · exact same.trans (bare old found)
      · exact none
      · exact absurd (runs vm there running) (first _)
  · rw [state_concat]
    by_cases before : RanOn earlier key host
    · exact h.ran_later split before
    obtain ⟨x, hx, vm, there, running, rfl⟩ := ran
    rcases List.mem_append.mp hx with hx | hx
    · exact absurd ⟨x, hx, vm, there, running, rfl⟩ before
    rw [List.mem_singleton.mp hx] at there
    by_cases first : ∀ host, ¬ RanOn earlier key host
    · obtain ⟨created, used⟩ := h.runs_first split first there running
      refine ⟨created.append _, Int.lt_of_lt_of_le used changes.nextVm_le, fun vm' there' => ?_⟩
      cases there.symm.trans there'
      rw [running]
      exact ⟨rfl, by decide, by decide⟩
    · -- It ran before, on the host that its record still has.
      obtain ⟨host, ran⟩ := not_forall_not.mp first
      obtain ⟨-, -, found⟩ := h.ran_later split ran
      exact absurd ((found vm there).1 ▸ ran) before

theorem log_hosted (split : log .empty steps = earlier ++ later) (key : Int) :
    Hosted earlier key := by
  refine log_induction (I := fun earlier => ∀ key, Hosted earlier key) (fun key => ⟨?_, ?_⟩) ?_
    split key
  · exact fun _ => ⟨fun _ => nofun, fun _ => nofun⟩
  · rintro host ⟨x, hx, -⟩
    cases hx
  · intro earlier entry later split before key
    exact (before earlier [] (List.append_nil _).symm key).concat split

/-! ## What the tasks ask for -/

/-- The request is one that an owner may make: none puts a task into the queue without its VM. -/
def Request.byOwner : Request → Bool
  | .enqueue .. => false
  | .ask _ _ kind _ _ => kind != .create
  | _ => true

/-- All requests are owners' and all workers have the same default host. -/
def Step.byOwner (host : Option String) : Step → Bool
  | .request r _ => r.byOwner
  | .work (.runOnce _ settings _) _ _ | .death (.runOnce _ settings _) _ _ _ =>
    settings.defaultHost == host
  | .work .. | .death .. => true

/-- The table of tasks only grows, as far as what is asked for is concerned. -/
theorem Entry.Rehosts.orders (h : entry.Rehosts) :
    ∃ more, entry.event.after.orders = entry.event.before.orders ++ more := by
  have grown : ∀ {s s' : Store} {row : TaskRow}, s'.tasks = s.tasks ++ [row] →
      ∃ more, s'.orders = s.orders ++ more := fun tasks =>
    ⟨_, by rw [Store.orders, tasks, List.map_append]; rfl⟩
  have same : ∀ {s s' : Store}, s'.orders = s.orders → ∃ more, s'.orders = s.orders ++ more :=
    fun same => ⟨[], by rw [same, List.append_nil]⟩
  cases h with
  | kept _ orders | placed _ _ _ _ orders => exact same orders
  | request _ leaves =>
    generalize entry.event.before = s at leaves
    generalize entry.event.after = s' at leaves
    cases leaves with
    | aside _ tasks => exact same (by rw [Store.orders, tasks]; rfl)
    | edited => exact same rfl
    | created | asked | enqueued => exact grown rfl

theorem rehosts_of_split (split : log .empty steps = earlier ++ entry :: later) :
    entry.step ∈ steps ∧ entry.Rehosts := by
  have member : entry ∈ log .empty steps := by simp [split]
  exact log_rehosts Store.empty_vmsDistinct Store.empty_slotsSound entry member

theorem orders_later {more : List Entry} {order : TaskKind × Int × TaskParams}
    (split : log .empty steps = earlier ++ more ++ later) (asked : order ∈ (state earlier).orders) :
    order ∈ (state (earlier ++ more)).orders := by
  induction more using List.reverseRecOn generalizing later with
  | nil => rwa [List.append_nil]
  | append_singleton more entry ih =>
    have split : log .empty steps = (earlier ++ more) ++ entry :: later := by
      rw [split]
      simp
    obtain ⟨-, rehosts⟩ := rehosts_of_split split
    obtain ⟨added, grown⟩ := rehosts.orders
    rw [(log_follows split).before_eq] at grown
    rw [← List.append_assoc, state_concat, grown]
    exact List.mem_append_left _ (@ih (entry :: later) (by rw [split]))

/-- What is known of the tasks where all requests are owners': a VM has one create task at most, and
any other task was told the host that the VM has run on, or none. -/
structure Asked (earlier : List Entry) : Prop where
  known : ∀ key params, (.create, key, params) ∈ (state earlier).orders →
    key < (state earlier).nextVm
  single : ∀ key p q, (.create, key, p) ∈ (state earlier).orders →
    (.create, key, q) ∈ (state earlier).orders → p.host = q.host
  told : ∀ kind key params, (kind, key, params) ∈ (state earlier).orders → kind ≠ .create →
    ∀ host, params.host = some host → RanOn earlier key (some host)

namespace Asked

theorem same (h : Asked earlier) (orders : entry.event.after.orders = (state earlier).orders)
    (next : (state earlier).nextVm ≤ entry.event.after.nextVm) : Asked (earlier ++ [entry]) where
  known key params asked := by
    rw [state_concat, orders] at asked
    rw [state_concat]
    exact Int.lt_of_lt_of_le (h.known key params asked) next
  single key p q first second := by
    rw [state_concat, orders] at first second
    exact h.single key p q first second
  told kind key params asked other host told := by
    rw [state_concat, orders] at asked
    exact (h.told kind key params asked other host told).append _

/-- A create task comes with a new VM. -/
theorem created (h : Asked earlier) {row : TaskRow}
    (tasks : entry.event.after.tasks = (state earlier).tasks ++ [row]) (kind : row.kind = .create)
    (own : row.vmKey = (state earlier).nextVm)
    (next : entry.event.after.nextVm = (state earlier).nextVm + 1) :
    Asked (earlier ++ [entry]) := by
  refine ⟨?_, ?_, ?_⟩ <;> simp only [state_concat, Store.mem_orders_append tasks]
  · rintro key params (asked | ⟨-, rfl, -⟩)
    · have := h.known key params asked
      omega
    · omega
  · rintro key p q (first | ⟨-, rfl, rfl⟩) (second | ⟨-, same, rfl⟩)
    · exact h.single key p q first second
    · have := h.known key p first
      omega
    · have := h.known _ q second
      omega
    · rfl
  · rintro kind' key params (asked | ⟨rfl, -, -⟩) other host told
    · exact (h.told kind' key params asked other host told).append _
    · exact absurd kind other

theorem asked (h : Asked earlier) {row : TaskRow} {vm : Vm} (hosted : Hosted earlier vm.key)
    (tasks : entry.event.after.tasks = (state earlier).tasks ++ [row]) (create : row.kind ≠ .create)
    (own : row.vmKey = vm.key) (params : row.params = { host := vm.host })
    (found : (state earlier).vm? vm.key = some vm)
    (next : entry.event.after.nextVm = (state earlier).nextVm) : Asked (earlier ++ [entry]) := by
  refine ⟨?_, ?_, ?_⟩ <;> simp only [state_concat, Store.mem_orders_append tasks]
  · rintro key params (asked | ⟨kind, -⟩)
    · rw [next]
      exact h.known key params asked
    · exact absurd kind.symm create
  · rintro key p q (first | ⟨kind, -⟩) (second | ⟨kind, -⟩)
    · exact h.single key p q first second
    all_goals exact absurd kind.symm create
  · rintro kind key p (asked | ⟨-, rfl, rfl⟩) other host told
    · exact (h.told kind key p asked other host told).append _
    · rw [params] at told
      by_cases first : ∀ host, ¬ RanOn earlier vm.key host
      · rw [(hosted.bare first).2 vm found] at told
        cases told
      · obtain ⟨host', ran⟩ := not_forall_not.mp first
        have same : vm.host = host' := ((hosted.ran host' ran).2.2 vm found).1
        rw [own, ← told]
        exact (same ▸ ran).append _

theorem concat {default : Option String} (h : Asked earlier)
    (split : log .empty steps = earlier ++ entry :: later)
    (owners : ∀ step ∈ steps, step.byOwner default = true) : Asked (earlier ++ [entry]) := by
  obtain ⟨member, rehosts⟩ := rehosts_of_split split
  obtain ⟨-, change⟩ := log_change split
  have before := (log_follows split).before_eq
  cases rehosts with
  | kept _ orders | placed _ _ _ _ orders => exact h.same (before ▸ orders) change.nextVm_le
  | request ofStep leaves =>
    have byOwner := owners _ member
    rw [ofStep] at byOwner
    rw [before] at leaves
    generalize after : entry.event.after = s' at leaves
    cases leaves with
    | aside _ tasks next => exact h.same (by rw [after, Store.orders, tasks]; rfl) (after ▸ next)
    | created key _ kind own =>
      exact h.created (by rw [after]) kind (own.trans key) (by rw [after])
    | edited => exact h.same (by rw [after]; rfl) (by rw [after]; exact Int.le_refl _)
    | @asked _ _ kind _ _ _ _ found same own params =>
      have create : kind ≠ .create := by simpa [Step.byOwner, Request.byOwner] using byOwner
      exact h.asked (log_hosted split _) (by rw [after]) (same ▸ create) own params found
        (by rw [after])
    | enqueued => cases byOwner

end Asked

theorem log_asked {default : Option String} (owners : ∀ step ∈ steps, step.byOwner default = true)
    (split : log .empty steps = earlier ++ later) : Asked earlier := by
  refine log_induction (I := Asked) ⟨nofun, nofun, nofun⟩ ?_ split
  intro earlier entry later split before
  exact (before earlier [] (List.append_nil _).symm).concat split owners

/-! ## The calls -/

/-- What a worker claimed is asked for in the table at each of its calls. -/
theorem Follows.order {settings : Lifecycle.Settings}
    (split : log .empty steps = earlier ++ entry :: later) (calls : entry.Calls key c answer)
    (runs : entry.Runs settings task) :
    (task.kind, task.vmKey, task.params) ∈ (state earlier).orders := by
  have call := calls.1
  have follows := log_follows split
  cases follows with
  | request => cases call
  | resolves before possible resolves => cases resolves <;> cases call
  | @works step start past act before possible run asks =>
    obtain ⟨first, rfl, rfl⟩ := run.split
    obtain ⟨queue, jitter, now, claimed, job, claim⟩ := runs
    exact orders_later split (Store.claimNext_orders claim).1

/-- A create call carries the host that its task asks for, or else the default. -/
theorem create_told {default : Option String}
    (owners : ∀ step ∈ steps, step.byOwner default = true)
    (split : log .empty steps = earlier ++ entry :: later) (calls : entry.Calls key c answer)
    (create : c.action = .create) :
    ∃ params, (.create, key, params) ∈ (state earlier).orders ∧
      c.request.host = (params.host <|> default) := by
  obtain ⟨settings, task, vm, address, runs, rfl, -, -, member, told⟩ :=
    (log_follows split).told calls
  have kind := TaskKind.create_mem_actions (create ▸ member)
  have order := Follows.order split calls runs
  obtain ⟨queue, jitter, now, claimed, job, -⟩ := runs
  obtain ⟨hstep, -⟩ := rehosts_of_split split
  have same : settings.defaultHost = default := by
    have byOwner := owners _ hstep
    generalize entry.step = step at job byOwner
    cases step with
    | request => cases job
    | work | death =>
      cases job
      simpa [Step.byOwner] using byOwner
  refine ⟨task.params, kind ▸ order, ?_⟩
  rw [told, Lifecycle.requestOf_host_create kind, same]

/-- All create calls for a VM carry one host. -/
theorem create_hosts_agree {default : Option String} {x y : Entry} {c' : Call}
    {answer' : Option (Except Error Report)}
    (owners : ∀ step ∈ steps, step.byOwner default = true)
    (split : log .empty steps = earlier ++ later) (hx : x ∈ earlier) (hy : y ∈ earlier)
    (calls : x.Calls key c answer) (create : c.action = .create)
    (calls' : y.Calls key c' answer') (create' : c'.action = .create) :
    c.request.host = c'.request.host := by
  have asked : ∀ z ∈ earlier, ∀ c answer, z.Calls key c answer → c.action = .create →
      ∃ params, (.create, key, params) ∈ (state earlier).orders ∧
        c.request.host = (params.host <|> default) := by
    intro z hz c answer calls create
    obtain ⟨first, rest, rfl⟩ := List.append_of_mem hz
    have here : log .empty steps = first ++ z :: (rest ++ later) := by
      rw [split]
      simp
    obtain ⟨params, order, host⟩ := create_told owners here calls create
    exact ⟨params, orders_later split order, host⟩
  obtain ⟨p, first, host⟩ := asked x hx c answer calls create
  obtain ⟨q, second, host'⟩ := asked y hy c' answer' calls' create'
  rw [host, host', (log_asked owners split).single key p q first second]

theorem delete_told {default : Option String} {vm : Vm}
    (owners : ∀ step ∈ steps, step.byOwner default = true)
    (split : log .empty steps = earlier ++ entry :: later) (calls : entry.Calls key c answer)
    (delete : c.action = .delete) (there : (state earlier).vm? key = some vm) :
    c.request.host = vm.host := by
  obtain ⟨settings, task, vm', address, runs, rfl, found, -, member, told⟩ :=
    (log_follows split).told calls
  cases there.symm.trans found
  have kind := TaskKind.delete_of_mem_actions (delete ▸ member)
  rw [told, Lifecycle.requestOf_host_delete kind]
  cases host : vm.host with
  | some host => rfl
  | none =>
    cases params : task.params.host with
    | none => rfl
    | some other =>
      -- The task was told a host that the VM had run on, and so has on its record.
      have ran := (log_asked owners split).told _ _ _ (Follows.order split calls runs)
        (by rw [kind]; decide) other params
      have same : vm.host = some other :=
        (((log_hosted split task.vmKey).ran _ ran).2.2 vm found).1
      cases host.symm.trans same

/-- **The hosts that the tool is told.** In any use of a fleet that begins with an empty store, with
workers dying after any operation: once a VM has been left running, on the host of a create call for
it that came back with success, no call for it is a create, and every call carries that host; only
where the create was told none may a delete be told one by its own task. Before that, only create
and delete calls are made for it. And where all requests are owners' and all workers have one default
host: every call for a VM after a create call carries the create's host, but for a delete of a VM
that has never run. That one carries no host, whatever the create was told. -/
theorem calls_carry_host (steps : List Step) (earlier : List Entry) (entry : Entry)
    (later : List Entry) (key : Int) (c : Call) (answer : Option (Except Error Report))
    (split : log .empty steps = earlier ++ entry :: later) (calls : entry.Calls key c answer) :
    (∀ host, RanOn earlier key host → CreatedOn earlier key host ∧ c.action ≠ .create ∧
      (c.request.host = host ∨ host = none ∧ c.action = .delete)) ∧
    ((∀ host, ¬ RanOn earlier key host) → c.action = .create ∨ c.action = .delete) ∧
    ∀ default, (∀ step ∈ steps, step.byOwner default = true) →
      (∀ other ∈ earlier, ∀ c' answer', other.Calls key c' answer' → c'.action = .create →
        c.request.host = c'.request.host ∨
          c.action = .delete ∧ ∀ host, ¬ RanOn earlier key host) ∧
      (c.action = .delete → (∀ host, ¬ RanOn earlier key host) → c.request.host = none) := by
  obtain ⟨settings, task, vm, address, runs, rfl, found, status, member, told⟩ :=
    (log_follows split).told calls
  obtain ⟨bare, ran⟩ := log_hosted split task.vmKey
  have after : ∀ host, RanOn earlier task.vmKey host → c.action ≠ .create ∧
      (c.request.host = host ∨ host = none ∧ c.action = .delete) := by
    intro host h
    obtain ⟨-, -, all⟩ := ran host h
    obtain ⟨rfl, -, provisioning⟩ := all vm found
    have create : task.kind ≠ .create :=
      mt VmStatus.via_eq_provisioning.mpr (status ▸ provisioning)
    refine ⟨fun action => create (TaskKind.create_mem_actions (action ▸ member)), ?_⟩
    by_cases delete : task.kind = .delete
    · rw [told, Lifecycle.requestOf_host_delete delete]
      cases vm.host with
      | some host => exact .inl rfl
      | none =>
        rw [delete] at member
        exact .inr ⟨rfl, List.mem_singleton.mp member⟩
    · rw [told, Lifecycle.requestOf_host create delete]
      exact .inl rfl
  have first : (∀ host, ¬ RanOn earlier task.vmKey host) →
      c.action = .create ∨ c.action = .delete := by
    intro never
    have early := (bare never).1 vm found
    rw [status] at early
    exact TaskKind.action_of_early early member
  refine ⟨fun host h => ⟨(ran host h).1, after host h⟩, first, fun default owners => ⟨?_, ?_⟩⟩
  · intro other ho c' answer' calls' create'
    have whole : log .empty steps = (earlier ++ [entry]) ++ later := by simp [split]
    have agree : ∀ {x : Entry} {c'' : Call} {answer''}, x ∈ earlier ++ [entry] →
        x.Calls task.vmKey c'' answer'' → c''.action = .create →
        c''.request.host = c'.request.host := fun hx calls'' create'' =>
      create_hosts_agree owners whole hx (List.mem_append_left _ ho) calls'' create'' calls' create'
    by_cases never : ∀ host, ¬ RanOn earlier task.vmKey host
    · rcases first never with create | delete
      · exact .inl (agree (by simp) calls create)
      · exact .inr ⟨delete, never⟩
    · obtain ⟨host, h⟩ := not_forall_not.mp never
      obtain ⟨⟨x, hx, c'', report, calls'', create'', rfl⟩, -, all⟩ := ran host h
      refine .inl (Eq.trans ?_ (agree (List.mem_append_left _ hx) calls'' create''))
      rcases (after _ h).2 with same | ⟨-, delete⟩
      · exact same
      · rw [delete_told owners split calls delete found, (all vm found).1]
  · intro delete never
    rw [delete_told owners split calls delete found, (bare never).2 vm found]

/-- The call that creates a VM takes too long, and its task has no other attempt; the owner has the
VM deleted. -/
def failedCreate : List Step :=
  let work : Job := .runOnce { hardLimit := .ofSeconds 300 }
    ⟨"default", some "fc-host-1", .ofSeconds 60⟩ ⟨0, parts_pos⟩
  let slow : Provisioner :=
    ⟨fun _ _ _ => (some .zero, .answered (.error (.timeout (.ofSeconds 60))))⟩
  [.request (.createPool "default" "10.0.0.0/30" "10.0.0.1" none) ⟨1, 0⟩,
    .request (.createVm 1 ["srv-1"] "task-1" { name := "a", owner := "alice" } {}) ⟨2, 0⟩,
    .work work slow ⟨3, 0⟩,
    .request (.ask 1 "task-2" .delete "srv-1" "alice") ⟨4, 0⟩,
    .work work promptTool ⟨5, 0⟩]

/-- There the delete is told no host, and so does not reach the one where the VM may be. -/
theorem delete_misses_host :
    (log .empty failedCreate).filterMap (fun entry => entry.event.call.map fun (c, _) =>
      (c.action, c.request.vmId, c.request.host)) =
      [(.create, "srv-1", some "fc-host-1"), (.delete, "srv-1", none)] := by
  decide +kernel

/-- That delete comes after the create call for the VM, and the VM has never run. -/
theorem failedCreate_told : ∃ earlier entry later key c answer,
    log .empty failedCreate = earlier ++ entry :: later ∧ entry.Calls key c answer ∧
      (∀ step ∈ failedCreate, step.byOwner (some "fc-host-1") = true) ∧
      c.action = .delete ∧ (∀ host, ¬ RanOn earlier key host) ∧ c.request.host = none := by
  have calls : ((log .empty failedCreate)[19]?.bind (·.event.call)).any
      (fun call => call.1.action = .delete) = true := by
    decide +kernel
  have resting : ((log .empty failedCreate).take 19).all (fun other =>
      other.event.after.vms.all (·.status ≠ .running)) = true := by
    decide +kernel
  have owners : ∀ step ∈ failedCreate, step.byOwner (some "fc-host-1") = true := by decide
  obtain ⟨⟨c, answer⟩, called, delete⟩ := (Option.any_eq_true _ _).mp calls
  obtain ⟨entry, here, call⟩ := Option.bind_eq_some_iff.mp called
  have split : log .empty failedCreate = (log .empty failedCreate).take 19 ++
      entry :: (log .empty failedCreate).drop 20 := by
    conv_lhs => rw [← List.take_append_drop 19 (log .empty failedCreate),
      List.drop_eq_getElem?_toList_append, here]
    rfl
  obtain ⟨key, calls⟩ := (log_follows split).calls call
  have never : ∀ host, ¬ RanOn ((log .empty failedCreate).take 19) key host := by
    rintro host ⟨other, ho, vm, there, running, -⟩
    have still := List.all_eq_true.mp (List.all_eq_true.mp resting other ho) vm
      (Store.vm?_mem there).1
    simp [running] at still
  have delete : c.action = .delete := by simpa using delete
  obtain ⟨-, -, told⟩ := calls_carry_host failedCreate _ entry _ key c answer split calls
  exact ⟨_, entry, _, key, c, answer, split, calls, owners, delete, never,
    (told (some "fc-host-1") owners).2 delete never⟩

end Fleet

end VmFleet
