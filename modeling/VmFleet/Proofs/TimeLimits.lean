/-
How long a handler waits for the provisioning tool. Each call gets no more time
than is left until the soft limit and is given up a grace after that time, so
that all waiting is over a grace after the soft limit. A configuration that
passes its check has the hard limit later than that, and so no handler is
aborted for the time its calls take.
-/
import VmFleet.Config.Check
import VmFleet.Proofs.Clock
import VmFleet.Proofs.Returning

namespace VmFleet

/-! ## The calls of a run -/

/-- One call of a program: with its limit, if it has one, and the times around it. -/
structure Wait where
  call : Call
  abortAt : Option Instant
  start : Instant
  finish : Instant

namespace Wait

def lasts (x : Wait) : Duration :=
  x.finish.since x.start

/-- How long the calls last together. -/
def total : List Wait → Duration
  | [] => .zero
  | x :: rest => x.lasts + total rest

theorem total_cons (x : Wait) (rest : List Wait) : total (x :: rest) = x.lasts + total rest := rfl

end Wait

/-- The call that an operation is, carried out between two times. -/
def Operation.wait? {β : Type} : Operation β → Instant → Instant → Option Wait
  | .call c abortAt, start, finish => some ⟨c, abortAt, start, finish⟩
  | _, _, _ => none

theorem Operation.wait?_eq_some {β : Type} {op : Operation β} {start finish : Instant} {x : Wait}
    (h : op.wait? start finish = some x) : start = x.start ∧ finish = x.finish := by
  cases op <;> cases h
  exact ⟨rfl, rfl⟩

namespace Program

/-- The calls of a run, in order. -/
def waits (tool : Tool) {α : Type} : Program α → World → List Wait
  | .pure _, _ => []
  | .ask op next, w =>
    let (answer, w') := w.perform tool op
    (op.wait? w.now w'.now).toList ++ (next answer).waits tool w'
  | .crash _, _ => []

end Program

namespace World

variable {w : World}

/-- A call ends when its reply says so, or when its time and the grace are over. -/
theorem callEnd_after (c : Call) (start : Instant) (reply : Reply) :
    ∃ d ≤ c.budget + callGrace, (callEnd c start reply).1 = start.after d := by
  have whole : c.budget + callGrace ≤ c.budget + callGrace := Nat.le_refl _
  simp only [callEnd]
  split
  · exact ⟨_, whole, rfl⟩
  next d _ =>
  split
  · next early => exact ⟨d, Instant.after_le_after.mp early, rfl⟩
  · exact ⟨_, whole, rfl⟩

theorem call_after (tool : Tool) (c : Call) (w : World) :
    ∃ d ≤ c.budget + callGrace, (w.call tool c none).2.now = w.now.after d := by
  obtain ⟨d, within, ends⟩ := callEnd_after c w.now (tool w.calls.length c w.now)
  refine ⟨d, within, ?_⟩
  simp only [call, reach, ends, if_pos (w.now.le_after d)]

theorem call_within {tool : Tool} {c : Call} {limit : Instant}
    (early : (w.call tool c none).2.now ≤ limit) :
    w.call tool c (some limit) = w.call tool c none := by
  obtain ⟨d, -, ends⟩ := callEnd_after c w.now (tool w.calls.length c w.now)
  have early : ¬ limit < w.now.after d := by
    simp only [call, reach, ends, if_pos (w.now.le_after d)] at early
    simp only [Instant.le_def, Instant.lt_def] at *
    omega
  simp only [call, ends, if_neg early]

theorem calls_perform {β : Type} (tool : Tool) (op : Operation β) (w : World) :
    (w.perform tool op).2.calls.map (fun c => (c.call, c.start)) =
      w.calls.map (fun c => (c.call, c.start)) ++
        (op.wait? w.now (w.perform tool op).2.now).toList.map fun x => (x.call, x.start) := by
  cases op
  case call c abortAt => simp [perform, call, reach, Operation.wait?]
  case now | findVm | vmsIn | removeVm | release => exact (List.append_nil _).symm
  all_goals
    refine Eq.trans ?_ (List.append_nil _).symm
    exact congrArg _ (w.commit_frame _).2.1

/-- An operation without a limit does not set the clock back. -/
theorem toNanos_le_perform {β : Type} (tool : Tool) (op : Operation β) (w : World)
    (free : ∀ x, op.wait? w.now (w.perform tool op).2.now = some x → x.abortAt = none) :
    w.now.toNanos ≤ (w.perform tool op).2.now.toNanos := by
  cases op
  case now => exact Instant.toNanos_le_of_after (now_advance w tick)
  case call c abortAt =>
    cases free _ rfl
    obtain ⟨d, -, ends⟩ := call_after tool c w
    exact Instant.toNanos_le_of_after ends
  case findVm | vmsIn => exact Int.le_refl _
  case removeVm | release => exact Int.le_refl _
  all_goals exact Int.le_of_eq (congrArg Instant.toNanos (w.commit_frame _).1).symm

end World

namespace Program

variable {α β : Type} {p : Program α} {f : α → Program β} {tool : Tool} {w w' : World}

theorem waits_ask (op : Operation β) (next : β → Program α) :
    (ask op next).waits tool w = (op.wait? w.now (w.perform tool op).2.now).toList ++
      (next (w.perform tool op).1).waits tool (w.perform tool op).2 :=
  rfl

theorem run_ask (op : Operation β) (next : β → Program α) :
    (ask op next).run tool w =
      (next (w.perform tool op).1).run tool (w.perform tool op).2 :=
  rfl

theorem waits_now {g : Instant → Program α} :
    (Program.perform .now >>= g).waits tool w =
      (g (w.advance World.tick).now).waits tool (w.advance World.tick) :=
  rfl

/-- The calls of a run are those that the world keeps a record of. -/
theorem calls_run (p : Program α) (tool : Tool) (w : World) :
    (p.run tool w).2.calls.map (fun c => (c.call, c.start)) =
      w.calls.map (fun c => (c.call, c.start)) ++
        (p.waits tool w).map fun x => (x.call, x.start) := by
  induction p generalizing w with
  | pure a => exact (List.append_nil _).symm
  | crash why => exact (List.append_nil _).symm
  | ask op next ih =>
    rw [waits_ask, List.map_append, ← List.append_assoc, ← World.calls_perform]
    exact ih _ _

theorem mem_waits_bind {x : Wait} (h : x ∈ (p >>= f).waits tool w) :
    x ∈ p.waits tool w ∨ ∃ a w', x ∈ (f a).waits tool w' := by
  induction p generalizing w with
  | pure a => exact .inr ⟨a, w, h⟩
  | ask op next ih =>
    rcases List.mem_append.mp h with here | later
    · exact .inl (List.mem_append_left _ here)
    · exact (ih _ later).imp_left (List.mem_append_right _)
  | crash why => exact absurd h List.not_mem_nil

/-- In every run each call satisfies `G`. -/
def Paced (tool : Tool) (G : Wait → Prop) (p : Program α) : Prop :=
  ∀ w, ∀ x ∈ p.waits tool w, G x

variable {G : Wait → Prop}

theorem Paced.pure (a : α) : (Pure.pure a : Program α).Paced tool G :=
  fun _ _ h => absurd h List.not_mem_nil

theorem Paced.bind (h : p.Paced tool G) (rest : ∀ a, (f a).Paced tool G) :
    (p >>= f).Paced tool G := by
  intro w x hx
  rcases mem_waits_bind hx with here | ⟨a, w', later⟩
  · exact h w x here
  · exact rest a w' x later

/-- What is no call may be asked for at any time. -/
theorem Paced.perform {op : Operation β} {f : β → Program α}
    (silent : ∀ start finish, op.wait? start finish = none) (h : ∀ b, (f b).Paced tool G) :
    (Program.perform op >>= f).Paced tool G := by
  refine .bind (fun w x hx => ?_) h
  simp only [Program.perform, waits, silent, Option.toList_none, List.append_nil] at hx
  exact absurd hx List.not_mem_nil

/-- Where all calls are over by a time, they last no longer together than until then. -/
theorem total_waits_le {limit : Instant}
    (paced : ∀ x ∈ p.waits tool w, x.abortAt = none ∧ x.finish.toNanos ≤ limit.toNanos) :
    Wait.total (p.waits tool w) ≤ limit.since w.now := by
  induction p generalizing w with
  | pure a => exact Nat.zero_le _
  | crash why => exact Nat.zero_le _
  | ask op next ih =>
    rw [waits_ask] at paced ⊢
    have rest := ih _ fun x hx => paced x (List.mem_append_right _ hx)
    have here : ∀ x, op.wait? w.now (w.perform tool op).2.now = some x →
        x.abortAt = none ∧ x.finish.toNanos ≤ limit.toNanos := fun x hx =>
      paced x (List.mem_append_left _ (by simp [hx]))
    have clock := World.toNanos_le_perform tool op w fun x hx => (here x hx).1
    cases made : op.wait? w.now (w.perform tool op).2.now with
    | none =>
      simp only [Option.toList_none, List.nil_append, Duration.le_def, Instant.since] at rest ⊢
      omega
    | some x =>
      obtain ⟨-, within⟩ := here x made
      obtain ⟨start, finish⟩ := Operation.wait?_eq_some made
      simp only [Option.toList_some, List.singleton_append, Wait.total_cons, Duration.le_def,
        Duration.nanos_add, Wait.lasts, Instant.since, ← start, ← finish] at rest within ⊢
      omega

/-- A time limit that no call reaches changes nothing. -/
theorem run_within {limit : Instant} {a : α} (run : p.run tool w = (.finished a, w'))
    (paced : ∀ x ∈ p.waits tool w, x.abortAt = none ∧ x.finish ≤ limit) :
    (p.within limit).run tool w = (.finished (some a), w') := by
  induction p generalizing w with
  | pure b =>
    obtain ⟨same, rfl⟩ := Prod.mk.inj run
    cases same
    rfl
  | crash why => cases (Prod.mk.inj run).1
  | ask op next ih =>
    rw [waits_ask] at paced
    rw [run_ask] at run
    have rest := ih _ run fun x hx => paced x (List.mem_append_right _ hx)
    cases op
    case call c abortAt =>
      obtain ⟨rfl, early⟩ := paced _ (List.mem_append_left _ List.mem_cons_self)
      have same : w.perform tool (.call c (some limit)) = w.perform tool (.call c none) :=
        World.call_within early
      have answered : (w.perform tool (.call c none)).1.isSome := rfl
      obtain ⟨r, answer⟩ := Option.isSome_iff_exists.mp answered
      rw [within, run_ask, same]
      rw [answer] at rest ⊢
      exact rest
    all_goals exact rest

end Program

namespace Lifecycle

open Program (Paced)

variable {tool : Tool} {settings : Settings} {attempt : Attempt}

/-- A call with a share of the time that is left until the deadline. It is over a grace after the
deadline at the latest. -/
structure Budgeted (settings : Settings) (deadline : Instant) (x : Wait) : Prop where
  free : x.abortAt = none
  positive : .zero < x.call.budget
  le_tool : x.call.budget ≤ settings.toolTimeout
  le_left : x.call.budget ≤ deadline.since x.start
  early : x.start < deadline
  plain : x.finish.nano < 1000000000
  finish : x.finish ≤ deadline.after callGrace

theorem provision_waits (action : Action) (request : ProvisionRequest) (w : World) :
    (provision settings attempt action request).waits tool w =
      let w := w.advance World.tick
      let budget := min (attempt.deadline.since w.now) settings.toolTimeout
      if budget = .zero then []
      else [⟨⟨action, request, budget⟩, none, w.now,
        (w.call tool ⟨action, request, budget⟩ none).2.now⟩] := by
  unfold provision
  rw [Program.waits_now]
  dsimp only
  split <;> rfl

theorem provision_paced (plain : attempt.deadline.nano < 1000000000) (action : Action)
    (request : ProvisionRequest) :
    (provision settings attempt action request).Paced tool
      (Budgeted settings attempt.deadline) := by
  intro w x hx
  rw [provision_waits] at hx
  dsimp only at hx
  split at hx
  · exact absurd hx List.not_mem_nil
  next some_left =>
  obtain rfl := List.mem_singleton.mp hx
  have start : (w.advance World.tick).now.nano < 1000000000 := by
    rw [World.now_advance]
    exact Instant.after_nano_lt _ _
  generalize w.advance World.tick = w at *
  obtain ⟨d, within, ends⟩ := World.call_after tool
    ⟨action, request, min (attempt.deadline.since w.now) settings.toolTimeout⟩ w
  have budget : 0 < min (attempt.deadline.since w.now).nanos settings.toolTimeout.nanos :=
    Nat.pos_of_ne_zero fun zero => some_left (congrArg Duration.mk zero)
  simp only [Duration.le_def, Duration.nanos_add, Duration.nanos_min] at within
  refine ⟨rfl, budget, Nat.min_le_right _ _, Nat.min_le_left _ _, ?_, ?_, ?_⟩
  · rw [Instant.lt_iff_toNanos start plain]
    simp only [Instant.since] at budget
    omega
  · exact ends ▸ Instant.after_nano_lt _ _
  · simp only [ends]
    rw [Instant.le_iff_toNanos (Instant.after_nano_lt _ _) (Instant.after_nano_lt _ _),
      Instant.toNanos_after, Instant.toNanos_after]
    simp only [Instant.since] at within budget
    omega

variable (settings attempt)

theorem provisionAll_paced (plain : attempt.deadline.nano < 1000000000)
    (request : ProvisionRequest) (actions : List Action) :
    (provisionAll settings attempt request actions).Paced tool
      (Budgeted settings attempt.deadline) := by
  induction actions with
  | nil => exact .pure _
  | cons action rest ih =>
    refine .bind (provision_paced plain action request) fun r => ?_
    cases r with
    | error e => exact .pure _
    | ok _ => exact ih

section Silent

variable {G : Wait → Prop} (task : Task)

theorem enter_paced : (enter task).Paced tool G :=
  .perform (fun _ _ => rfl) fun _ => .pure _

theorem settleFailure_paced (vm : Vm) (revert : VmStatus) (e : Error) :
    (settleFailure attempt vm revert e).Paced tool G := by
  refine .perform (fun _ _ => rfl) fun found => ?_
  have giveUp : ∀ current drop, (do
      let _ ← markError vm.key current e.message drop
      return .failed e.message : Program Outcome).Paced tool G :=
    fun _ _ => .bind (.perform (fun _ _ => rfl) fun _ => .pure _) fun _ => .pure _
  dsimp only
  split
  · refine .perform (fun _ _ => rfl) fun moved => ?_
    cases moved with
    | error _ => exact giveUp _ _
    | ok _ => exact .pure _
  · exact giveUp _ _

end Silent

variable (task : Task) (plain : attempt.deadline.nano < 1000000000)
include plain

theorem create_paced :
    (create settings attempt task).Paced tool (Budgeted settings attempt.deadline) := by
  refine .bind (enter_paced task) fun entered => ?_
  cases entered with
  | error outcome => exact .pure _
  | ok vm =>
    have settle : ∀ e, (settleFailure attempt vm .pending e).Paced tool
        (Budgeted settings attempt.deadline) := fun e => settleFailure_paced attempt vm .pending e
    refine .perform (fun _ _ => rfl) fun granted => ?_
    cases granted with
    | error e => exact settle e
    | ok allocation =>
      refine .bind (provision_paced plain _ _) fun r => ?_
      cases r with
      | error e => exact .perform (fun _ _ => rfl) fun _ => settle e
      | ok report =>
        refine .perform (fun _ _ => rfl) fun moved => ?_
        cases moved with
        | error e => exact .perform (fun _ _ => rfl) fun _ => settle e
        | ok _ => exact .pure _

theorem delete_paced :
    (delete settings attempt task).Paced tool (Budgeted settings attempt.deadline) := by
  refine .bind (enter_paced task) fun entered => ?_
  cases entered with
  | error outcome => exact .pure _
  | ok vm =>
    refine .bind (provision_paced plain _ _) fun _ => ?_
    exact .perform (fun _ _ => rfl) fun _ => .perform (fun _ _ => rfl) fun _ => .pure _

theorem power_paced :
    (power settings attempt task).Paced tool (Budgeted settings attempt.deadline) := by
  refine .bind (enter_paced task) fun entered => ?_
  cases entered with
  | error outcome => exact .pure _
  | ok vm =>
    have settle : ∀ e, (settleFailure attempt vm task.kind.revert e).Paced tool
        (Budgeted settings attempt.deadline) := fun e =>
      settleFailure_paced attempt vm task.kind.revert e
    refine .bind (provisionAll_paced settings attempt plain _ _) fun r => ?_
    cases r with
    | error e => exact settle e
    | ok _ =>
      refine .perform (fun _ _ => rfl) fun moved => ?_
      cases moved with
      | error e => exact settle e
      | ok _ => exact .pure _

/-- Every call of a handler has a share of the time until its deadline. -/
theorem handle_paced :
    (handle settings attempt task).Paced tool (Budgeted settings attempt.deadline) := by
  unfold handle
  split
  · exact create_paced settings attempt task plain
  · exact delete_paced settings attempt task plain
  all_goals exact power_paced settings attempt task plain

end Lifecycle

/-! ## The limits of a configuration -/

/-- In a configuration that passes its check the hard limit leaves room for the last call. -/
theorem Config.check_limits {c : Config} (valid : c.check = .ok ()) :
    c.queue.softLimit + callGrace < c.queue.hardLimit := by
  have none : c.fault? = none := by
    cases fault : c.fault? with
    | none => rfl
    | some f => simp [Config.check, fault] at valid
  simp only [Config.fault?] at none
  split_ifs at none with _ _ _ _ _ _ gap
  exact Nat.lt_of_not_le gap

open Lifecycle in
/-- A handler that begins now under a configuration that passes its check: each call is made before
the soft limit and gets some time, at most the tool's and at most what is left until the soft limit.
All calls together last at most a grace longer than the soft limit, which is less than the hard
limit. So the hard limit changes nothing: the handler comes to its end. -/
theorem calls_end_before_hard_limit (c : Config) (valid : c.check = .ok ()) (tool : Tool)
    (task : Task) (w : World) :
    let soft := w.now.after c.queue.softLimit
    let hard := w.now.after c.queue.hardLimit
    let handler := handle (.of c) (.of task soft) task
    (∀ x ∈ handler.waits tool w, .zero < x.call.budget ∧ x.call.budget ≤ c.tool.timeout ∧
        x.call.budget ≤ soft.since x.start ∧ x.start < soft) ∧
      Wait.total (handler.waits tool w) ≤ c.queue.softLimit + callGrace ∧
      c.queue.softLimit + callGrace < c.queue.hardLimit ∧
      ∃ outcome w', handler.run tool w = (.finished outcome, w') ∧
        (Queue.execute c.queue (.of c) (.of task soft) hard task).run tool w =
          (.finished outcome, w') := by
  intro soft hard handler
  have room := Config.check_limits valid
  have plain : soft.nano < 1000000000 := Instant.after_nano_lt _ _
  have paced : handler.Paced tool (Budgeted (.of c) soft) := handle_paced _ _ task plain
  have paced : ∀ x ∈ handler.waits tool w, Budgeted (.of c) soft x := paced w
  refine ⟨fun x hx => ?_, ?_, room, ?_⟩
  · obtain ⟨-, positive, le_tool, le_left, early, -, -⟩ := paced x hx
    exact ⟨positive, le_tool, le_left, early⟩
  · have inTime : ∀ x ∈ handler.waits tool w,
        x.abortAt = none ∧ x.finish.toNanos ≤ (soft.after callGrace).toNanos := by
      intro x hx
      obtain ⟨free, -, -, -, -, plain, finish⟩ := paced x hx
      exact ⟨free, (Instant.le_iff_toNanos plain (Instant.after_nano_lt _ _)).mp finish⟩
    have waited := Program.total_waits_le inTime
    rwa [Instant.after_after, Instant.since_after] at waited
  · obtain ⟨outcome, w', run⟩ := (handle_returns (.of c) (.of task soft) task).finished tool w
    have early : soft.after callGrace ≤ hard := by
      rw [Instant.after_after]
      exact Instant.after_le_after.mpr (Nat.le_of_lt room)
    have unhindered : (handler.within hard).run tool w = (.finished (some outcome), w') :=
      Program.run_within run fun x hx =>
        ⟨(paced x hx).free, Instant.le_trans (paced x hx).finish early⟩
    exact ⟨outcome, w', run, Program.run_bind unhindered⟩

/-- A tool that has most of the time until the soft limit for one call. -/
def slowConfig : Config :=
  { tool := { timeout := .ofSeconds 200 } }

/-- A stop takes all the time it gets, and the start after it never comes back. -/
def slowTool : Tool := fun number call start =>
  let report : Report := ⟨call.action, [], some 0, [], "", start, start.after call.budget⟩
  { lasts := if number = 0 then some call.budget else none, ends := .answered (.ok report) }

def oneRunning : World where
  store := { vms := [{ (default : Vm) with key := 1, id := "srv-1", status := .running }] }
  now := ⟨0, 0⟩

def restartTask : Task :=
  .fresh "task-1" .restart 1 {} 1 ⟨0, 0⟩

/-- A restart of two such calls is given up a grace after the soft limit, less the two microseconds
for which it did not wait. -/
theorem restart_waits_to_the_grace :
    let soft := oneRunning.now.after slowConfig.queue.softLimit
    let handler := Lifecycle.handle (.of slowConfig) (.of restartTask soft) restartTask
    slowConfig.check = .ok () ∧
      (handler.waits slowTool oneRunning).map (·.call.budget) = [⟨200000000000⟩, ⟨79999998000⟩] ∧
      Wait.total (handler.waits slowTool oneRunning) = ⟨280249998000⟩ ∧
      Wait.total (handler.waits slowTool oneRunning) ≤
        slowConfig.queue.softLimit + callGrace := by
  have valid : slowConfig.check = .ok () := by decide +kernel
  obtain ⟨-, total, -, -⟩ :=
    calls_end_before_hard_limit slowConfig valid slowTool restartTask oneRunning
  exact ⟨valid, by decide +kernel, by decide +kernel, total⟩

end VmFleet
