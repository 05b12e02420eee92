/-
Programs that come to an end whatever the store and the tool answer: handlers
and recoveries do, and a sweep does unless its cutoff is a time that the calendar
does not have.
-/
import VmFleet.Proofs.Clock
import VmFleet.Proofs.Working

namespace VmFleet

namespace Program

variable {α β : Type} {p : Program α} {f : α → Program β} {tool : Tool} {w w' : World}
  {why : String}

/-- Whatever the answers, the program does not break down. -/
def Returns : Program α → Prop
  | .pure _ => True
  | .ask _ next => ∀ b, (next b).Returns
  | .crash _ => False

theorem Returns.bind (h : p.Returns) (rest : ∀ a, (f a).Returns) : (p >>= f).Returns := by
  induction p with
  | pure a => exact rest a
  | ask op next ih => exact fun b => ih b (h b)
  | crash why => exact h

theorem Returns.perform {op : Operation β} {f : β → Program α} (h : ∀ b, (f b).Returns) :
    (Program.perform op >>= f).Returns :=
  h

theorem Returns.pure (a : α) : (Pure.pure a : Program α).Returns :=
  trivial

theorem Returns.finished (h : p.Returns) (tool : Tool) (w : World) :
    ∃ a w', p.run tool w = (.finished a, w') := by
  induction p generalizing w with
  | pure a => exact ⟨a, w, rfl⟩
  | ask op next ih => exact ih _ (h _) _
  | crash why => exact h.elim

theorem Returns.not_crashed (returns : p.Returns) :
    p.run tool w ≠ (.crashed why, w') := by
  intro broken
  obtain ⟨a, w₁, finished⟩ := returns.finished tool w
  cases finished.symm.trans broken

theorem Returns.within (h : p.Returns) (limit : Instant) : (p.within limit).Returns := by
  induction p with
  | pure a => trivial
  | crash why => exact h
  | ask op next ih =>
    cases op
    case call c abortAt =>
      rw [Program.within]
      intro b
      cases b with
      | none => trivial
      | some r => exact ih _ (h _)
    all_goals exact fun b => ih b (h b)

theorem run_now {g : Instant → Program α} :
    (perform .now >>= g).run tool w =
      (g (w.advance World.tick).now).run tool (w.advance World.tick) :=
  rfl

end Program

namespace Lifecycle

open Program (Returns)

variable (settings : Settings) (attempt : Attempt) (task : Task)

theorem recoverAborted_returns (kind : TaskKind) (key : Int) (why : String) :
    (recoverAborted kind key why).Returns := by
  refine .perform fun found => ?_
  cases found with
  | none => exact .pure ()
  | some vm =>
    have mark : (if marks kind vm then do
          let _ ← markError vm.key vm.status why (givesBack kind vm)
        else pure () : Program Unit).Returns := by
      split
      · exact .bind (.perform fun _ => .pure _) fun _ => .pure ()
      · exact .pure ()
    show (if givesBack kind vm = true then _ else _ : Program Unit).Returns
    split
    · exact .perform fun _ => mark
    · exact mark

theorem recoverAll_returns (tasks : List Task) : (recoverAll tasks).Returns := by
  induction tasks with
  | nil => exact .pure ()
  | cons task rest ih => exact .bind (recoverAborted_returns _ _ _) fun _ => ih

theorem sweepVm_returns (cutoff : Instant) (maxAge : Duration) (vm : Vm) :
    (sweepVm cutoff maxAge vm).Returns := by
  have mark : ∀ drop, (markError vm.key vm.status (stuckText vm.status maxAge) drop).Returns :=
    fun _ => .perform fun _ => .pure _
  unfold sweepVm
  split
  · exact .pure none
  dsimp only
  split
  · exact .perform fun _ => mark _
  · exact mark _

theorem sweepVms_returns (cutoff : Instant) (maxAge : Duration) (vms : List Vm) :
    (sweepVms cutoff maxAge vms).Returns := by
  induction vms with
  | nil => exact .pure []
  | cons vm rest ih =>
    exact .bind (sweepVm_returns cutoff maxAge vm) fun _ => .bind ih fun _ => .pure _

/-- A sweep that breaks down has changed nothing: it is over the cutoff. -/
theorem sweepStale_crashed {maxAge : Duration} {p : Provisioner} {w w' : World} {why : String}
    (quiet : w.coming = []) (h : (sweepStale maxAge).run p.tool w = (.crashed why, w')) :
    w'.store = w.store := by
  unfold sweepStale at h
  rw [Program.run_now] at h
  split at h
  · cases h
  split at h
  · obtain ⟨-, rfl⟩ := Prod.mk.inj h
    simp only [World.advance, World.reach_of_coming_eq_nil quiet]
  · next cutoff _ =>
    refine absurd h (Returns.not_crashed (.perform fun stuck => ?_))
    refine .bind (sweepVms_returns cutoff maxAge stuck) fun vms => .perform fun failed => ?_
    cases failed with
    | error e => exact .pure _
    | ok tasks => exact .bind (recoverAll_returns tasks) fun _ => .pure _

theorem enter_returns : (enter task).Returns :=
  .perform fun _ => .pure _

theorem provision_returns (action : Action) (request : ProvisionRequest) :
    (provision settings attempt action request).Returns := by
  refine .perform fun now => ?_
  dsimp only
  split
  · exact .pure _
  · exact .perform fun _ => .pure _

theorem provisionAll_returns (request : ProvisionRequest) (actions : List Action) :
    (provisionAll settings attempt request actions).Returns := by
  induction actions with
  | nil => exact .pure _
  | cons action rest ih =>
    refine .bind (provision_returns settings attempt action request) fun r => ?_
    cases r with
    | error e => exact .pure _
    | ok _ => exact ih

theorem settleFailure_returns (vm : Vm) (revert : VmStatus) (e : Error) :
    (settleFailure attempt vm revert e).Returns := by
  refine .perform fun found => ?_
  have giveUp : ∀ current drop, (do
      let _ ← markError vm.key current e.message drop
      return .failed e.message : Program Outcome).Returns :=
    fun _ _ => .perform fun _ => .pure _
  dsimp only
  split
  · refine .perform fun moved => ?_
    cases moved with
    | error _ => exact giveUp _ _
    | ok _ => exact .pure _
  · exact giveUp _ _

theorem create_returns : (create settings attempt task).Returns := by
  refine .bind (enter_returns task) fun entered => ?_
  cases entered with
  | error outcome => exact .pure _
  | ok vm =>
    have settle := fun e => settleFailure_returns attempt vm .pending e
    refine .perform fun granted => ?_
    cases granted with
    | error e => exact settle e
    | ok allocation =>
      refine .bind (provision_returns settings attempt _ _) fun r => ?_
      cases r with
      | error e => exact .perform fun _ => settle e
      | ok report =>
        refine .perform fun moved => ?_
        cases moved with
        | error e => exact .perform fun _ => settle e
        | ok _ => exact .pure _

theorem delete_returns : (delete settings attempt task).Returns := by
  refine .bind (enter_returns task) fun entered => ?_
  cases entered with
  | error outcome => exact .pure _
  | ok vm =>
    refine .bind (provision_returns settings attempt _ _) fun _ => ?_
    exact .perform fun _ => .perform fun _ => .pure _

theorem power_returns : (power settings attempt task).Returns := by
  refine .bind (enter_returns task) fun entered => ?_
  cases entered with
  | error outcome => exact .pure _
  | ok vm =>
    have settle := fun e => settleFailure_returns attempt vm task.kind.revert e
    refine .bind (provisionAll_returns settings attempt _ _) fun r => ?_
    cases r with
    | error e => exact settle e
    | ok _ =>
      refine .perform fun moved => ?_
      cases moved with
      | error e => exact settle e
      | ok _ => exact .pure _

theorem handle_returns : (handle settings attempt task).Returns := by
  unfold handle
  split
  · exact create_returns settings attempt task
  · exact delete_returns settings attempt task
  all_goals exact power_returns settings attempt task

end Lifecycle

namespace Queue

open Lifecycle (Settings Attempt)
open Program (Returns)

variable {queue : QueueConfig} {settings : Settings} {jitter : Jitter} {task : Task} {tool : Tool}
  {w w' : World} {why : String}

theorem execute_returns (attempt : Attempt) (abortAt : Instant) :
    (execute queue settings attempt abortAt task).Returns := by
  refine .bind ((Lifecycle.handle_returns settings attempt task).within abortAt) fun ended => ?_
  cases ended with
  | some outcome => exact .pure _
  | none => exact .bind (Lifecycle.recoverAborted_returns _ _ _) fun _ => .pure _

end Queue

end VmFleet
