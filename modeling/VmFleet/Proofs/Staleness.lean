/-
How long a VM has been in its status, as the sweep sees it. The sweep goes by
the time of the last write to the record. A change of status sets it, but so
does an edit of name or description: the sweep moves a VM to `error` that is in
a transient status and was not written to for too long, and one whose name is
edited in time it leaves where it is, however long ago it came there.
-/
import VmFleet.Proofs.Acts
import VmFleet.Proofs.AddressKept
import VmFleet.Proofs.Clock
import VmFleet.Proofs.Hosts
import VmFleet.Proofs.Stamps

namespace VmFleet

/-! ## The time of the last write -/

namespace Store

/-- Each record of the later store is one of the earlier, or was written at the given time. -/
def Stamped (now : Instant) (s s' : Store) : Prop :=
  ∀ key vm, s'.vm? key = some vm → s.vm? key = some vm ∨ vm.updatedAt = now.cutToMicros

namespace Stamped

variable {s s' : Store} {now : Instant} {key : Int} {vm : Vm}

theorem of_vms (same : s'.vms = s.vms) : Stamped now s s' := by
  intro key vm found
  rw [vm?, same] at found
  exact .inl found

theorem setVm (own : vm.key = key) (stamp : vm.updatedAt = now.cutToMicros) :
    Stamped now s (s.setVm key fun _ => vm) := by
  intro k found there
  rw [vm?_setVm own] at there
  split at there
  · obtain ⟨_, -, rfl⟩ := Option.map_eq_some_iff.mp there
    exact .inr stamp
  · exact .inl there

theorem removeVm : Stamped now s (s.removeVm key).2 := by
  intro k found there
  rw [vm?_removeVm] at there
  split at there
  · cases there
  · exact .inl there

theorem append (stamp : vm.updatedAt = now.cutToMicros) (vms : s'.vms = s.vms ++ [vm]) :
    Stamped now s s' := by
  intro k found there
  rw [vm?, vms, List.find?_append, Option.or_eq_some_iff] at there
  rcases there with old | ⟨-, new⟩
  · exact .inl old
  · rw [List.mem_singleton.mp (List.mem_of_find?_eq_some new)]
    exact .inr stamp

theorem trans {t : Store} (h : Stamped now s s') (h' : Stamped now s' t) : Stamped now s t := by
  intro key vm found
  exact (h' key vm found).elim (h key vm) .inr

end Stamped

theorem insertVm_stamped {s s' : Store} {now : Instant} {id : String} {draft : Draft} {vm : Vm}
    (h : s.insertVm now id draft = .ok (vm, s')) : Stamped now s s' := by
  simp only [insertVm] at h
  split at h
  · cases h
  · simp only [Except.ok.injEq, Prod.mk.injEq] at h
    obtain ⟨rfl, rfl⟩ := h
    exact .append rfl rfl

theorem updateVmDetails_stamped {s s' : Store} {now : Instant} {key : Int} {vm : Vm}
    {name description : Option String}
    (h : s.updateVmDetails now key name description = .ok (vm, s')) : Stamped now s s' := by
  cases found : s.vm? key with
  | none => simp [updateVmDetails, found] at h
  | some old =>
    rw [updateVmDetails_of_found name description found] at h
    obtain ⟨rfl, rfl⟩ := Prod.mk.inj (Except.ok.inj h)
    exact .setVm (vm?_mem found).2 rfl

end Store

open Store (Stamped)

/-- Something that is done to the store at one time. -/
inductive Touch where
  | operation {β : Type} (op : Operation β)
  /-- Name and description are edited, where given. -/
  | edit (key : Int) (name description : Option String)
  | request (request : Fleet.Request)

namespace Touch

open AllocatorCall (committed)

def apply (now : Instant) (s : Store) : Touch → Store
  | .operation op => (({ store := s, now } : World).perform Fleet.promptTool.tool op).2.store
  | .edit key name description => committed s (s.updateVmDetails now key name description)
  | .request r => r.apply now s

/-- The store after a history, each of whose parts has its time. -/
def after (s : Store) (history : List (Touch × Instant)) : Store :=
  history.foldl (fun s (touch, now) => touch.apply now s) s

variable {s : Store} {now : Instant}

theorem stamped_operation {β : Type} (op : Operation β) :
    Stamped now s ((Touch.operation op).apply now s) := by
  have effect : Effect s op _ ((Touch.operation op).apply now s) :=
    .of_perform Fleet.promptTool (w := { store := s, now }) op rfl
  have changes := Effect.vms_cases effect
  cases op
  case transition key expected next patch =>
    simp only [apply, World.perform]
    cases moved : s.transition now key expected next patch with
    | error e => exact .of_vms rfl
    | ok r =>
      obtain ⟨old, found, -, own, same⟩ := Store.transition_ok moved
      simp only [World.commit, same]
      rw [own]
      exact .setVm (Store.vm?_mem found).2 rfl
  all_goals
    rcases changes with ⟨same, -⟩ | ⟨_, _, _, _, _, shift, -⟩ | ⟨_, -, same⟩
    · exact .of_vms same
    · cases shift
    · rw [same]
      exact .removeVm

theorem stamped_request (r : Fleet.Request) (distinct : s.VmsDistinct) :
    Stamped now s (r.apply now s) := by
  have leaves := r.leaves now distinct
  cases r with
  | createVm maxAttempts ids taskId draft placement =>
    simp only [Fleet.Request.apply, Client.createVm]
    split
    · exact .of_vms rfl
    split
    · exact .of_vms rfl
    next vm s₁ inserted =>
    obtain ⟨id, -, inserted⟩ := Fleet.insertFresh_ok inserted
    have stamped := Store.insertVm_stamped inserted
    split
    · next task s₂ stored =>
      obtain ⟨-, -, rfl⟩ := Fleet.enqueue_ok stored
      exact stamped.trans (.of_vms rfl)
    · exact stamped.trans .removeVm
  | updateVm vmId owner name description =>
    simp only [Fleet.Request.apply]
    cases done : Client.updateVm s now vmId owner name description with
    | error e => exact .of_vms rfl
    | ok r =>
      obtain ⟨_, -, done⟩ := bind_ok done
      obtain ⟨_, -, done⟩ := bind_ok done
      obtain ⟨vm, -, done⟩ := bind_ok done
      exact Store.updateVmDetails_stamped done
  | createPool | setPoolActive | ask | enqueue =>
    generalize Fleet.Request.apply _ now s = s' at leaves
    cases leaves with
    | aside vms => exact .of_vms vms
    | _ => exact .of_vms rfl

/-- Whatever is done, a record that is changed by it says so. -/
theorem stamped (touch : Touch) (distinct : s.VmsDistinct) :
    Stamped now s (touch.apply now s) := by
  cases touch with
  | operation op => exact stamped_operation op
  | edit key name description =>
    simp only [apply]
    cases done : s.updateVmDetails now key name description with
    | error e => exact .of_vms rfl
    | ok r => exact Store.updateVmDetails_stamped done
  | request r => exact stamped_request r distinct

theorem vmsDistinct (touch : Touch) (now : Instant) (distinct : s.VmsDistinct) :
    (touch.apply now s).VmsDistinct := by
  cases touch with
  | operation op =>
    have effect : Effect s op _ ((Touch.operation op).apply now s) :=
      .of_perform Fleet.promptTool (w := { store := s, now }) op rfl
    rcases Effect.vms_cases effect with
      ⟨vms, next⟩ | ⟨key, _, _, old, vm, -, found, -, own, id, -, same⟩ | ⟨key, -, same⟩
    · exact distinct.congr vms next
    · rw [same]
      exact distinct.setVm found own id
    · rw [same]
      exact distinct.removeVm
  | edit key name description =>
    simp only [apply]
    cases done : s.updateVmDetails now key name description with
    | error e => exact distinct
    | ok r =>
      obtain ⟨old, found, id, -, -, same⟩ := Store.updateVmDetails_ok done
      simp only [committed, same]
      exact distinct.setVm found rfl id
  | request r =>
    have change : Store.Change (fun _ => True) (fun _ => True) s (r.apply now s) :=
      (r.answers now distinct).change
    exact change.vmsDistinct distinct

theorem vmsDistinct_after (history : List (Touch × Instant)) (distinct : s.VmsDistinct) :
    (after s history).VmsDistinct := by
  induction history generalizing s with
  | nil => exact distinct
  | cons entry rest ih => exact ih (entry.1.vmsDistinct entry.2 distinct)

end Touch

/-! ## One sweep -/

namespace Store

/-- The record of the key is as it was, and no VM holds a slot that held none. -/
structure Apart (key : Int) (s s' : Store) : Prop where
  vm : s'.vm? key = s.vm? key
  bare : ∀ id, s.activeSlot? id = none → s'.activeSlot? id = none

namespace Apart

variable {s s' : Store} {key : Int} {vm : Vm}

theorem refl (key : Int) (s : Store) : Apart key s s :=
  ⟨rfl, fun _ bare => bare⟩

theorem trans {t : Store} (h : Apart key s s') (h' : Apart key s' t) : Apart key s t :=
  ⟨h'.vm.trans h.vm, fun id bare => h'.bare id (h.bare id bare)⟩

theorem setVm {k : Int} (own : vm.key = k) (other : key ≠ k) :
    Apart key s (s.setVm k fun _ => vm) :=
  ⟨vm?_setVm_of_ne own other, fun _ bare => bare⟩

theorem release (key : Int) (s : Store) (now : Instant) (id : String) :
    Apart key s (s.release now id).2 := by
  refine ⟨rfl, fun id' bare => ?_⟩
  rw [activeSlot?_release]
  split
  · rfl
  · exact bare

theorem failAbandoned {now cutoff : Instant} {tasks : List Task}
    (h : s.failAbandoned now cutoff = .ok (tasks, s')) : Apart key s s' := by
  rw [(failAbandoned_ok h).2]
  exact ⟨rfl, fun _ bare => bare⟩

end Apart

end Store

namespace Lifecycle

open Program (perform)
open Store (Apart)

/-- The record as a sweep leaves it that finds the VM stuck. -/
def stuck (maxAge : Duration) (vm : Vm) (now : Instant) : Vm :=
  vm.moved .error (failurePatch vm (stuckText vm.status maxAge)) now

variable {s s' : Store} {vm x : Vm} {key : Int} {cutoff : Instant} {maxAge : Duration}
  {moved : Option Vm}

/-- What a sweep does about one VM of its list. -/
inductive SweptVm (cutoff : Instant) (maxAge : Duration) (vm : Vm) (s : Store) :
    Option Vm → Store → Prop
  | recent (recent : cutoff ≤ vm.updatedAt) : SweptVm cutoff maxAge vm s none s
  | kept {now : Instant} (old : ¬ cutoff ≤ vm.updatedAt) (ran : vm.status ≠ .provisioning) :
      SweptVm cutoff maxAge vm s (some (stuck maxAge vm now))
        (s.setVm vm.key fun _ => stuck maxAge vm now)
  | freed {now now' : Instant} (old : ¬ cutoff ≤ vm.updatedAt) (early : vm.status = .provisioning) :
      SweptVm cutoff maxAge vm s (some (stuck maxAge vm now))
        ((s.release now' vm.id).2.setVm vm.key fun _ => stuck maxAge vm now)

namespace SweptVm

theorem tasks (h : SweptVm cutoff maxAge vm s moved s') : s'.tasks = s.tasks := by
  cases h <;> rfl

theorem apart (h : SweptVm cutoff maxAge vm s moved s') (other : key ≠ vm.key) :
    Apart key s s' := by
  cases h with
  | recent => exact .refl key s
  | kept => exact .setVm rfl other
  | freed => exact (Apart.release key s _ _).trans (.setVm rfl other)

end SweptVm

/-- How a sweep leaves a VM that it found in a transient status: as it was if its record was written
to since the cutoff, otherwise in `error` and, if its create was not finished, without address. -/
def Verdict (cutoff : Instant) (maxAge : Duration) (vm : Vm) (moved : List Vm) (s : Store) : Prop :=
  if cutoff ≤ vm.updatedAt then s.vm? vm.key = some vm
  else ∃ now, stuck maxAge vm now ∈ moved ∧ s.vm? vm.key = some (stuck maxAge vm now) ∧
    (vm.status = .provisioning → s.activeSlot? vm.id = none)

theorem SweptVm.verdict (h : SweptVm cutoff maxAge vm s moved s')
    (found : s.vm? vm.key = some vm) : Verdict cutoff maxAge vm moved.toList s' := by
  unfold Verdict
  cases h with
  | recent recent => rw [if_pos recent]; exact found
  | @kept now old ran =>
    rw [if_neg old]
    exact ⟨now, List.mem_singleton.mpr rfl, Store.vm?_setVm_self found rfl, fun early =>
      absurd early ran⟩
  | @freed now now' old early =>
    rw [if_neg old]
    refine ⟨now, List.mem_singleton.mpr rfl, Store.vm?_setVm_self found rfl, fun _ => ?_⟩
    exact Store.activeSlot?_release.trans (if_pos rfl)

/-- What comes later and leaves the record alone leaves the verdict as it is. -/
theorem Verdict.apart {moved others : List Vm} (h : Verdict cutoff maxAge vm moved s)
    (apart : Apart vm.key s s') (sub : moved ⊆ others) : Verdict cutoff maxAge vm others s' := by
  unfold Verdict at h ⊢
  split
  · next recent =>
    rw [if_pos recent] at h
    exact apart.vm.trans h
  · next old =>
    rw [if_neg old] at h
    obtain ⟨now, listed, there, freed⟩ := h
    exact ⟨now, sub listed, apart.vm.trans there, fun early => apart.bare _ (freed early)⟩

theorem sweepVm_swept (cutoff : Instant) (maxAge : Duration) (found : s.vm? vm.key = some vm) :
    (sweepVm cutoff maxAge vm).Holds (fun _ => True) (SweptVm cutoff maxAge vm s) s := by
  unfold sweepVm
  split
  · next recent => exact .pure (.recent recent)
  next old =>
  dsimp only
  split
  · next early =>
    have early : vm.status = .provisioning := by simpa using early
    refine .perform fun held s' effect => ⟨trivial, ?_⟩
    obtain ⟨now, rfl⟩ := effect.release
    have found : (s.release now vm.id).2.vm? vm.key = some vm := found
    refine .perform fun answer s' effect => ⟨trivial, ?_⟩
    obtain ⟨now', rfl, rfl⟩ := effect.transition_of_mem found (by simp)
    exact .pure (.freed old early)
  · next ran =>
    have ran : vm.status ≠ .provisioning := by simpa using ran
    refine .perform fun answer s' effect => ⟨trivial, ?_⟩
    obtain ⟨now, rfl, rfl⟩ := effect.transition_of_mem found (by simp)
    exact .pure (.kept old ran)

/-- Once the first VM of a list is done with, the others are still as they were listed. -/
theorem SweptVm.rest {rest : List Vm} (h : SweptVm cutoff maxAge vm s moved s')
    (notLater : vm.key ∉ rest.map (·.key)) (found : ∀ x ∈ vm :: rest, s.vm? x.key = some x) :
    ∀ x ∈ rest, x.key ≠ vm.key ∧ s'.vm? x.key = some x := by
  intro x hx
  have other : x.key ≠ vm.key := fun same => notLater (List.mem_map.mpr ⟨x, hx, same⟩)
  exact ⟨other, (h.apart other).vm.trans (found x (List.mem_cons_of_mem vm hx))⟩

theorem sweepVms_apart (cutoff : Instant) (maxAge : Duration) (vms : List Vm)
    (keys : (vms.map (·.key)).Nodup) (found : ∀ vm ∈ vms, s.vm? vm.key = some vm)
    (other : ∀ vm ∈ vms, key ≠ vm.key) :
    (sweepVms cutoff maxAge vms).Holds (fun _ => True)
      (fun _ s' => s'.tasks = s.tasks ∧ Apart key s s') s := by
  induction vms generalizing s with
  | nil => exact .pure ⟨rfl, .refl key s⟩
  | cons vm rest ih =>
    obtain ⟨notLater, keys⟩ := List.nodup_cons.mp keys
    refine .bind ((sweepVm_swept cutoff maxAge (found vm List.mem_cons_self)).imp
      (fun _ h => h) fun moved t swept => .bind ?_)
    have onward := swept.rest notLater found
    refine (ih keys (fun x hx => (onward x hx).2) fun x hx =>
      other x (List.mem_cons_of_mem vm hx)).imp (fun _ h => h) fun _ s' later => .pure ?_
    exact ⟨later.1.trans swept.tasks, (swept.apart (other vm List.mem_cons_self)).trans later.2⟩

/-- A sweep comes to its verdict about each VM of its list. -/
theorem sweepVms_verdict (cutoff : Instant) (maxAge : Duration) (vms : List Vm)
    (keys : (vms.map (·.key)).Nodup) (found : ∀ vm ∈ vms, s.vm? vm.key = some vm)
    (listed : x ∈ vms) :
    (sweepVms cutoff maxAge vms).Holds (fun _ => True)
      (fun moved s' => s'.tasks = s.tasks ∧ Verdict cutoff maxAge x moved s') s := by
  induction vms generalizing s with
  | nil => cases listed
  | cons vm rest ih =>
    obtain ⟨notLater, restKeys⟩ := List.nodup_cons.mp keys
    have there := found vm List.mem_cons_self
    refine .bind ((sweepVm_swept cutoff maxAge there).imp
      (fun _ h => h) fun moved t swept => .bind ?_)
    have onward := swept.rest notLater found
    have restFound := fun y hy => (onward y hy).2
    rcases List.mem_cons.mp listed with rfl | listed
    · refine (sweepVms_apart cutoff maxAge rest restKeys restFound fun y hy =>
        (onward y hy).1.symm).imp (fun _ h => h) fun others s' later =>
          .pure ⟨later.1.trans swept.tasks, ?_⟩
      exact (swept.verdict there).apart later.2 (List.subset_append_left _ _)
    · refine (ih restKeys restFound listed).imp (fun _ h => h) fun others s' later =>
        .pure ⟨later.1.trans swept.tasks, ?_⟩
      exact later.2.apart (.refl _ _) (List.subset_append_right _ _)

/-! ## Recovery of abandoned tasks -/

theorem Recovered.apart {kind : TaskKind} (h : Recovered kind vm s s')
    (spared : key = vm.key → marks kind vm = false) : Apart key s s' := by
  obtain ⟨t, why, now, freed, rfl⟩ := h
  have slots : Apart key s t := by
    cases freed with
    | kept => exact .refl key s
    | released => exact .release key s _ _
  split
  · next marked =>
    have other : key ≠ vm.key := fun same => by rw [spared same] at marked; cases marked
    exact slots.trans (.setVm rfl other)
  · exact slots

theorem recoverAll_apart (tasks : List Task) (found : s.vm? key = some x)
    (spared : ∀ task ∈ tasks, task.vmKey = key → marks task.kind x = false) :
    (recoverAll tasks).Holds (fun _ => True) (fun _ s' => Apart key s s') s := by
  induction tasks generalizing s with
  | nil => exact .pure (.refl key s)
  | cons task rest ih =>
    have spared' := fun t ht => spared t (List.mem_cons_of_mem task ht)
    refine .bind ?_
    cases there : s.vm? task.vmKey with
    | none =>
      exact recoverAborted_gone there trivial _ (ih found spared')
    | some vm =>
      have own := (Store.vm?_mem there).2
      refine (recoverAborted_holds there _).imp (fun _ _ => trivial) fun _ t recovered => ?_
      have apart : Apart key s t := by
        refine recovered.apart fun same => ?_
        have mine : task.vmKey = key := own.symm.trans same.symm
        rw [mine] at there
        cases there.symm.trans found
        exact spared task List.mem_cons_self mine
      exact (ih (apart.vm.trans found) spared').imp (fun _ h => h) fun _ _ later =>
        apart.trans later

theorem marks_stuck (kind : TaskKind) (maxAge : Duration) (vm : Vm) (now : Instant) :
    marks kind (stuck maxAge vm now) = false := by
  simp [marks, stuck, VmStatus.isTransient, VmStatus.transient]

/-- The recoveries of a sweep leave its verdict as it is, if no abandoned task is for a VM that the
sweep let be. -/
theorem recoverAll_verdict {moved : List Vm} (tasks : List Task)
    (verdict : Verdict cutoff maxAge vm moved s)
    (others : cutoff ≤ vm.updatedAt → ∀ task ∈ tasks, task.vmKey ≠ vm.key) :
    (recoverAll tasks).Holds (fun _ => True) (fun _ s' => Verdict cutoff maxAge vm moved s') s := by
  have apart : (recoverAll tasks).Holds (fun _ => True) (fun _ s' => Apart vm.key s s') s := by
    unfold Verdict at verdict
    split at verdict
    · next recent =>
      exact recoverAll_apart tasks verdict fun task ht own => absurd own (others recent task ht)
    · obtain ⟨now, -, there, -⟩ := verdict
      exact recoverAll_apart tasks there fun task _ _ => marks_stuck task.kind maxAge vm now
  exact apart.imp (fun _ h => h) fun _ s' apart => verdict.apart apart (List.Subset.refl _)

/-- What a sweep with this cutoff does once it has read the clock. -/
def sweepFrom (cutoff : Instant) (maxAge : Duration) : Program (Except Error SweepReport) := do
  let stuck ← perform (.vmsIn VmStatus.transient)
  let vms ← sweepVms cutoff maxAge stuck
  match ← perform (.failAbandoned cutoff) with
  | .error e => return .error e
  | .ok tasks =>
    recoverAll tasks
    return .ok ⟨vms, tasks⟩

theorem sweepStale_run (tool : Tool) (w : World) (span : maxAge.nanos ≤ longestSpan)
    (before : (w.now.after World.tick).before? maxAge = some cutoff) :
    (sweepStale maxAge).run tool w =
      (sweepFrom cutoff maxAge).run tool (w.advance World.tick) := by
  have clock : (w.advance World.tick).now = w.now.after World.tick := World.now_advance w World.tick
  unfold sweepStale
  rw [Program.run_now, if_neg (Nat.not_lt.mpr span), clock, before]
  rfl

/-- A sweep goes through the VMs that it lists, fails the abandoned tasks and, if it could, recovers
them. -/
theorem sweepFrom_holds {R : List Vm → Store → Prop} {Q : Except Error SweepReport → Store → Prop}
    (first : (sweepVms cutoff maxAge (s.listVmsByStatus VmStatus.transient)).Holds
      (fun _ => True) R s)
    (unread : ∀ moved t now e, R moved t → t.failAbandoned now cutoff = .error e → Q (.error e) t)
    (read : ∀ moved t now tasks t', R moved t → t.failAbandoned now cutoff = .ok (tasks, t') →
      (recoverAll tasks).Holds (fun _ => True) (fun _ s' => Q (.ok ⟨moved, tasks⟩) s') t') :
    (sweepFrom cutoff maxAge).Holds (fun _ => True) Q s := by
  refine .perform fun listed s' effect => ⟨trivial, ?_⟩
  obtain ⟨rfl, same⟩ := effect.vmsIn
  rw [same]
  refine .bind (first.imp (fun _ h => h) fun moved t reached => ?_)
  refine .perform fun answer t' effect => ⟨trivial, ?_⟩
  obtain ⟨now, ⟨tasks, ok, rfl⟩ | ⟨e, error, rfl, rfl⟩⟩ := effect.failAbandoned_at
  · exact .bind ((read moved t now tasks t' reached ok).imp (fun _ h => h) fun _ _ h => .pure h)
  · exact .pure (unread moved _ now e reached error)

/-- The sweep judges a VM in a transient status by the last write to its record. -/
theorem sweepFrom_verdict (maxAge : Duration) (distinct : s.VmsDistinct)
    (found : s.vm? vm.key = some vm) (transient : vm.status ∈ VmStatus.transient)
    (others : cutoff ≤ vm.updatedAt → ∀ row ∈ s.tasks,
      Store.isAbandoned (.of cutoff) row = true → row.vmKey ≠ vm.key) :
    (sweepFrom cutoff maxAge).Holds (fun _ => True) (fun answer s' =>
      ∃ moved, (∀ report, answer = .ok report → report.vms = moved) ∧
        Verdict cutoff maxAge vm moved s') s := by
  have keys : ((s.listVmsByStatus VmStatus.transient).map (·.key)).Nodup :=
    distinct.keys.sublist (List.filter_sublist.map _)
  have there : ∀ x ∈ s.listVmsByStatus VmStatus.transient, s.vm? x.key = some x := fun x hx =>
    distinct.vm?_of_mem (List.mem_filter.mp hx).1
  have listed : vm ∈ s.listVmsByStatus VmStatus.transient :=
    List.mem_filter.mpr ⟨(Store.vm?_mem found).1, List.contains_iff_mem.mpr transient⟩
  refine sweepFrom_holds (sweepVms_verdict cutoff maxAge _ keys there listed) ?_ ?_
  · rintro moved t now e ⟨-, verdict⟩ error
    exact ⟨moved, nofun, verdict⟩
  · rintro moved t now abandoned t' ⟨tasks, verdict⟩ ok
    have verdict := verdict.apart (.failAbandoned ok) (List.Subset.refl _)
    have others : cutoff ≤ vm.updatedAt → ∀ task ∈ abandoned, task.vmKey ≠ vm.key := by
      intro recent task ht
      obtain ⟨row, hrow, due, read⟩ := (Store.failAbandoned_ok ok).1 task ht
      obtain ⟨-, -, vmKey⟩ := TaskRow.task_ok read
      exact vmKey ▸ others recent row (tasks ▸ hrow) due
    refine (recoverAll_verdict abandoned verdict others).imp (fun _ h => h) fun _ s' verdict => ?_
    exact ⟨moved, fun _ same => by cases same; rfl, verdict⟩

theorem sweepFrom_returns (cutoff : Instant) (maxAge : Duration) :
    (sweepFrom cutoff maxAge).Returns := by
  refine .perform fun stuck => .bind (sweepVms_returns cutoff maxAge stuck) fun vms => ?_
  refine .perform fun failed => ?_
  cases failed with
  | error e => exact .pure _
  | ok tasks => exact .bind (recoverAll_returns tasks) fun _ => .pure _

theorem sweepStale_finished (p : Provisioner) {w : World} (quiet : w.coming = [])
    (span : maxAge.nanos ≤ longestSpan)
    (known : (w.now.after World.tick).before? maxAge = some cutoff) :
    ∃ answer w', (sweepStale maxAge).run p.tool w = (.finished answer, w') ∧
      (sweepFrom cutoff maxAge).run p.tool { w with now := w.now.after World.tick } =
        (.finished answer, w') := by
  have run := sweepStale_run p.tool w span known
  rw [World.advance_of_quiet quiet] at run
  obtain ⟨answer, w', ends⟩ := (sweepFrom_returns cutoff maxAge).finished p.tool
    { w with now := w.now.after World.tick }
  exact ⟨answer, w', run.trans ends, ends⟩

/-- A sweep whose cutoff lies in the calendar comes to its end and to its verdict. -/
theorem sweepStale_verdict (p : Provisioner) (w : World) (quiet : w.coming = [])
    (distinct : w.store.VmsDistinct) (found : w.store.vm? vm.key = some vm)
    (transient : vm.status ∈ VmStatus.transient) (span : maxAge.nanos ≤ longestSpan)
    (known : (w.now.after World.tick).before? maxAge = some cutoff)
    (others : cutoff ≤ vm.updatedAt → ∀ row ∈ w.store.tasks,
      Store.isAbandoned (.of cutoff) row = true → row.vmKey ≠ vm.key) :
    ∃ answer w' moved, (sweepStale maxAge).run p.tool w = (.finished answer, w') ∧
      (∀ report, answer = .ok report → report.vms = moved) ∧
      Verdict cutoff maxAge vm moved w'.store := by
  obtain ⟨answer, w', run, ends⟩ := sweepStale_finished p quiet span known
  obtain ⟨moved, report, verdict⟩ := (sweepFrom_verdict maxAge distinct found transient others).finished
    (w := { w with now := w.now.after World.tick }) quiet ends
  exact ⟨answer, w', moved, run, report, verdict⟩

end Lifecycle

/-! ## From the last write to the sweep -/

namespace Instant

variable {t u : Instant} {d : Duration}

/-- The calendar spans less than twenty trillion seconds. -/
theorem InCalendar.second_bounds (h : t.InCalendar) :
    -10000000000000 < t.second ∧ t.second < 10000000000000 := by
  have early : (⟨-10000000000000, 0⟩ : Instant).date.year < firstYear := by decide +kernel
  have late : lastYear < (⟨10000000000000, 0⟩ : Instant).date.year := by decide +kernel
  obtain ⟨first, last⟩ := h
  constructor
  · by_contra lower
    have := date_year_mono (t := t) (u := ⟨-10000000000000, 0⟩) (Int.not_lt.mp lower)
    omega
  · by_contra upper
    have := date_year_mono (t := ⟨10000000000000, 0⟩) (u := t) (Int.not_lt.mp upper)
    omega

theorem before?_of_older (calendar : u.InCalendar) (calendar' : t.InCalendar)
    (plain : t.nano < 1000000000) (older : u.toNanos + d.nanos < t.toNanos) :
    d.nanos ≤ Lifecycle.longestSpan ∧
      ∃ cutoff, t.before? d = some cutoff ∧ ¬ cutoff ≤ u.cutToMicros := by
  obtain ⟨lower, -⟩ := calendar.second_bounds
  obtain ⟨-, upper⟩ := calendar'.second_bounds
  simp only [toNanos] at older
  have second : u.second ≤ (ofNanos (t.toNanos - d.nanos)).second ∧
      (ofNanos (t.toNanos - d.nanos)).second ≤ t.second := by
    simp only [ofNanos, toNanos]
    omega
  have there : (ofNanos (t.toNanos - d.nanos)).InCalendar :=
    ⟨Int.le_trans calendar.1 (date_year_mono second.1),
      Int.le_trans (date_year_mono second.2) calendar'.2⟩
  refine ⟨?_, _, if_pos there, ?_⟩
  · simp only [Lifecycle.longestSpan, bound63]
    omega
  · simp only [le_def, ofNanos, toNanos, cutToMicros]
    omega

end Instant

namespace Lifecycle

/-- The sweep goes by the last write to a record, whatever it was: a VM that is then in a transient
status is moved to `error` if that write is older than the age, and is left where it is if the write
is recent and no task for the VM is abandoned. -/
theorem sweep_goes_by_last_write {start : Store} {vm : Vm} (distinct : start.VmsDistinct)
    (earlier later : List (Touch × Instant)) (touch : Touch) (written now : Instant)
    (before : (Touch.after start earlier).vm? vm.key ≠ some vm)
    (after : (touch.apply written (Touch.after start earlier)).vm? vm.key = some vm)
    (still : (Touch.after start (earlier ++ (touch, written) :: later)).vm? vm.key = some vm)
    (transient : vm.status ∈ VmStatus.transient) (calendar : written.InCalendar)
    (calendar' : (now.after World.tick).InCalendar) (maxAge : Duration) (p : Provisioner) :
    let w : World := { store := Touch.after start (earlier ++ (touch, written) :: later), now }
    (written.toNanos + maxAge.nanos < now.toNanos → ∃ answer w' time,
      (sweepStale maxAge).run p.tool w = (.finished answer, w') ∧
        w'.store.vm? vm.key = some (stuck maxAge vm time) ∧
        (vm.status = .provisioning → w'.store.activeSlot? vm.id = none) ∧
        ∀ report, answer = .ok report → stuck maxAge vm time ∈ report.vms) ∧
    ∀ cutoff, (now.after World.tick).before? maxAge = some cutoff →
      cutoff ≤ written.cutToMicros →
      (∀ row ∈ w.store.tasks, Store.isAbandoned (.of cutoff) row = true → row.vmKey ≠ vm.key) →
      ((sweepStale maxAge).run p.tool w).2.store.vm? vm.key = some vm := by
  intro w
  have stamp : vm.updatedAt = written.cutToMicros :=
    (touch.stamped (Touch.vmsDistinct_after earlier distinct) vm.key vm after).resolve_left before
  have sound : w.store.VmsDistinct := Touch.vmsDistinct_after _ distinct
  constructor
  · intro older
    have older : written.toNanos + maxAge.nanos < (now.after World.tick).toNanos := by
      rw [Instant.toNanos_after]
      omega
    obtain ⟨span, cutoff, known, old⟩ :=
      Instant.before?_of_older calendar calendar' (Instant.after_nano_lt _ _) older
    rw [← stamp] at old
    obtain ⟨answer, w', moved, run, report, verdict⟩ :=
      sweepStale_verdict p w rfl sound still transient span known fun recent =>
        absurd recent old
    rw [Verdict, if_neg old] at verdict
    obtain ⟨time, listed, there, freed⟩ := verdict
    exact ⟨answer, w', time, run, there, freed, fun r ok => report r ok ▸ listed⟩
  · intro cutoff known recent others
    rw [← stamp] at recent
    by_cases span : maxAge.nanos ≤ longestSpan
    · obtain ⟨answer, w', moved, run, -, verdict⟩ :=
        sweepStale_verdict p w rfl sound still transient span known fun _ => others
      rw [Verdict, if_pos recent] at verdict
      rw [run]
      exact verdict
    · unfold sweepStale
      rw [Program.run_now, if_pos (Nat.not_le.mp span)]
      exact still

/-- A VM is stored and a stop begins on it, which nobody ends. -/
def stoppedHalfway : List (Touch × Instant) :=
  [(.request (.createVm 1 ["srv-1"] "task-1" { name := "a", owner := "alice" } {}), ⟨1, 0⟩),
    (.operation (.transition 1 [.pending] .stopping {}), ⟨2, 0⟩)]

/-- The record of the VM after the history, and after a sweep of a minute at the given time. -/
def sweptRecord (history : List (Touch × Instant)) (now : Instant) : Option Vm × Option Vm :=
  let w : World := { store := Touch.after .empty history, now }
  let swept := ((sweepStale (.ofSeconds 60)).run Fleet.promptTool.tool w).2
  (w.store.vm? 1, swept.store.vm? 1)

/-- The VM came to `stopping` at 2 s. A sweep at 101 s of what has been stuck for a minute leaves it
there, because its name was edited at 100 s; without the edit the sweep moves it. -/
theorem edit_postpones_sweep :
    let edit : Touch × Instant := (.edit 1 (some "b") none, ⟨100, 0⟩)
    let edited := sweptRecord (stoppedHalfway ++ [edit]) ⟨101, 0⟩
    let left := sweptRecord stoppedHalfway ⟨101, 0⟩
    edited.1.map (·.status) = some .stopping ∧ edited.2.map (·.status) = some .stopping ∧
      left.1.map (·.status) = some .stopping ∧ left.2.map (·.status) = some .error := by
  decide +kernel

/-- The VM that nobody wrote to for more than a minute is moved. -/
theorem stoppedHalfway_swept : ∃ vm answer w' time,
    (Touch.after .empty stoppedHalfway).vm? 1 = some vm ∧ vm.status ∈ VmStatus.transient ∧
      (sweepStale (.ofSeconds 60)).run Fleet.promptTool.tool
        { store := Touch.after .empty stoppedHalfway, now := ⟨101, 0⟩ } = (.finished answer, w') ∧
      w'.store.vm? 1 = some (stuck (.ofSeconds 60) vm time) := by
  have there : ((Touch.after .empty stoppedHalfway).vm? 1).any
      (fun vm => vm.key = 1 ∧ vm.status ∈ VmStatus.transient) = true := by
    decide +kernel
  have waiting : ((Touch.after .empty (stoppedHalfway.take 1)).vm? 1).all
      (fun vm => vm.status ∉ VmStatus.transient) = true := by
    decide +kernel
  obtain ⟨vm, found, here⟩ := (Option.any_eq_true _ _).mp there
  simp only [decide_eq_true_eq] at here
  obtain ⟨key, transient⟩ := here
  rw [← key] at found waiting ⊢
  have before : (Touch.after .empty (stoppedHalfway.take 1)).vm? vm.key ≠ some vm := by
    intro same
    simp [same, transient] at waiting
  obtain ⟨answer, w', time, run, moved, -⟩ :=
    (sweep_goes_by_last_write Store.empty_vmsDistinct (stoppedHalfway.take 1) []
      (.operation (.transition 1 [.pending] .stopping {})) ⟨2, 0⟩ ⟨101, 0⟩ before found found
      transient (by decide +kernel) (by decide +kernel) (.ofSeconds 60) Fleet.promptTool).1
      (by decide +kernel)
  exact ⟨vm, answer, w', time, found, transient, run, moved⟩

end Lifecycle

end VmFleet
