/-
Programs operation by operation, while nobody else writes to the store: what one
operation may answer and leave behind, the events of a run in order, and a way to
show something of every event that holds wherever the program is stopped.
-/
import VmFleet.Lifecycle.World
import VmFleet.Proofs.Slots
import VmFleet.Proofs.VmRecords

namespace VmFleet

/-- A tool that leaves the store alone: how long each call lasts, if it comes back, and how it
ends. -/
structure Provisioner where
  reply : (number : Nat) → Call → Instant → Option Duration × CallEnd

def Provisioner.tool (p : Provisioner) : Tool := fun number call start =>
  { lasts := (p.reply number call start).1, ends := (p.reply number call start).2 }

/-- One operation that was carried out: the stores around it and, of a call, what was asked and what
the program was told. -/
structure Event where
  before : Store
  after : Store
  call : Option (Call × Option (Except Error Report)) := none

/-- The call that an operation is, with its answer. -/
def Operation.asCall? {β : Type} : Operation β → β → Option (Call × Option (Except Error Report))
  | .call c _, answer => some (c, answer)
  | _, _ => none

namespace Program

variable {α β : Type}

/-- The operations that a run carries out, in order. -/
def events (p : Provisioner) : Program α → World → List Event
  | .pure _, _ => []
  | .ask op next, w =>
    let (answer, w') := w.perform p.tool op
    ⟨w.store, w'.store, op.asCall? answer⟩ :: (next answer).events p w'
  | .crash _, _ => []

end Program

namespace Event

/-- The store that events leave behind which began with the given one. -/
def last (s : Store) (events : List Event) : Store :=
  events.foldl (fun _ e => e.after) s

/-- Each event finds the store that the event before it left. -/
def Linked : Store → List Event → Prop
  | _, [] => True
  | s, e :: rest => e.before = s ∧ Linked e.after rest

theorem last_append (s : Store) (a b : List Event) : last s (a ++ b) = last (last s a) b :=
  List.foldl_append

theorem linked_append {s : Store} {a b : List Event} :
    Linked s (a ++ b) ↔ Linked s a ∧ Linked (last s a) b := by
  induction a generalizing s with
  | nil => simp [Linked, last]
  | cons e rest ih =>
    simp only [List.cons_append, Linked, ih, and_assoc]
    rfl

theorem Linked.take {s : Store} {events : List Event} (h : Linked s events) (n : Nat) :
    Linked s (events.take n) := by
  rw [← List.take_append_drop n events] at h
  exact (linked_append.mp h).1

/-- What each event keeps holds at the end, and what each event shows where that holds before it is
shown of all. -/
theorem Linked.invariant {I : Store → Prop} {P G : Event → Prop} {s : Store} {events : List Event}
    (linked : Linked s events) (all : ∀ e ∈ events, P e)
    (keeps : ∀ e, P e → I e.before → I e.after ∧ G e) (start : I s) :
    I (last s events) ∧ ∀ e ∈ events, G e := by
  induction events generalizing s with
  | nil => exact ⟨start, fun e he => absurd he List.not_mem_nil⟩
  | cons e rest ih =>
    obtain ⟨rfl, linked⟩ := linked
    obtain ⟨kept, shown⟩ := keeps e (all e List.mem_cons_self) start
    obtain ⟨final, others⟩ := ih linked (fun e he => all e (List.mem_cons_of_mem _ he)) kept
    exact ⟨final, List.forall_mem_cons.mpr ⟨shown, others⟩⟩

end Event

/-! ## One operation -/

namespace World

variable {β : Type} {w : World}

/-- With a tool that leaves the store alone, nothing is ever to come. -/
theorem perform_coming (p : Provisioner) (op : Operation β) (h : w.coming = []) :
    (w.perform p.tool op).2.coming = [] := by
  cases op
  case now => simp only [perform, advance, reach_of_coming_eq_nil h, h]
  case call c abortAt =>
    simp only [perform, call, Provisioner.tool, List.foldl_nil, h]
    split <;> rfl
  case findVm | vmsIn => exact h
  case removeVm | release => exact h
  all_goals exact (w.commit_frame _).2.2.trans h

end World

/-- The operation may answer `b` on the store `s` and leave `s'`, at some time. A call may be
answered in any way. -/
def Effect (s : Store) : {β : Type} → Operation β → β → Store → Prop
  | _, .call _ _, _, s' => s' = s
  | _, op, b, s' => ∃ (p : Provisioner) (w : World), w.store = s ∧ w.coming = [] ∧
    (w.perform p.tool op).1 = b ∧ (w.perform p.tool op).2.store = s'

namespace Effect

variable {s s' : Store} {key : Int} {id : String}

theorem of_perform {β : Type} (p : Provisioner) {w : World} (op : Operation β) (h : w.coming = []) :
    Effect w.store op (w.perform p.tool op).1 (w.perform p.tool op).2.store := by
  cases op
  case call c abortAt =>
    simp only [Effect, World.perform, World.call, Provisioner.tool, List.foldl_nil, h]
    split <;> rfl
  all_goals exact ⟨p, w, rfl, h, rfl, rfl⟩

theorem commit_cases {γ : Type} {w w' : World} {r : Except Error (γ × Store)}
    {answer : Except Error γ} (h : w.commit r = (answer, w')) :
    (∃ a t, r = .ok (a, t) ∧ answer = .ok a ∧ w'.store = t) ∨
      ∃ e, r = .error e ∧ answer = .error e ∧ w'.store = w.store := by
  cases r with
  | ok r =>
    obtain ⟨rfl, rfl⟩ := Prod.mk.inj h
    exact .inl ⟨_, _, rfl, rfl, rfl⟩
  | error e =>
    obtain ⟨rfl, rfl⟩ := Prod.mk.inj h
    exact .inr ⟨_, rfl, rfl, rfl⟩

theorem now {t : Instant} (h : Effect s .now t s') : s' = s := by
  obtain ⟨p, w, rfl, quiet, -, rfl⟩ := h
  simp only [World.perform, World.advance, World.reach_of_coming_eq_nil quiet]

theorem findVm {found : Option Vm} (h : Effect s (.findVm key) found s') :
    found = s.vm? key ∧ s' = s := by
  obtain ⟨p, w, rfl, -, rfl, rfl⟩ := h
  exact ⟨rfl, rfl⟩

theorem vmsIn {statuses : List VmStatus} {found : List Vm}
    (h : Effect s (.vmsIn statuses) found s') :
    found = s.listVmsByStatus statuses ∧ s' = s := by
  obtain ⟨p, w, rfl, -, rfl, rfl⟩ := h
  exact ⟨rfl, rfl⟩

theorem transition {expected : List VmStatus} {next : VmStatus} {patch : VmPatch}
    {answer : Except Error Vm} (h : Effect s (.transition key expected next patch) answer s') :
    (∃ old now, s.vm? key = some old ∧ old.status ∈ expected ∧
      answer = .ok (old.moved next patch now) ∧
      s' = s.setVm key fun _ => old.moved next patch now) ∨
    (∃ e, answer = .error e ∧ s' = s ∧ ((s.vm? key = none ∧ e = .vmNotFound (keyText key)) ∨
      ∃ old, s.vm? key = some old ∧ old.status ∉ expected ∧
        e = .invalidTransition old.id old.status next)) := by
  obtain ⟨p, w, rfl, -, rfl, rfl⟩ := h
  rcases commit_cases (w := w) (r := w.store.transition w.now key expected next patch) rfl with
    ⟨vm, t, ok, answer, store⟩ | ⟨e, error, answer, store⟩
  · obtain ⟨old, found, expected, rfl, rfl⟩ := Store.transition_ok ok
    exact .inl ⟨old, _, found, expected, answer, store⟩
  · exact .inr ⟨e, answer, store, Store.transition_error error⟩

theorem transition_of_mem {expected : List VmStatus} {next : VmStatus} {patch : VmPatch}
    {answer : Except Error Vm} {old : Vm}
    (h : Effect s (.transition key expected next patch) answer s')
    (found : s.vm? key = some old) (hin : old.status ∈ expected) :
    ∃ now, answer = .ok (old.moved next patch now) ∧
      s' = s.setVm key fun _ => old.moved next patch now := by
  rcases h.transition with ⟨old', now, found', -, ok, store⟩ | ⟨e, -, -, gone | refused⟩
  · cases found.symm.trans found'
    exact ⟨now, ok, store⟩
  · cases found.symm.trans gone.1
  · obtain ⟨old', found', out, -⟩ := refused
    cases found.symm.trans found'
    exact absurd hin out

theorem removeVm {known : Bool} (h : Effect s (.removeVm key) known s') :
    s' = (s.removeVm key).2 := by
  obtain ⟨p, w, rfl, -, rfl, rfl⟩ := h
  rfl

theorem allocate {pool : String} {answer : Except Error Allocation}
    (h : Effect s (.allocate pool id) answer s') :
    (∃ now granted slot, Store.Granted s now pool id granted slot s' ∧
      answer = .ok (.of granted slot)) ∨ ∃ e, answer = .error e ∧ s' = s := by
  obtain ⟨p, w, rfl, -, rfl, rfl⟩ := h
  rcases commit_cases (w := w) (r := Allocator.allocate w.store w.now pool id) rfl with
    ⟨allocation, t, ok, answer, store⟩ | ⟨e, -, answer, store⟩
  · obtain ⟨granted, slot, grant, rfl⟩ := Allocator.allocate_granted ok
    exact .inl ⟨_, granted, slot, store ▸ grant, answer⟩
  · exact .inr ⟨e, answer, store⟩

theorem release {held : Bool} (h : Effect s (.release id) held s') :
    ∃ now, s' = (s.release now id).2 := by
  obtain ⟨p, w, rfl, -, rfl, rfl⟩ := h
  exact ⟨w.now, rfl⟩

/-- Where a task's row is there it is changed, and nothing else is. -/
theorem changeTask_cases {w w' : World} {taskId : String} {f : TaskRow → TaskRow}
    {answer : Except Error Unit} (h : w.commitUnit (w.store.changeTask taskId f) = (answer, w')) :
    ((w.store.taskRow? taskId).isSome ∧ w'.store = w.store.setTask taskId f) ∨
      (w.store.taskRow? taskId = none ∧ w'.store = w.store) := by
  rcases commit_cases h with ⟨_, t, ok, -, store⟩ | ⟨e, error, -, store⟩
  · simp only [Store.changeTask] at ok
    split at ok
    · next known =>
      simp only [Except.map, Except.ok.injEq, Prod.mk.injEq, true_and] at ok
      exact .inl ⟨known, store.trans ok.symm⟩
    · cases ok
  · simp only [Store.changeTask] at error
    split at error
    · cases error
    · next unknown => exact .inr ⟨by simpa using unknown, store⟩

theorem complete {taskId : String} {note : Option String} {answer : Except Error Unit}
    (h : Effect s (.complete taskId note) answer s') :
    (∃ now, s' = s.setTask taskId fun row => Store.finished row .completed now note) ∨
      (s.taskRow? taskId = none ∧ s' = s) := by
  obtain ⟨p, w, rfl, -, rfl, rfl⟩ := h
  rcases changeTask_cases (w := w) rfl with ⟨-, store⟩ | gone
  · exact .inl ⟨_, store⟩
  · exact .inr gone

theorem fail {taskId message : String} {answer : Except Error Unit}
    (h : Effect s (.fail taskId message) answer s') :
    (∃ now, s' = s.setTask taskId fun row => Store.finished row .failed now (some message)) ∨
      (s.taskRow? taskId = none ∧ s' = s) := by
  obtain ⟨p, w, rfl, -, rfl, rfl⟩ := h
  rcases changeTask_cases (w := w) rfl with ⟨-, store⟩ | gone
  · exact .inl ⟨_, store⟩
  · exact .inr gone

theorem retry {taskId message : String} {notBefore : Instant} {answer : Except Error Unit}
    (h : Effect s (.retry taskId notBefore message) answer s') :
    (s' = s.setTask taskId fun row =>
      { row with status := .pending, notBefore := .of notBefore, lastError := some message }) ∨
      (s.taskRow? taskId = none ∧ s' = s) := by
  obtain ⟨p, w, rfl, -, rfl, rfl⟩ := h
  rcases changeTask_cases (w := w) rfl with ⟨-, store⟩ | gone
  · exact .inl store
  · exact .inr gone

theorem failAbandoned_at {cutoff : Instant} {answer : Except Error (List Task)}
    (h : Effect s (.failAbandoned cutoff) answer s') :
    ∃ now, (∃ tasks, s.failAbandoned now cutoff = .ok (tasks, s') ∧ answer = .ok tasks) ∨
      ∃ e, s.failAbandoned now cutoff = .error e ∧ answer = .error e ∧ s' = s := by
  obtain ⟨p, w, rfl, -, rfl, rfl⟩ := h
  refine ⟨w.now, ?_⟩
  rcases commit_cases (w := w) (r := w.store.failAbandoned w.now cutoff) rfl with
    ⟨tasks, t, ok, answer, store⟩ | ⟨e, error, answer, store⟩
  · exact .inl ⟨tasks, store ▸ ok, answer⟩
  · exact .inr ⟨e, error, answer, store⟩

theorem failAbandoned {cutoff : Instant} {answer : Except Error (List Task)}
    (h : Effect s (.failAbandoned cutoff) answer s') :
    (∃ now tasks, s.failAbandoned now cutoff = .ok (tasks, s') ∧ answer = .ok tasks) ∨
      ∃ e, answer = .error e ∧ s' = s := by
  obtain ⟨now, ⟨tasks, done⟩ | ⟨e, -, refused⟩⟩ := h.failAbandoned_at
  · exact .inl ⟨now, tasks, done⟩
  · exact .inr ⟨e, refused⟩

theorem call {c : Call} {abortAt : Option Instant} {answer : Option (Except Error Report)}
    (h : Effect s (.call c abortAt) answer s') : s' = s :=
  h

end Effect

/-! ## Whole programs -/

namespace Program

variable {α β : Type} {G G' : Event → Prop} {Q Q' : α → Store → Prop} {s : Store}

/-- Wherever the program is stopped that starts on `s`, each event so far satisfies `G`; a result
and the store it comes with satisfy `Q`. -/
def Holds (G : Event → Prop) (Q : α → Store → Prop) : Program α → Store → Prop
  | .pure a, s => Q a s
  | .ask op next, s => ∀ b s', Effect s op b s' → G ⟨s, s', op.asCall? b⟩ ∧ (next b).Holds G Q s'
  | .crash _, _ => True

theorem Holds.imp {p : Program α} (h : p.Holds G Q s) (events : ∀ e, G e → G' e)
    (result : ∀ a s, Q a s → Q' a s) : p.Holds G' Q' s := by
  induction p generalizing s with
  | pure a => exact result a s h
  | ask op next ih =>
    intro b s' effect
    obtain ⟨event, rest⟩ := h b s' effect
    exact ⟨events _ event, ih b rest⟩
  | crash why => trivial

theorem Holds.bind {p : Program α} {f : α → Program β} {R : β → Store → Prop}
    (h : p.Holds G (fun a s => (f a).Holds G R s) s) : (p >>= f).Holds G R s := by
  induction p generalizing s with
  | pure a => exact h
  | ask op next ih =>
    intro b s' effect
    obtain ⟨event, rest⟩ := h b s' effect
    exact ⟨event, ih b rest⟩
  | crash why => trivial

theorem Holds.perform {op : Operation β} {f : β → Program α}
    (h : ∀ b s', Effect s op b s' → G ⟨s, s', op.asCall? b⟩ ∧ (f b).Holds G Q s') :
    (Program.perform op >>= f).Holds G Q s :=
  h

theorem Holds.pure {a : α} (h : Q a s) : (Pure.pure a : Program α).Holds G Q s :=
  h

/-- Under a time limit the program may also end at one of its calls, without a result. -/
theorem Holds.within {p : Program α} {limit : Instant} {Q : Option α → Store → Prop}
    (h : p.Holds (fun e => G e ∧ (e.call.isSome → Q none e.after)) (fun a => Q (some a)) s) :
    (p.within limit).Holds G Q s := by
  induction p generalizing s with
  | pure a => exact h
  | crash why => trivial
  | ask op next ih =>
    cases op
    case call c abortAt =>
      rw [Program.within]
      intro b s' effect
      obtain ⟨⟨event, aborted⟩, rest⟩ := h b s' effect
      refine ⟨event, ?_⟩
      cases b with
      | none => exact aborted rfl
      | some r => exact ih (some r) rest
    all_goals
      intro b s' effect
      obtain ⟨⟨event, -⟩, rest⟩ := h b s' effect
      exact ⟨event, ih b rest⟩

variable {p : Provisioner} {w w' : World}

theorem Holds.events {program : Program α} (h : program.Holds G Q w.store) (quiet : w.coming = []) :
    ∀ e ∈ program.events p w, G e := by
  induction program generalizing w with
  | pure a => exact fun e he => absurd he List.not_mem_nil
  | ask op next ih =>
    obtain ⟨event, rest⟩ := h _ _ (.of_perform p op quiet)
    intro e he
    rcases List.mem_cons.mp he with rfl | he
    · exact event
    · exact ih _ rest (World.perform_coming p op quiet) e he
  | crash why => exact fun e he => absurd he List.not_mem_nil

theorem Holds.finished {program : Program α} (h : program.Holds G Q w.store)
    (quiet : w.coming = []) {a : α} (run : program.run p.tool w = (.finished a, w')) :
    Q a w'.store := by
  induction program generalizing w with
  | pure b =>
    obtain ⟨same, rfl⟩ := Prod.mk.inj run
    cases same
    exact h
  | ask op next ih =>
    obtain ⟨-, rest⟩ := h _ _ (.of_perform p op quiet)
    exact ih _ rest (World.perform_coming p op quiet) run
  | crash why => cases (Prod.mk.inj run).1

/-- A run leaves the store that its last event left. -/
theorem last_events {program : Program α} {ending : Ending α}
    (run : program.run p.tool w = (ending, w')) :
    Event.last w.store (program.events p w) = w'.store := by
  induction program generalizing w with
  | pure a =>
    obtain ⟨-, rfl⟩ := Prod.mk.inj run
    rfl
  | ask op next ih => exact ih _ run
  | crash why =>
    obtain ⟨-, rfl⟩ := Prod.mk.inj run
    rfl

theorem events_linked (program : Program α) : Event.Linked w.store (program.events p w) := by
  induction program generalizing w with
  | pure a => trivial
  | ask op next ih => exact ⟨rfl, ih _⟩
  | crash why => trivial

end Program

end VmFleet
