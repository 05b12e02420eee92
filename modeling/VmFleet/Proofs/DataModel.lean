/-
What is stored of VMs. The rules are checked where a VM is asked for and where its
name or description is edited, and nowhere else; so this follows where every record
comes from, through all that clients, workers, janitors and recoveries write side by
side. Who a VM is and what it was asked to be never changes.
-/
import VmFleet.Proofs.Crew
import VmFleet.Proofs.Ownership
import VmFleet.Vm.PublicId

namespace VmFleet

/-! ## The rules -/

theorem utf8ByteSize_eq_length {text : String} (plain : ∀ c ∈ text.toList, c.utf8Size = 1) :
    text.utf8ByteSize = text.length := by
  have count : ∀ cs : List Char, (∀ c ∈ cs, c.utf8Size = 1) →
      (String.ofList cs).utf8ByteSize = cs.length := by
    intro cs plain
    induction cs with
    | nil => rfl
    | cons c rest ih =>
      obtain ⟨one, plain⟩ := List.forall_mem_cons.mp plain
      rw [← List.singleton_append, String.ofList_append, String.utf8ByteSize_append, ih plain]
      simp [one, Nat.add_comm]
  rw [← String.length_toList, ← count text.toList plain, String.ofList_toList]

namespace Draft

variable {name : String} {cs : List Char}

/-- A name of 1 to 64 letters, digits and hyphens of ASCII, with no hyphen at either end. -/
structure NameFits (name : String) : Prop where
  length : 1 ≤ name.length ∧ name.length ≤ 64
  chars : ∀ c ∈ name.toList, c.isAlphanum = true ∨ c = '-'
  first : ∃ c rest, name.toList = c :: rest ∧ c.isAlphanum = true
  last : ∃ front c, name.toList = front ++ [c] ∧ c.isAlphanum = true

theorem nameShaped_iff : nameShaped cs = true ↔ (∀ c ∈ cs, c.isAlphanum = true ∨ c = '-') ∧
    (∃ c rest, cs = c :: rest ∧ c.isAlphanum = true) ∧
    ∃ front c, cs = front ++ [c] ∧ c.isAlphanum = true := by
  simp only [nameShaped, Bool.and_eq_true, List.all_eq_true, Bool.or_eq_true, beq_iff_eq,
    Option.any_eq_true, List.head?_eq_some_iff, List.getLast?_eq_some_iff, and_assoc]
  refine and_congr_right fun _ => and_congr ?_ ?_
  · exact ⟨fun ⟨c, ⟨rest, h⟩, a⟩ => ⟨c, rest, h, a⟩, fun ⟨c, rest, h, a⟩ => ⟨c, ⟨rest, h⟩, a⟩⟩
  · exact ⟨fun ⟨c, ⟨front, h⟩, a⟩ => ⟨front, c, h, a⟩, fun ⟨front, c, h, a⟩ => ⟨c, ⟨front, h⟩, a⟩⟩

theorem utf8Size_of_plain {c : Char} (h : c.isAlphanum = true ∨ c = '-') : c.utf8Size = 1 := by
  rw [Char.utf8Size_eq_one_iff]
  rcases h with alnum | rfl
  · have ranges : ((decide (c.val ≥ 'A'.val ∧ c.val ≤ 'Z'.val) ||
        c.val ≥ 'a'.val && c.val ≤ 'z'.val) || c.val ≥ '0'.val && c.val ≤ '9'.val) = true := alnum
    simp only [Bool.or_eq_true, Bool.and_eq_true, decide_eq_true_eq, ge_iff_le,
      UInt32.le_iff_toNat_le] at ranges ⊢
    have bounds : ('Z' : Char).val.toNat = 90 ∧ ('z' : Char).val.toNat = 122 ∧
      ('9' : Char).val.toNat = 57 ∧ (127 : UInt32).toNat = 127 := by decide
    omega
  · decide

/-- The rule counts bytes, and those are characters in a name that keeps the rest of it. -/
theorem nameFault?_eq_none : nameFault? name = none ↔ NameFits name := by
  by_cases shaped : nameShaped name.toList = true
  · obtain ⟨chars, first, last⟩ := nameShaped_iff.mp shaped
    have bytes := utf8ByteSize_eq_length fun c hc => utf8Size_of_plain (chars c hc)
    have filled : 1 ≤ name.length := by
      obtain ⟨c, rest, text, -⟩ := first
      rw [← String.length_toList, text]
      exact Nat.le_add_left 1 rest.length
    have nonempty : name.isEmpty = false := by
      rw [Bool.eq_false_iff, ne_eq, String.isEmpty_iff]
      rintro rfl
      cases filled
    rw [nameFault?, nonempty, bytes, if_pos shaped, Bool.false_or]
    simp only [decide_eq_true_eq, ite_eq_right_iff, reduceCtorEq, imp_false, Nat.not_lt]
    exact ⟨fun short => ⟨⟨filled, short⟩, chars, first, last⟩, fun fits => fits.length.2⟩
  · have refused : ¬ NameFits name := fun fits =>
      shaped (nameShaped_iff.mpr ⟨fits.chars, fits.first, fits.last⟩)
    simp only [nameFault?, if_neg shaped, refused, iff_false]
    split <;> exact nofun

theorem descriptionFault?_eq_none {text : String} :
    descriptionFault? text = none ↔ text.length ≤ 500 := by
  simp [descriptionFault?]

theorem fault?_eq_none {d : Draft} : d.fault? = none ↔ NameFits d.name ∧
    (∀ text, d.description = some text → text.length ≤ 500) ∧ (1 ≤ d.vcpus ∧ d.vcpus ≤ 32) ∧
    (128 ≤ d.memoryMb ∧ d.memoryMb ≤ 32768) ∧ d.owner ≠ "" := by
  have description : d.description.bind descriptionFault? = none ↔
      ∀ text, d.description = some text → text.length ≤ 500 := by
    simp only [Option.bind_eq_none_iff, descriptionFault?_eq_none]
  simp only [fault?, Option.orElse_eq_orElse, Option.orElse_eq_or, Option.or_eq_none_iff,
    nameFault?_eq_none, description, ite_eq_left_iff, ite_eq_right_iff, reduceCtorEq, imp_false,
    not_not, String.isEmpty_iff, ne_eq]

end Draft

theorem checkRule_eq_ok {fault? : Option DraftFault} {u : Unit} :
    checkRule fault? = .ok u ↔ fault? = none := by
  cases fault? <;> simp [checkRule]

namespace PublicId

/-- `srv-` and eight lower-case hexadecimal digits. -/
def Shaped (id : String) : Prop :=
  ∃ digits : List Char, digits.length = 8 ∧ (∀ c ∈ digits, c ∈ "0123456789abcdef".toList) ∧
    id = "srv-" ++ String.ofList digits

theorem fixedHex_spec (width n : Nat) : (fixedHex width n).length = width ∧
    ∀ c ∈ fixedHex width n, c ∈ "0123456789abcdef".toList := by
  induction width generalizing n with
  | zero => exact ⟨rfl, fun c hc => absurd hc List.not_mem_nil⟩
  | succ width ih =>
    obtain ⟨length, digits⟩ := ih (n / 16)
    have digit : ∀ d < 16, Text.hexDigits.hexDigit d ∈ "0123456789abcdef".toList := by decide
    refine ⟨by simp [fixedHex, length], fun c hc => ?_⟩
    rcases List.mem_append.mp hc with front | last
    · exact digits c front
    · rw [List.mem_singleton.mp last]
      exact digit _ (Nat.mod_lt n (by decide))

theorem shaped_ofDraw (n : Nat) : Shaped (ofDraw n) :=
  ⟨fixedHex 8 n, (fixedHex_spec 8 n).1, (fixedHex_spec 8 n).2, rfl⟩

end PublicId

/-! ## Records -/

namespace Vm

/-- The record is as the data model has it. -/
structure WellFormed (vm : Vm) : Prop where
  id : PublicId.Shaped vm.id
  name : Draft.NameFits vm.name
  description : ∀ text, vm.description = some text → text.length ≤ 500
  vcpus : 1 ≤ vm.vcpus ∧ vm.vcpus ≤ 32
  memory : 128 ≤ vm.memoryMb ∧ vm.memoryMb ≤ 32768
  owner : vm.owner ≠ ""

/-- The record is of the same VM: who it is, whose it is and what it was asked to be have not
changed. -/
structure Persists (old vm : Vm) : Prop where
  key : vm.key = old.key
  id : vm.id = old.id
  owner : vm.owner = old.owner
  vcpus : vm.vcpus = old.vcpus
  memory : vm.memoryMb = old.memoryMb
  created : vm.createdAt = old.createdAt

variable {a b c vm old : Vm} {now : Instant}

theorem Persists.refl (a : Vm) : a.Persists a :=
  ⟨rfl, rfl, rfl, rfl, rfl, rfl⟩

theorem Persists.trans (h : a.Persists b) (h' : b.Persists c) : a.Persists c :=
  ⟨h'.key.trans h.key, h'.id.trans h.id, h'.owner.trans h.owner, h'.vcpus.trans h.vcpus,
    h'.memory.trans h.memory, h'.created.trans h.created⟩

theorem persists_moved (old : Vm) (next : VmStatus) (patch : VmPatch) (now : Instant) :
    old.Persists (old.moved next patch now) :=
  ⟨rfl, rfl, rfl, rfl, rfl, rfl⟩

theorem persists_edited (old : Vm) (name description : Option String) (now : Instant) :
    old.Persists (old.edited name description now) :=
  ⟨rfl, rfl, rfl, rfl, rfl, rfl⟩

theorem WellFormed.moved (h : old.WellFormed) (next : VmStatus) (patch : VmPatch) (now : Instant) :
    (old.moved next patch now).WellFormed :=
  ⟨h.id, h.name, h.description, h.vcpus, h.memory, h.owner⟩

/-- An edit that breaks no rule leaves the record well-formed. -/
theorem WellFormed.edited (h : old.WellFormed) {name description : Option String}
    (named : name.bind Draft.nameFault? = none)
    (described : description.bind Draft.descriptionFault? = none) (now : Instant) :
    (old.edited name description now).WellFormed := by
  refine ⟨h.id, ?_, ?_, h.vcpus, h.memory, h.owner⟩
  · cases name with
    | none => exact h.name
    | some new => exact Draft.nameFault?_eq_none.mp named
  · cases description with
    | none => exact h.description
    | some new =>
      intro text same
      cases same
      exact Draft.descriptionFault?_eq_none.mp described

end Vm

namespace Store

variable {s s' : Store} {vm : Vm} {now : Instant} {id : String} {draft : Draft}

theorem wellFormed_of_insertVm (h : s.insertVm now id draft = .ok (vm, s'))
    (valid : draft.fault? = none) (shaped : PublicId.Shaped id) : vm.WellFormed := by
  obtain ⟨named, described, cpus, size, owned⟩ := Draft.fault?_eq_none.mp valid
  rw [insertVm_eq h]
  exact ⟨shaped, named, described, cpus, size, owned⟩

theorem mem_setVm {key : Int} {new : Vm} (h : vm ∈ (s.setVm key fun _ => new).vms) :
    vm ∈ s.vms ∨ vm = new := by
  obtain ⟨old, member, rfl⟩ := mem_updateWhere.mp h
  split
  · exact .inr rfl
  · exact .inl member

end Store

/-! ## Where records come from -/

/-- Where a record comes from that is in the store `s'`, which an operation or a request left that
found the store `s`. -/
inductive Origin (asked : Fleet.Request → Instant → Prop) (s s' : Store) (vm : Vm) : Prop
  | kept (member : vm ∈ s.vms)
  | moved {old : Vm} {next : VmStatus} {patch : VmPatch} {now : Instant} (member : old ∈ s.vms)
      (move : vm = old.moved next patch now)
  | edited {old : Vm} {name description : Option String} {now : Instant} (member : old ∈ s.vms)
      (asked : asked (.updateVm old.id old.owner name description) now)
      (done : Client.updateVm s now old.id old.owner name description = .ok (vm, s'))
  | created {maxAttempts : Nat} {ids : List String} {taskId : String} {draft : Draft}
      {placement : Client.Placement} {now : Instant} {t : Store}
      (asked : asked (.createVm maxAttempts ids taskId draft placement) now) (drawn : vm.id ∈ ids)
      (valid : draft.fault? = none) (inserted : s.insertVm now vm.id draft = .ok (vm, t))

theorem Effect.origin {β : Type} {s s' : Store} {op : Operation β} {answer : β}
    (h : Effect s op answer s') (asked : Fleet.Request → Instant → Prop) :
    s'.nextVm = s.nextVm ∧ ∀ vm ∈ s'.vms, Origin asked s s' vm := by
  rcases h.vms_cases with ⟨vms, next⟩ | ⟨key, expected, next, _, _, deed, -⟩ | ⟨key, -, rfl⟩
  · exact ⟨next, fun vm hvm => .kept (vms ▸ hvm)⟩
  · cases op <;> try cases deed
    rcases h.transition with ⟨old, now, found, -, -, rfl⟩ | ⟨_, -, rfl, -⟩
    · refine ⟨rfl, fun vm hvm => ?_⟩
      rcases Store.mem_setVm hvm with same | move
      · exact .kept same
      · exact .moved (Store.vm?_mem found).1 move
    · exact ⟨rfl, fun vm hvm => .kept hvm⟩
  · exact ⟨rfl, fun vm hvm => .kept (List.mem_filter.mp hvm).1⟩

namespace Client

variable {s s' : Store} {now : Instant} {vm : Vm} {name description : Option String}
  {vmId owner : String}

theorem updateVm_ok (distinct : s.VmsDistinct)
    (h : updateVm s now vmId owner name description = .ok (vm, s')) :
    name.bind Draft.nameFault? = none ∧ description.bind Draft.descriptionFault? = none ∧
      ∃ old, getVm s vmId owner = .ok old ∧ vm = old.edited name description now.cutToMicros ∧
        s' = s.setVm old.key fun _ => vm := by
  rw [updateVm_eq distinct] at h
  obtain ⟨_, named, h⟩ := bind_ok h
  obtain ⟨_, described, h⟩ := bind_ok h
  obtain ⟨old, own, h⟩ := bind_ok h
  cases h
  exact ⟨checkRule_eq_ok.mp named, checkRule_eq_ok.mp described, old, own, rfl, rfl⟩

end Client

namespace Fleet

open AllocatorCall (committed)

variable {asked : Request → Instant → Prop} {s s' : Store} {now : Instant}

theorem Request.origin_of_vms (vms : s'.vms = s.vms) (next : s'.nextVm = s.nextVm) :
    s.nextVm ≤ s'.nextVm ∧ ∀ vm ∈ s'.vms, Origin asked s s' vm :=
  ⟨Int.le_of_eq next.symm, fun _ hvm => .kept (vms ▸ hvm)⟩

theorem Request.origin_of_createVm {maxAttempts : Nat} {ids : List String} {taskId : String}
    {draft : Draft} {placement : Client.Placement} (distinct : s.VmsDistinct)
    (isAsked : asked (.createVm maxAttempts ids taskId draft placement) now) :
    let s' := (Client.createVm s now maxAttempts ids taskId draft placement).2
    s.nextVm ≤ s'.nextVm ∧ ∀ vm ∈ s'.vms, Origin asked s s' vm := by
  simp only [Client.createVm]
  split
  · exact origin_of_vms rfl rfl
  next valid =>
  split
  · exact origin_of_vms rfl rfl
  next vm t fresh =>
  obtain ⟨id, drawn, inserted⟩ := insertFresh_ok fresh
  obtain ⟨-, key, rfl, -, -, rfl⟩ := Store.insertVm_ok inserted
  split
  · next stored =>
    obtain ⟨-, -, rfl⟩ := enqueue_ok stored
    refine ⟨Int.le_add_one (Int.le_refl _), fun x hx => ?_⟩
    rcases List.mem_append.mp hx with old | new
    · exact .kept old
    · cases List.mem_singleton.mp new
      exact .created isAsked drawn (checkRule_eq_ok.mp valid) inserted
  · rw [Store.removeVm_append_new key distinct]
    exact ⟨Int.le_add_one (Int.le_refl _), fun _ hx => .kept hx⟩

theorem Request.origin_of_enqueue {maxAttempts : Nat} {taskId : String} {kind : TaskKind}
    {vmKey : Int} {params : TaskParams} :
    let s' := committed s (Queue.enqueue s now maxAttempts taskId kind vmKey params)
    s.nextVm ≤ s'.nextVm ∧ ∀ vm ∈ s'.vms, Origin asked s s' vm := by
  cases stored : Queue.enqueue s now maxAttempts taskId kind vmKey params with
  | error e => exact origin_of_vms rfl rfl
  | ok r =>
    obtain ⟨-, -, same⟩ := enqueue_ok stored
    exact origin_of_vms (by simp only [committed, same]) (by simp only [committed, same])

theorem Request.origin_of_call (call : AllocatorCall) :
    s.nextVm ≤ (call.apply now s).nextVm ∧
      ∀ vm ∈ (call.apply now s).vms, Origin asked s (call.apply now s) vm := by
  have does := call.does_apply now s
  generalize call.apply now s = s' at does
  cases does with
  | refused | switched | released => exact origin_of_vms rfl rfl
  | created _ stored =>
    obtain ⟨-, -, same⟩ := Store.insertPool_ok stored
    exact origin_of_vms (by rw [same]) (by rw [same])
  | granted grant => exact origin_of_vms (by rw [grant.slots_only]) (by rw [grant.slots_only])

/-- A request leaves the records as they are, or it edits one or adds one. -/
theorem Request.origin (request : Request) (now : Instant) (distinct : s.VmsDistinct)
    (isAsked : asked request now) : s.nextVm ≤ (request.apply now s).nextVm ∧
      ∀ vm ∈ (request.apply now s).vms, Origin asked s (request.apply now s) vm := by
  cases request with
  | createPool name cidr gateway description => exact origin_of_call _
  | setPoolActive name active => exact origin_of_call _
  | createVm maxAttempts ids taskId draft placement => exact origin_of_createVm distinct isAsked
  | updateVm vmId owner name description =>
    simp only [Request.apply]
    cases done : Client.updateVm s now vmId owner name description with
    | error e => exact origin_of_vms rfl rfl
    | ok r =>
      obtain ⟨edited, t⟩ := r
      obtain ⟨-, -, old, own, isEdited, rfl⟩ := Client.updateVm_ok distinct done
      obtain ⟨member, rfl, rfl⟩ := (Client.getVm_eq_ok distinct).mp own
      refine ⟨Int.le_refl _, fun vm hvm => ?_⟩
      rcases Store.mem_setVm hvm with same | rfl
      · exact .kept same
      · exact .edited member isAsked done
  | ask maxAttempts taskId kind vmId owner =>
    simp only [Request.apply]
    cases done : Client.request s now maxAttempts taskId kind vmId owner with
    | error e => exact origin_of_vms rfl rfl
    | ok r =>
      obtain ⟨vm, -, stored⟩ := bind_ok done
      split at stored
      · rw [← stored]
        exact origin_of_enqueue
      · cases stored
  | enqueue maxAttempts taskId kind vmKey params => exact origin_of_enqueue

end Fleet

namespace Crew

variable {jobs : List Fleet.Job} {turns : List Turn} {members : List Thread} {s : Store}
  {earlier between later : List Entry} {entry : Entry}

/-- A client asks for this in one of the turns. -/
def Asked (turns : List Turn) (request : Fleet.Request) (now : Instant) : Prop :=
  .request request now ∈ turns

theorem log_asked {before after : Store}
    (split : log s members turns = earlier ++ .request before after :: later) :
    ∃ request now, Asked turns request now ∧ after = request.apply now before := by
  induction turns generalizing s members earlier with
  | nil => simp [log] at split
  | cons turn turns ih =>
    -- The entry was made in this turn or in one of those that follow.
    have onward : ∀ {s members earlier},
        log s members turns = earlier ++ .request before after :: later →
        ∃ request now, Asked (turn :: turns) request now ∧ after = request.apply now before := by
      intro s members earlier split
      obtain ⟨request, now, asked, same⟩ := ih split
      exact ⟨request, now, List.mem_cons_of_mem turn asked, same⟩
    cases turn with
    | request request now =>
      rw [log] at split
      cases earlier with
      | nil =>
        cases split
        exact ⟨request, now, List.mem_cons_self, rfl⟩
      | cons _ earlier => exact onward (List.cons.inj split).2
    | operation member tool now =>
      rw [log] at split
      split at split
      · cases earlier with
        | nil => cases split
        | cons _ earlier => exact onward (List.cons.inj split).2
      · exact onward split

/-- Every record there is after an entry comes from somewhere. -/
theorem work_origin (split : work jobs turns = earlier ++ entry :: later) :
    (state earlier).nextVm ≤ entry.event.after.nextVm ∧
      ∀ vm ∈ entry.event.after.vms, Origin (Asked turns) (state earlier) entry.event.after vm := by
  have distinct : (state earlier).VmsDistinct := work_distinct split
  cases entry with
  | request before after =>
    obtain ⟨request, now, asked, same⟩ := log_asked split
    have before_eq : before = state earlier := (work_follows split).before_eq
    subst before_eq same
    exact request.origin now distinct asked
  | operation member act =>
    obtain ⟨before, possible⟩ : act.before = state earlier ∧ act.Possible := by
      cases work_follows split with
      | operation before possible => exact ⟨before, possible⟩
    obtain ⟨_, op, answer, -, effect⟩ := possible
    rw [before] at effect
    obtain ⟨next, origin⟩ := effect.origin (Asked turns)
    exact ⟨Int.le_of_eq next.symm, origin⟩

end Crew

/-- The ids that a request brings for a new VM are drawn ones. -/
def Fleet.Request.Drawn : Fleet.Request → Prop
  | .createVm _ ids _ _ _ => ∀ id ∈ ids, ∃ n, id = PublicId.ofDraw n
  | _ => True

namespace Origin

variable {asked : Fleet.Request → Instant → Prop} {s s' : Store} {vm : Vm}

theorem wellFormed (h : Origin asked s s' vm) (distinct : s.VmsDistinct)
    (drawn : ∀ request now, asked request now → request.Drawn)
    (before : ∀ vm ∈ s.vms, vm.WellFormed) : vm.WellFormed := by
  cases h with
  | kept member => exact before vm member
  | moved member move =>
    subst move
    exact (before _ member).moved _ _ _
  | edited member _ done =>
    obtain ⟨named, described, old, own, rfl, -⟩ := Client.updateVm_ok distinct done
    exact (before old ((Client.getVm_eq_ok distinct).mp own).1).edited named described _
  | created isAsked isDrawn valid inserted =>
    obtain ⟨n, shaped⟩ := drawn _ _ isAsked _ isDrawn
    exact Store.wellFormed_of_insertVm inserted valid (shaped ▸ PublicId.shaped_ofDraw n)

/-- A record is the record of a VM that was there, with a new status or after an edit that its owner
asked for, or it is a new one under the next key. -/
theorem persists (h : Origin asked s s' vm) (distinct : s.VmsDistinct) :
    (∃ old ∈ s.vms, old.Persists vm ∧ (vm.name = old.name ∧ vm.description = old.description ∨
      ∃ name description now, asked (.updateVm old.id old.owner name description) now ∧
        Client.updateVm s now old.id old.owner name description = .ok (vm, s'))) ∨
      vm.key = s.nextVm := by
  cases h with
  | kept member => exact .inl ⟨vm, member, .refl vm, .inl ⟨rfl, rfl⟩⟩
  | moved member move =>
    subst move
    exact .inl ⟨_, member, Vm.persists_moved _ _ _ _, .inl ⟨rfl, rfl⟩⟩
  | @edited old name description now member isAsked done =>
    obtain ⟨-, -, old', own, rfl, -⟩ := Client.updateVm_ok distinct done
    obtain ⟨member', id, -⟩ := (Client.getVm_eq_ok distinct).mp own
    obtain rfl := distinct.eq_of_id member' member id
    exact .inl ⟨old', member, Vm.persists_edited _ _ _ _,
      .inr ⟨name, description, now, isAsked, done⟩⟩
  | created _ _ _ inserted => exact .inr (Store.insertVm_ok inserted).2.1

end Origin

namespace Crew

variable {jobs : List Fleet.Job} {turns : List Turn} {earlier between later : List Entry}
  {entry : Entry}

theorem work_wellFormed (drawn : ∀ request now, Asked turns request now → request.Drawn)
    (split : work jobs turns = earlier ++ later) : ∀ vm ∈ (state earlier).vms, vm.WellFormed := by
  induction earlier using List.reverseRecOn generalizing later with
  | nil => exact fun vm hvm => absurd hvm List.not_mem_nil
  | append_singleton earlier entry ih =>
    rw [List.append_assoc] at split
    obtain ⟨-, origin⟩ := work_origin split
    rw [state_concat]
    exact fun vm hvm => (origin vm hvm).wellFormed (work_distinct split) drawn (ih split)

/-- Under the key of a VM that was there, whoever is there later is the same VM. -/
theorem work_persists (split : work jobs turns = earlier ++ between ++ later) {a : Vm}
    (ha : a ∈ (state earlier).vms) : a.key < (state (earlier ++ between)).nextVm ∧
      ∀ b ∈ (state (earlier ++ between)).vms, b.key = a.key → a.Persists b := by
  induction between using List.reverseRecOn generalizing later with
  | nil =>
    rw [List.append_nil] at split ⊢
    have distinct : (state earlier).VmsDistinct := work_distinct split
    refine ⟨distinct.fresh a ha, fun b hb same => ?_⟩
    rw [List.inj_on_of_nodup_map distinct.keys hb ha same]
    exact .refl a
  | append_singleton between entry ih =>
    rw [← List.append_assoc, List.append_assoc] at split
    obtain ⟨used, still⟩ := ih split
    obtain ⟨grows, origin⟩ := work_origin split
    rw [← List.append_assoc, state_concat]
    refine ⟨Int.lt_of_lt_of_le used grows, fun b hb same => ?_⟩
    rcases (origin b hb).persists (work_distinct split) with ⟨old, member, persists, -⟩ | isNew
    · exact (still old member (persists.key.symm.trans same)).trans persists
    · omega

/-- **The data model holds.** Whatever clients ask for, and whatever workers, janitors and
recoveries do beside them, every record is well-formed, and no two VMs share a public id. Who a VM
is, whose it is and what it was asked to be is the same whenever it is there, and its name and
description change only in an edit that is accepted from its owner. -/
theorem data_model_kept (jobs : List Fleet.Job) (turns : List Turn)
    (drawn : ∀ request now, Asked turns request now → request.Drawn) :
    (∀ earlier later, work jobs turns = earlier ++ later →
      (∀ vm ∈ (state earlier).vms, vm.WellFormed) ∧ ((state earlier).vms.map (·.id)).Nodup) ∧
    (∀ earlier between later, work jobs turns = earlier ++ between ++ later → ∀ key a b,
      (state earlier).vm? key = some a → (state (earlier ++ between)).vm? key = some b →
      a.Persists b) ∧
    ∀ earlier entry later, work jobs turns = earlier ++ entry :: later → ∀ key old vm,
      entry.event.before.vm? key = some old → entry.event.after.vm? key = some vm →
      vm.name = old.name ∧ vm.description = old.description ∨
        ∃ name description now, Asked turns (.updateVm old.id old.owner name description) now ∧
          Client.updateVm entry.event.before now old.id old.owner name description =
            .ok (vm, entry.event.after) := by
  refine ⟨fun earlier later split => ?_, fun earlier between later split key a b there there' => ?_,
    fun earlier entry later split key old vm there there' => ?_⟩
  · exact ⟨work_wellFormed drawn split, (work_distinct split).ids⟩
  · obtain ⟨ha, key⟩ := Store.vm?_mem there
    obtain ⟨hb, key'⟩ := Store.vm?_mem there'
    exact (work_persists split ha).2 b hb (key'.trans key.symm)
  · obtain ⟨-, origin⟩ := work_origin split
    have distinct : (state earlier).VmsDistinct := work_distinct split
    obtain ⟨member, key'⟩ := Store.vm?_mem there'
    rw [(work_follows split).before_eq] at there ⊢
    obtain ⟨hold, key⟩ := Store.vm?_mem there
    rcases (origin vm member).persists distinct with ⟨old', hold', persists, text⟩ | isNew
    · have same : old' = old := List.inj_on_of_nodup_map distinct.keys hold' hold
        (persists.key.symm.trans (key'.trans key.symm))
      rwa [same] at text
    · have used := distinct.fresh old hold
      omega

/-- A VM is asked for, its owner gives it another name, and a worker finds no pool for it. -/
def renamedUse : List Turn :=
  [.request (.createVm 3 [PublicId.ofDraw 51966] "task-1" { name := "web", owner := "ann" } {})
      ⟨1, 0⟩,
    .request (.updateVm (PublicId.ofDraw 51966) "ann" (some "web-2") none) ⟨2, 0⟩] ++
  List.replicate 7 (.operation 0 lostTool ⟨3, 0⟩)

/-- It is the same VM after all of that, and its record is well-formed under the new name. -/
theorem renamed_persists : ∃ a b,
    (state ((work [Fleet.plainWorker (.ofSeconds 300)] renamedUse).take 1)).vm? 1 = some a ∧
      (state (work [Fleet.plainWorker (.ofSeconds 300)] renamedUse)).vm? 1 = some b ∧
      a.name = "web" ∧ b.name = "web-2" ∧ b.status = .error ∧ b.WellFormed ∧ a.Persists b := by
  have drawn : ∀ request now, Asked renamedUse request now → request.Drawn := by
    intro request now asked
    rcases List.mem_append.mp asked with asked | worked
    · rcases List.mem_cons.mp asked with create | edit
      · cases create
        exact fun id hid => ⟨51966, List.mem_singleton.mp hid⟩
      · cases List.mem_singleton.mp edit
        trivial
    · cases List.eq_of_mem_replicate worked
  have whole := List.take_append_drop 1 (work [Fleet.plainWorker (.ofSeconds 300)] renamedUse)
  obtain ⟨fits, persists, -⟩ :=
    data_model_kept [Fleet.plainWorker (.ofSeconds 300)] renamedUse drawn
  have first : ((state ((work [Fleet.plainWorker (.ofSeconds 300)] renamedUse).take 1)).vm? 1).map
      (·.name) = some "web" := by
    decide +kernel
  have last : ((state (work [Fleet.plainWorker (.ofSeconds 300)] renamedUse)).vm? 1).map
      (fun vm => (vm.name, vm.status)) = some ("web-2", .error) := by
    decide +kernel
  obtain ⟨a, there, name⟩ := Option.map_eq_some_iff.mp first
  obtain ⟨b, there', shown⟩ := Option.map_eq_some_iff.mp last
  obtain ⟨name', status⟩ := Prod.mk.inj shown
  refine ⟨a, b, there, there', name, name', status, ?_, ?_⟩
  · exact (fits _ [] (List.append_nil _).symm).1 b (Store.vm?_mem there').1
  · refine persists _ _ [] ((List.append_nil _).trans whole).symm 1 a b there ?_
    rw [whole]
    exact there'

end Crew

end VmFleet
