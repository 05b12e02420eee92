/-
Objects read as records. An object whose members are declared and distinct is read
as the record of them, and what a member leaves out when it is not set is what its
reader takes for missing.
-/
import VmFleet.Proofs.JsonText
import VmFleet.Task.Form

namespace VmFleet.Json

variable {declared : List String} {members : List (String × Json)}

theorem plain_object (h : ∀ m ∈ members, m.2.Plain) : (object members).Plain := by
  show PlainMembers (members.map fun m => (some m.1, m.2))
  induction members with
  | nil => trivial
  | cons m members ih =>
    exact ⟨rfl, h m List.mem_cons_self, ih fun x hx => h x (List.mem_cons_of_mem m hx)⟩

theorem Record.hasRepeat_of_nodup {keys : List String} (h : keys.Nodup) :
    Record.hasRepeat keys = false := by
  induction h with
  | nil => rfl
  | cons others _ ih =>
    rw [Record.hasRepeat, ih, Bool.or_false, List.contains_eq_mem, decide_eq_false_iff_not]
    exact fun again => others _ again rfl

theorem filterMap_members {f : Option String × Json → Option (String × Json)}
    (h : ∀ m ∈ members, f (some m.1, m.2) = some m) :
    (members.map fun m => (some m.1, m.2)).filterMap f = members := by
  rw [List.filterMap_map]
  exact (List.filterMap_congr fun m hm => h m hm).trans List.filterMap_some

/-- An object is read as the record of its members. -/
theorem Record.read?_object (known : ∀ m ∈ members, m.1 ∈ declared)
    (distinct : (members.map (·.1)).Nodup) :
    Record.read? declared (object members) = some ⟨members, false⟩ := by
  have keys : (members.map fun m => (some m.1, m.2)).any (fun m => m.1.isNone) = false := by
    simp
  simp only [object, Record.read?]
  rw [keys, filterMap_members fun m hm => by simp [known m hm],
    Record.hasRepeat_of_nodup distinct]
  rfl

/-- An object whose keys stand in the declared order is read as the record of its members. -/
theorem Record.read?_of_sublist (order : (members.map (·.1)).Sublist declared)
    (distinct : declared.Nodup) :
    Record.read? declared (object members) = some ⟨members, false⟩ :=
  Record.read?_object (fun _ hm => order.subset (List.mem_map_of_mem hm)) (order.nodup distinct)

/-! ## Members that may be left out -/

variable {key k : String} {value : Option String}

theorem plain_optionalMember : ∀ m ∈ optionalMember key value, m.2.Plain := by
  cases value with
  | none => simp [optionalMember]
  | some value =>
    intro m hm
    rw [List.mem_singleton.mp hm]
    trivial

theorem keys_optionalMember : ((optionalMember key value).map (·.1)).Sublist [key] := by
  cases value with
  | none => exact List.nil_sublist _
  | some value => exact List.Sublist.refl _

theorem lookup_optionalMember :
    (optionalMember key value).lookup k = if k = key then value.map .str else none := by
  cases value with
  | none => simp [optionalMember]
  | some value =>
    rw [optionalMember, List.lookup_cons]
    by_cases same : k = key
    · rw [beq_iff_eq.mpr same, if_pos same, Option.map_some]
    · rw [beq_eq_false_iff_ne.mpr same, if_neg same, List.lookup_nil]

theorem Record.orElse?_optional {r : Record} (h : r.find? key = value.map .str) :
    r.orElse? key (asNullable? asText?) none = some value := by
  rw [Record.orElse?, h]
  cases value <;> rfl

end VmFleet.Json
