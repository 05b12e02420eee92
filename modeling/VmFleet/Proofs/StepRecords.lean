/-
Steps written as JSON and read back. What a step leaves out is what its reader puts
in for a member that is missing, so every step with a time that has a text is read
as it was written.
-/
import VmFleet.Proofs.JsonRecords
import VmFleet.Proofs.Timestamps
import VmFleet.Provision.Step

namespace VmFleet

/-! ## Facts -/

theorem keysAscend_iff {entries : List (String × String)} :
    KeysAscend entries ↔ entries.Pairwise fun a b => a.1 < b.1 := by
  induction entries with
  | nil => simp [KeysAscend]
  | cons a rest ih =>
    cases rest with
    | nil => simp [KeysAscend]
    | cons b rest =>
      rw [KeysAscend, ih, List.pairwise_cons (a := a)]
      refine and_congr_left fun sorted => ⟨fun first c hc => ?_, fun h => h b List.mem_cons_self⟩
      rcases List.mem_cons.mp hc with rfl | hc
      · exact first
      · exact lt_trans first ((List.pairwise_cons.mp sorted).1 c hc)

namespace Facts

/-- A key above all others is added at the end. -/
theorem insertEntry_last {key value : String} {entries : List (String × String)}
    (h : ∀ e ∈ entries, e.1 < key) :
    insertEntry key value entries = entries ++ [(key, value)] := by
  induction entries with
  | nil => rfl
  | cons e rest ih =>
    have below := h e List.mem_cons_self
    rw [insertEntry, if_neg (lt_asymm below), if_neg (ne_of_gt below),
      ih fun x hx => h x (List.mem_cons_of_mem e hx), List.cons_append]

theorem ofList_from {pairs : List (String × String)} {f : Facts}
    (h : KeysAscend (f.entries ++ pairs)) :
    (pairs.foldl (fun f (k, v) => f.insert k v) f).entries = f.entries ++ pairs := by
  induction pairs generalizing f with
  | nil => rw [List.append_nil]; rfl
  | cons p pairs ih =>
    have below := (List.pairwise_append.mp (keysAscend_iff.mp h)).2.2
    have added : (f.insert p.1 p.2).entries = f.entries ++ [p] :=
      insertEntry_last fun e he => below e he p List.mem_cons_self
    have rest : (f.insert p.1 p.2).entries ++ pairs = f.entries ++ p :: pairs := by
      rw [added, List.append_assoc, List.singleton_append]
    rw [List.foldl_cons, ih (by rw [rest]; exact h), rest]

theorem ofList_entries (f : Facts) : ofList f.entries = f := by
  have same : (ofList f.entries).entries = f.entries := ofList_from (f := empty) f.ascend
  obtain ⟨entries, ascend⟩ := f
  generalize ofList entries = g at same
  cases g
  cases same
  rfl

theorem eq_empty_of_isEmpty {f : Facts} (h : f.isEmpty = true) : f = empty := by
  obtain ⟨entries, ascend⟩ := f
  obtain rfl : entries = [] := List.isEmpty_iff.mp h
  rfl

theorem plain_toJson (f : Facts) : f.toJson.Plain := by
  refine Json.plain_object fun m hm => ?_
  obtain ⟨e, -, rfl⟩ := List.mem_map.mp hm
  trivial

theorem ofJson?_toJson (f : Facts) : ofJson? f.toJson = some f := by
  have pairs : ∀ {read : Option String × Json → Option (String × String)}
      (entries : List (String × String)), (∀ e, read (some e.1, .str e.2) = some e) →
      ((entries.map fun e => (e.1, Json.str e.2)).map fun m => (some m.1, m.2)).mapM read =
        some entries := by
    intro read entries h
    induction entries with
    | nil => rfl
    | cons e entries ih => simp only [List.map_cons, List.mapM_cons, h e, ih]; rfl
  simp only [toJson, Json.object, ofJson?]
  rw [pairs f.entries fun _ => rfl]
  simp only [Option.bind_eq_bind, Option.bind_some, ofList_entries]

end Facts

/-! ## Steps -/

theorem StepStatus.ofJson?_toJson (status : StepStatus) :
    StepStatus.ofJson? status.toJson = some status := by
  cases status <;> decide

namespace Step

open Json

variable {s : Step}

/-- The members that a step is written with. -/
def written (s : Step) : List (String × Json) :=
  [("name", .str s.name), ("status", s.status.toJson), ("timestamp", s.timestamp.toJson)] ++
    optionalMember "host" s.host ++ optionalMember "msg" s.msg ++
    (if s.facts.isEmpty then [] else [("facts", s.facts.toJson)])

theorem plain_toJson (s : Step) : s.toJson.Plain := by
  refine plain_object ?_
  simp only [List.forall_mem_append, List.forall_mem_cons]
  refine ⟨⟨⟨⟨trivial, trivial, trivial, by simp⟩, plain_optionalMember⟩, plain_optionalMember⟩, ?_⟩
  split
  · simp
  · simpa using s.facts.plain_toJson

theorem written_keys (s : Step) : (s.written.map (·.1)).Sublist members := by
  have facts : ((if s.facts.isEmpty then [] else [("facts", s.facts.toJson)]).map (·.1)).Sublist
      ["facts"] := by
    split
    · exact List.nil_sublist _
    · exact List.Sublist.refl _
  simp only [written, List.map_append]
  exact (((List.Sublist.refl _).append keys_optionalMember).append keys_optionalMember).append facts

theorem read?_toJson (s : Step) : Record.read? members s.toJson = some ⟨s.written, false⟩ :=
  Record.read?_of_sublist s.written_keys (by decide)

theorem lookup_written (s : Step) {key : String} (name : key ≠ "name") (status : key ≠ "status")
    (time : key ≠ "timestamp") :
    s.written.lookup key =
      ((if key = "host" then s.host.map .str else none).or
        (if key = "msg" then s.msg.map .str else none)).or
        (if key = "facts" ∧ s.facts.isEmpty = false then some s.facts.toJson else none) := by
  have always : [("name", Json.str s.name), ("status", s.status.toJson),
      ("timestamp", s.timestamp.toJson)].lookup key = none := by
    simp only [List.lookup_cons, beq_eq_false_iff_ne.mpr name, beq_eq_false_iff_ne.mpr status,
      beq_eq_false_iff_ne.mpr time, List.lookup_nil]
  have facts : (if s.facts.isEmpty then [] else [("facts", s.facts.toJson)]).lookup key =
      if key = "facts" ∧ s.facts.isEmpty = false then some s.facts.toJson else none := by
    cases s.facts.isEmpty with
    | true => simp
    | false =>
      by_cases same : key = "facts"
      · simp [same]
      · simp [List.lookup_cons, same, beq_eq_false_iff_ne.mpr same]
  simp only [written, List.lookup_append, lookup_optionalMember, always, facts, Option.none_or]

theorem ofJson?_toJson (now : Instant) (h : s.timestamp.Shown) :
    ofJson? now s.toJson = some s := by
  have name : (⟨s.written, false⟩ : Record).need? "name" asText? = some s.name := rfl
  have status : (⟨s.written, false⟩ : Record).need? "status" StepStatus.ofJson? = some s.status :=
    StepStatus.ofJson?_toJson s.status
  have time : (⟨s.written, false⟩ : Record).orElse? "timestamp" Instant.ofJson? now =
      some s.timestamp := by
    have found : (⟨s.written, false⟩ : Record).find? "timestamp" = some s.timestamp.toJson := rfl
    rw [Record.orElse?, found]
    show (some s.timestamp.text).bind Instant.read? = _
    rw [Option.bind_some, h.read?_text]
  have host : (⟨s.written, false⟩ : Record).orElse? "host" (asNullable? asText?) none =
      some s.host := by
    refine Record.orElse?_optional ((s.lookup_written ?_ ?_ ?_).trans ?_) <;> simp
  have msg : (⟨s.written, false⟩ : Record).orElse? "msg" (asNullable? asText?) none =
      some s.msg := by
    refine Record.orElse?_optional ((s.lookup_written ?_ ?_ ?_).trans ?_) <;> simp
  have facts : (⟨s.written, false⟩ : Record).orElse? "facts" Facts.ofJson? .empty =
      some s.facts := by
    have found : (⟨s.written, false⟩ : Record).find? "facts" =
        if s.facts.isEmpty = false then some s.facts.toJson else none := by
      refine (s.lookup_written ?_ ?_ ?_).trans ?_ <;> simp
    rw [Record.orElse?, found]
    cases none : s.facts.isEmpty with
    | true => rw [if_neg (by decide), Facts.eq_empty_of_isEmpty none]
    | false => exact s.facts.ofJson?_toJson
  rw [ofJson?, read?_toJson]
  simp only [Option.bind_eq_bind, Option.bind_some, name, status, time, host, msg, facts]

end Step

end VmFleet
