/-
The arguments that the tool is started with. The variables of a request are one JSON
object, from which the request is read back whatever its texts hold; and the run is
confined to a host exactly if the request names it.
-/
import VmFleet.Proofs.JsonRecords
import VmFleet.Proofs.WorkingDirectory

namespace VmFleet

/-! ## The variables of a request -/

namespace Json

theorem asNat?_ofNat {n bound : Nat} (h : n < bound) : asNat? bound (.ofNat n) = some n := by
  have inside : (0 : Int) ≤ n ∧ (n : Int) < bound := by omega
  rw [asNat?, ofNat, asInt?, if_pos inside]
  rfl

end Json

namespace Json.Record

variable {r : Record} {key : String} {value : Option String}

theorem need?_found {α : Type} {v : Json} (read : Json → Option α) (found : r.find? key = some v) :
    r.need? key read = read v := by
  rw [need?, found]
  rfl

theorem nullable?_optional (named : r.positional = false)
    (h : r.find? key = value.map .str ∨ r.find? key = some (.ofText? value)) :
    r.nullable? key asText? = some value := by
  rw [nullable?]
  rcases h with left | null
  · rw [left, named]
    cases value <;> rfl
  · rw [null]
    cases value <;> rfl

end Json.Record

namespace ProvisionRequest

open Json

variable (r : ProvisionRequest)

/-- The numbers are such as a request can hold. -/
structure Fits : Prop where
  vcpus : r.vcpus < bound32
  memoryMb : r.memoryMb < bound32

/-- What a request has under a name. A missing address is null, and what else is missing has no
name. -/
def value? : (name : String) → Option Json
  | "vm_id" => some (.str r.vmId)
  | "vcpu_count" => some (.ofNat r.vcpus)
  | "memory_mb" => some (.ofNat r.memoryMb)
  | "ip_address" => some (.ofText? r.address)
  | "host" => r.host.map .str
  | "kernel_path" => r.kernelPath.map .str
  | _ => none

/-- The members that the variables are written with. -/
def written : List (String × Json) :=
  optionalMember "host" r.host ++ [("ip_address", .ofText? r.address)] ++
    optionalMember "kernel_path" r.kernelPath ++
    [("memory_mb", .ofNat r.memoryMb), ("vcpu_count", .ofNat r.vcpus), ("vm_id", .str r.vmId)]

theorem written_keys : (r.written.map (·.1)).Sublist
    ["host", "ip_address", "kernel_path", "memory_mb", "vcpu_count", "vm_id"] := by
  simp only [written, List.map_append]
  exact ((keys_optionalMember.append (List.Sublist.refl ["ip_address"])).append
    keys_optionalMember).append (List.Sublist.refl _)

theorem plain_extraVars : r.extraVars.Plain := by
  refine plain_object ?_
  simp only [List.forall_mem_append, List.forall_mem_cons]
  refine ⟨⟨⟨plain_optionalMember, ?_, by simp⟩, plain_optionalMember⟩, trivial, trivial, trivial,
    by simp⟩
  cases r.address <;> trivial

theorem lookup_written (name : String) : r.written.lookup name = r.value? name := by
  unfold value?
  split
  case h_7 vmId vcpus memoryMb address host kernel =>
    refine List.lookup_eq_none_iff.mpr fun m hm => bne_iff_ne.mpr ?_
    rintro rfl
    have named := r.written_keys.subset (List.mem_map_of_mem hm)
    simp only [List.mem_cons, List.not_mem_nil, or_false] at named
    tauto
  all_goals simp [written, List.lookup_append, lookup_optionalMember, List.lookup_cons]

theorem read?_extraVars : Record.read? members r.extraVars = some ⟨r.written, false⟩ := by
  refine Record.read?_object (fun m hm => ?_) (r.written_keys.nodup (by decide))
  have named := r.written_keys.subset (List.mem_map_of_mem hm)
  revert named
  generalize m.1 = name
  revert name
  decide

theorem ofJson?_extraVars (fits : r.Fits) : ofJson? r.extraVars = some r := by
  have found : ∀ name, (⟨r.written, false⟩ : Record).find? name = r.value? name := r.lookup_written
  have vmId : (⟨r.written, false⟩ : Record).need? "vm_id" asText? = some r.vmId :=
    Record.need?_found asText? (found "vm_id")
  have vcpus : (⟨r.written, false⟩ : Record).need? "vcpu_count" (asNat? bound32) =
      some r.vcpus :=
    (Record.need?_found _ (found "vcpu_count")).trans (asNat?_ofNat fits.vcpus)
  have memoryMb : (⟨r.written, false⟩ : Record).need? "memory_mb" (asNat? bound32) =
      some r.memoryMb :=
    (Record.need?_found _ (found "memory_mb")).trans (asNat?_ofNat fits.memoryMb)
  have address : (⟨r.written, false⟩ : Record).nullable? "ip_address" asText? = some r.address :=
    Record.nullable?_optional rfl (.inr (found "ip_address"))
  have host : (⟨r.written, false⟩ : Record).nullable? "host" asText? = some r.host :=
    Record.nullable?_optional rfl (.inl (found "host"))
  have kernel : (⟨r.written, false⟩ : Record).nullable? "kernel_path" asText? =
      some r.kernelPath :=
    Record.nullable?_optional rfl (.inl (found "kernel_path"))
  rw [ofJson?, read?_extraVars]
  simp only [Option.bind_eq_bind, Option.bind_some, vmId, vcpus, memoryMb, address, host, kernel]

end ProvisionRequest

/-! ## The arguments -/

theorem Path.slash_mem_join {base p : String} (filled : base ≠ "") :
    '/' ∈ (Path.join base p).toList := by
  rcases Path.join_cases p filled with ⟨absolute, joined⟩ | ⟨-, ⟨front, rfl, joined⟩ | joined⟩
  · obtain ⟨rest, chars⟩ := Path.isAbsolute_iff.mp absolute
    rw [joined, chars]
    exact List.mem_cons_self
  · rw [joined, String.toList_append, String.toList_append]
    exact List.mem_append_left _ (List.mem_append_right _ (by decide))
  · rw [joined, String.toList_append, String.toList_append]
    exact List.mem_append_left _ (List.mem_append_right _ (by decide))

theorem pair_infix_cons {α : Type} {a b x : α} {rest : List α} :
    [a, b] <:+: x :: rest ↔ a = x ∧ rest.head? = some b ∨ [a, b] <:+: rest := by
  rw [List.infix_cons_iff, List.cons_prefix_cons]
  refine or_congr_left (and_congr_right fun _ => ?_)
  cases rest with
  | nil => simp
  | cons y rest => simp [List.cons_prefix_cons, eq_comm]

namespace Runner

variable {files : FileLookup} {c : ToolConfig} {r : Runner} {action : Action}
  {request : ProvisionRequest} {option value : String}

/-- Of words that are no path, no object and not the first option, just two are options, each
followed by its value. -/
theorem option_told_iff (made : Runner.new files c = .ok r) (nowhere : files "" = none)
    (other : option ≠ "-i") (noPath : '/' ∉ option.toList)
    (noObject : option.toList.head? ≠ some '{') :
    [option, value] <:+: r.args action request ↔
      option = "--extra-vars" ∧ value = request.extraVars.text ∨
        option = "--limit" ∧ request.host = some value := by
  obtain ⟨deploy, -, -, rfl⟩ := new_ok made
  have filled : c.deployPath ≠ "" := by
    intro empty
    rw [empty, nowhere] at deploy
    cases deploy
  have inventory : option ≠ inventoryPath c := by
    rintro rfl
    exact noPath (Path.slash_mem_join filled)
  have playbook : option ≠ playbookPath c.deployPath action := by
    rintro rfl
    exact noPath (Path.slash_mem_join filled)
  have object : option ≠ request.extraVars.text := by
    rintro rfl
    exact noObject (congrArg List.head? (String.toList_ofList))
  simp only [args, List.cons_append, List.nil_append, pair_infix_cons, other, inventory,
    playbook, object, false_and, false_or, List.head?_cons, Option.some.injEq]
  refine or_congr (and_congr_right fun _ => eq_comm) ?_
  -- What is left of the arguments is there only for a host.
  cases request.host with
  | none => simp
  | some host => simp [pair_infix_cons]

/-- **The tool is told the request, whatever its texts hold, and confined to the host that it
names.** Of a checked runner's arguments just one follows `--extra-vars`: a JSON object with each of
its names once, among them those of the VM, its size and its address, null if there is none, and
those of a host and a kernel exactly if they are set. The request is read back from it. After
`--limit` stands the request's host and nothing else, and if there is none nothing does. The
deploy path is not empty, since no file is found under the empty path. -/
theorem request_told (made : Runner.new files c = .ok r) (nowhere : files "" = none)
    (action : Action) (request : ProvisionRequest) (fits : request.Fits) :
    ∃ text members,
      (∀ value, ["--extra-vars", value] <:+: r.args action request ↔ value = text) ∧
      Json.parse? text = some (.object members) ∧
      (members.map (·.1)).Nodup ∧
      (∀ name, members.lookup name = request.value? name) ∧
      (Json.parse? text).bind ProvisionRequest.ofJson? = some request ∧
      ∀ host, ["--limit", host] <:+: r.args action request ↔ request.host = some host := by
  have parsed := Json.parse?_text request.plain_extraVars
  refine ⟨request.extraVars.text, request.written, fun value => ?_, parsed,
    request.written_keys.nodup (by decide), request.lookup_written, ?_, fun host => ?_⟩
  · rw [option_told_iff made nowhere (by decide) (by decide) (by decide)]
    simp
  · rw [parsed]
    exact request.ofJson?_extraVars fits
  · rw [option_told_iff made nowhere (by decide) (by decide) (by decide)]
    simp

/-- A request with quotes, a backslash, a control character and others in its texts, and no
address. -/
def quotedRequest : ProvisionRequest where
  vmId := "srv-\"1\""
  vcpus := 2
  memoryMb := 4294967295
  address := none
  host := some "--limit"
  kernelPath := some "C:\\ö\x01\n"

/-- It is read back, its address is null, and the tool is confined to a host that is named like an
option. -/
theorem quotedRequest_told : ∃ r,
    Runner.new (nestedDeploy.find aboveDeploy) {} = .ok r ∧
    ∃ text, ["--extra-vars", text] <:+: r.args .create quotedRequest ∧
      (Json.parse? text).bind ProvisionRequest.ofJson? = some quotedRequest ∧
      (∃ members, Json.parse? text = some (.object members) ∧
        members.lookup "ip_address" = some .null) ∧
      ["--limit", "--limit"] <:+: r.args .create quotedRequest := by
  have made : Runner.new (nestedDeploy.find aboveDeploy) {} =
      .ok ⟨"ansible-playbook", "deploy", "deploy/inventory.ini", .ofSeconds 120⟩ := by
    decide +kernel
  obtain ⟨text, members, told, parsed, -, named, read, confined⟩ :=
    request_told made (by decide +kernel) .create quotedRequest ⟨by decide, by decide⟩
  exact ⟨_, made, text, (told text).mpr rfl, read, ⟨members, parsed, named "ip_address"⟩,
    (confined "--limit").mpr rfl⟩

end Runner

end VmFleet
