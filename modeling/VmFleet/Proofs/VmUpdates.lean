/-
The statement that changes a status, whatever the patch writes and however many
statuses are expected. Its arguments line up with its parameters: each column gets
the value that was meant for it, and the key and the statuses that it asks for are
those of the caller.
-/
import VmFleet.Store.Vms

namespace VmFleet

theorem VmStatus.text_injective {a b : VmStatus} (h : a.text = b.text) : a = b :=
  Option.some.inj (by rw [← ofText?_text a, ← ofText?_text b, h])

namespace VmField

def get (vm : Vm) : VmField → Option String
  | .address => vm.address
  | .host => vm.host
  | .kernelPath => vm.kernelPath
  | .rootfsPath => vm.rootfsPath
  | .errorMessage => vm.errorMessage

theorem set_get (f : VmField) (vm : Vm) : f.set vm (f.get vm) = vm := by
  cases f <;> rfl

theorem get_moved (f : VmField) (vm : Vm) (next : VmStatus) (patch : VmPatch) (now : Instant) :
    f.get (vm.moved next patch now) = (patch.field f).apply (f.get vm) := by
  cases f <;> rfl

end VmField

namespace VmUpdate

/-! ## Arguments in their places

Columns that are listed with their arguments, then the argument for the key, then those for the
statuses: this is what every statement below looks like. -/

section Places

variable (sets : List (VmColumn × Argument)) (statuses : Nat) (key : Argument)
  (rest : List Argument)

theorem length_places :
    (sets.map Prod.snd ++ key :: rest).length =
      parameters ⟨sets.map Prod.fst, rest.length⟩ := by
  simp only [parameters, List.length_append, List.length_map, List.length_cons]
  omega

theorem write?_places (vm : Vm) :
    write? ⟨sets.map Prod.fst, statuses⟩ (sets.map Prod.snd ++ rest) vm =
      sets.foldlM (fun vm written => written.1.put? vm written.2) vm := by
  have zipped : (sets.map Prod.fst).zip (sets.map Prod.snd ++ rest) = sets := by
    induction sets with
    | nil => rfl
    | cons x sets ih => rw [List.map_cons, List.map_cons, List.cons_append, List.zip_cons_cons, ih]
  rw [write?, zipped]

theorem key?_places :
    key? ⟨sets.map Prod.fst, statuses⟩ (sets.map Prod.snd ++ key :: rest) = key.integer? := by
  simp [key?]

theorem words_places :
    words ⟨sets.map Prod.fst, statuses⟩ (sets.map Prod.snd ++ key :: rest) =
      rest.filterMap Argument.text? := by
  have skipped : (sets.map Prod.snd).drop (sets.length + 1) = [] :=
    List.drop_eq_nil_of_le (by rw [List.length_map]; omega)
  rw [words, List.length_map, List.drop_append, skipped, List.length_map, List.nil_append,
    Nat.add_sub_cancel_left, List.drop_one, List.tail_cons]

end Places

/-! ## What a patch adds to the statement -/

variable (key : Int) (expected : List VmStatus) (next : VmStatus) {patch : VmPatch} (now : Instant)

/-- The columns that a patch writes, each with its argument. -/
def patched (patch : VmPatch) (fields : List VmField) : List (VmColumn × Argument) :=
  fields.filterMap fun f =>
    match patch.field f with
    | .keep => none
    | .set value => some (.field f, .cell (.ofText? value))

theorem patched_cons_keep {f : VmField} (fields : List VmField) (kept : patch.field f = .keep) :
    patched patch (f :: fields) = patched patch fields :=
  List.filterMap_cons_none (by rw [kept])

theorem patched_cons_set {f : VmField} {value : Option String} (fields : List VmField)
    (written : patch.field f = .set value) :
    patched patch (f :: fields) =
      (.field f, .cell (.ofText? value)) :: patched patch fields :=
  List.filterMap_cons_some (by rw [written])

/-- Columns and arguments are added side by side. -/
theorem foldl_addField (fields : List VmField) (sets : List VmColumn)
    (arguments : List Argument) :
    fields.foldl (addField patch) (sets, arguments) =
      (sets ++ (patched patch fields).map Prod.fst,
        arguments ++ (patched patch fields).map Prod.snd) := by
  induction fields generalizing sets arguments with
  | nil => simp [patched]
  | cons f fields ih =>
    rw [List.foldl_cons, addField]
    cases write : patch.field f with
    | keep => rw [ih, patched_cons_keep fields write]
    | set value =>
      rw [ih, patched_cons_set fields write]
      simp only [List.map_cons, List.append_assoc, List.singleton_append]

/-- What is written of a patch comes to what the patch does to each column. -/
theorem foldlM_patched (fields : List VmField) (vm : Vm) :
    (patched patch fields).foldlM (fun vm written => written.1.put? vm written.2) vm =
      some (fields.foldl (fun vm f => f.set vm ((patch.field f).apply (f.get vm))) vm) := by
  induction fields generalizing vm with
  | nil => rfl
  | cons f fields ih =>
    rw [List.foldl_cons]
    cases write : patch.field f with
    | keep => rw [patched_cons_keep fields write, ih, FieldWrite.apply_keep, f.set_get]
    | set value =>
      have put : VmColumn.put? vm (.field f) (.cell (.ofText? value)) = some (f.set vm value) := by
        cases value <;> rfl
      rw [patched_cons_set fields write, List.foldlM_cons, put, FieldWrite.apply_set]
      exact ih (f.set vm value)

/-! ## The whole statement -/

variable (patch)

/-- Everything that a change of status sets, each column with its argument. -/
def settings : List (VmColumn × Argument) :=
  (.status, .cell (.text next.text)) :: (.updatedAt, .time now) :: patched patch VmField.all

theorem moving_eq : moving key expected next patch now =
    (⟨(settings next patch now).map Prod.fst, expected.length⟩,
      (settings next patch now).map Prod.snd ++
        .cell (.integer key) :: expected.map fun status => .cell (.text status.text)) := by
  rw [moving, foldl_addField]
  rfl

example (t : Instant) :
    moving 7 [.pending, .stopped] .error { address := .set none, errorMessage := .set (some "gone") }
      t =
      (⟨[.status, .updatedAt, .field .address, .field .errorMessage], 2⟩,
        [.cell (.text "error"), .time t, .cell .null, .cell (.text "gone"), .cell (.integer 7),
          .cell (.text "pending"), .cell (.text "stopped")]) :=
  rfl

theorem foldlM_settings (vm : Vm) :
    (settings next patch now).foldlM (fun vm written => written.1.put? vm written.2) vm =
      some (vm.moved next patch now) := by
  have status : VmColumn.put? vm .status (.cell (.text next.text)) =
      some { vm with status := next } := by
    rw [VmColumn.put?, Cell.text?, Option.bind_some, VmStatus.ofText?_text, Option.map_some]
  rw [settings, List.foldlM_cons, status]
  -- The time can stand in its column as it is; the patched columns are left.
  exact foldlM_patched VmField.all _

theorem filterMap_text? :
    (expected.map fun status => Argument.cell (.text status.text)).filterMap Argument.text? =
      expected.map VmStatus.text := by
  rw [List.filterMap_map, ← List.filterMap_eq_map]
  rfl

/-- Different statuses have different words, so asking by word is asking by status. -/
theorem contains_text (status : VmStatus) :
    (expected.map VmStatus.text).contains status.text = true ↔ status ∈ expected := by
  rw [List.contains_iff_mem, List.mem_map]
  exact ⟨fun ⟨_, mem, same⟩ => VmStatus.text_injective same ▸ mem, fun mem => ⟨_, mem, rfl⟩⟩

end VmUpdate

/-- The statement changes the record of the key, if there is one in an expected status, and says
so; otherwise it changes nothing. -/
theorem Store.execute_moving (s : Store) (key : Int) (expected : List VmStatus) (next : VmStatus)
    (patch : VmPatch) (now : Instant) :
    s.execute (VmUpdate.moving key expected next patch now).1
        (VmUpdate.moving key expected next patch now).2 =
      .ok (match s.vm? key with
        | none => (0, s)
        | some vm =>
          if vm.status ∈ expected then (1, s.setVm key fun _ => vm.moved next patch now)
          else (0, s)) := by
  have count := VmUpdate.length_places (VmUpdate.settings next patch now)
    (.cell (.integer key)) (expected.map fun status => .cell (.text status.text))
  rw [List.length_map] at count
  rw [VmUpdate.moving_eq, execute, if_neg (not_not_intro count), VmUpdate.key?_places,
    VmUpdate.words_places, VmUpdate.filterMap_text?]
  simp only [Argument.integer?, Cell.integer?, Option.bind_some]
  cases found : s.vm? key with
  | none => rfl
  | some vm =>
    have own : vm.key = key := by simpa using List.find?_some found
    simp only [VmUpdate.contains_text, VmUpdate.write?_places, VmUpdate.foldlM_settings, own]
    split <;> rfl

end VmFleet
