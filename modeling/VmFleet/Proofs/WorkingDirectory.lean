/-
A setup of the tool is checked from the directory of the fleet, and the tool is
launched in the deploy directory with the same paths. Where these lead then: an
absolute path leads where it was checked, and a relative one is taken through the
deploy directory a second time.
-/
import VmFleet.Files.Tree
import VmFleet.Proofs.TaskRecords
import VmFleet.Provision.Runner
import Mathlib.Data.List.Basic

namespace VmFleet

namespace Path

variable {base p : String} {x y : FilePath}

/-! ## The names of a path -/

theorem ofText_append (a b : String) : ofText (a ++ b) = ofText a ++ ofText b := by
  simp [ofText]

theorem ofText_slash : ofText "/" = [slash] := by
  decide

/-- The byte of a slash starts no other character. -/
theorem head?_utf8EncodeChar {c : Char} :
    (String.utf8EncodeChar c).head? = some slash ↔ c = '/' := by
  constructor
  · intro h
    have byte : ∀ {n : Nat}, some (UInt8.ofNat n) = some slash → n % 256 = 47 := by
      intro n same
      simpa [slash] using congrArg UInt8.toNat (Option.some.inj same)
    have code : c.toNat = 47 := by
      simp only [String.utf8EncodeChar] at h
      split at h
      · have low := byte h
        show c.val.toNat = 47
        omega
      -- The first byte of a longer character is 192 or more.
      split at h
      · have low := byte h
        omega
      split at h
      · have low := byte h
        omega
      · have low := byte h
        omega
    rw [← Char.ofNat_toNat c, code]
  · rintro rfl
    decide

theorem isAbsolute_iff : isAbsolute p = true ↔ ∃ rest, p.toList = '/' :: rest := by
  rw [isAbsolute, String.startsWith_string_iff]
  exact ⟨fun ⟨rest, h⟩ => ⟨rest, h.symm⟩, fun ⟨rest, h⟩ => ⟨rest, h.symm⟩⟩

theorem head?_ofText : (ofText p).head? = some slash ↔ isAbsolute p = true := by
  rw [isAbsolute_iff, ofText]
  cases p.toList with
  | nil => simp
  | cons c rest =>
    obtain ⟨b, more, bytes⟩ := List.exists_cons_of_ne_nil (String.utf8EncodeChar_ne_nil (c := c))
    have first := head?_utf8EncodeChar (c := c)
    rw [bytes, List.head?_cons] at first
    rw [List.flatMap_cons, bytes, List.cons_append, List.head?_cons, first]
    constructor
    · rintro rfl
      exact ⟨rest, rfl⟩
    · rintro ⟨_, same⟩
      exact (List.cons.inj same).1

theorem names_ne_nil (x : FilePath) : names x ≠ [] := by
  cases x with
  | nil => exact List.cons_ne_nil _ _
  | cons b x =>
    simp only [names, List.foldr_cons]
    split
    · exact List.cons_ne_nil _ _
    · split <;> exact List.cons_ne_nil _ _

theorem names_cons_of_ne {b : UInt8} {name : FileName} {rest : List FileName} (h : b ≠ slash)
    (first : names x = name :: rest) : names (b :: x) = (b :: name) :: rest := by
  simp only [names, List.foldr_cons] at first ⊢
  rw [if_neg h, first]

theorem names_append_slash (x y : FilePath) : names (x ++ slash :: y) = names x ++ names y := by
  induction x with
  | nil => rfl
  | cons b x ih =>
    by_cases same : b = slash
    · subst same
      exact congrArg ([] :: ·) ih
    · obtain ⟨name, rest, first⟩ := List.exists_cons_of_ne_nil (names_ne_nil x)
      have longer : names (x ++ slash :: y) = name :: (rest ++ names y) := by
        rw [ih, first, List.cons_append]
      rw [List.cons_append, names_cons_of_ne same longer, names_cons_of_ne same first,
        List.cons_append]

theorem isAbsolute_append (filled : base ≠ "") : isAbsolute (base ++ p) = isAbsolute base := by
  rw [Bool.eq_iff_iff, isAbsolute_iff, isAbsolute_iff, String.toList_append]
  obtain ⟨c, rest, chars⟩ : ∃ c rest, base.toList = c :: rest :=
    List.exists_cons_of_ne_nil fun none => filled (String.toList_eq_nil_iff.mp none)
  simp only [chars, List.cons_append, List.cons.injEq, exists_and_left, exists_eq', and_true]

/-- An absolute path stands for itself. Another one follows its base, after a slash if the base does
not end with one. -/
theorem join_cases (p : String) (filled : base ≠ "") :
    isAbsolute p = true ∧ join base p = p ∨
      isAbsolute p = false ∧
        ((∃ front, base = front ++ "/" ∧ join base p = base ++ p) ∨
          join base p = base ++ "/" ++ p) := by
  have nonempty : base.isEmpty = false := by
    rw [Bool.eq_false_iff, ne_eq, String.isEmpty_iff]
    exact filled
  rw [join, nonempty, Bool.or_false]
  split
  · next absolute => exact .inl ⟨absolute, rfl⟩
  next relative =>
  refine .inr ⟨eq_false_of_ne_true relative, ?_⟩
  split
  · next ends =>
    have ends : base.toSlice.endsWith "/" = true := ends
    rw [String.Slice.endsWith_string_iff, String.copy_toSlice] at ends
    obtain ⟨front, split⟩ := ends
    refine .inl ⟨String.ofList front, ?_, rfl⟩
    rw [← String.toList_inj, String.toList_append, String.toList_ofList, split]
  · exact .inr rfl

theorem isAbsolute_join (filled : base ≠ "") :
    isAbsolute (join base p) = (isAbsolute p || isAbsolute base) := by
  rcases join_cases p filled with ⟨absolute, joined⟩ | ⟨relative, ⟨_, -, joined⟩ | joined⟩
  · rw [joined, absolute, Bool.true_or]
  · rw [joined, relative, Bool.false_or, isAbsolute_append filled]
  · rw [joined, relative, Bool.false_or, String.append_assoc, isAbsolute_append filled]

/-- A base that ends with a slash has an empty last name, and one that does not gets a slash. -/
theorem names_join (relative : isAbsolute p = false) (filled : base ≠ "") :
    names (ofText (join base p)) = names (ofText base) ++ names (ofText p) ∨
      ∃ front, names (ofText base) = front ++ [[]] ∧
        names (ofText (join base p)) = front ++ names (ofText p) := by
  rcases join_cases p filled with ⟨absolute, -⟩ | ⟨-, ⟨front, rfl, joined⟩ | joined⟩
  · cases relative.symm.trans absolute
  · refine .inr ⟨names (ofText front), ?_, ?_⟩
    · rw [ofText_append, ofText_slash, names_append_slash]
      rfl
    · rw [joined, ofText_append, ofText_append, ofText_slash, List.append_assoc,
        List.singleton_append, names_append_slash]
  · rw [joined, ofText_append, ofText_append, ofText_slash, List.append_assoc,
      List.singleton_append, names_append_slash]
    exact .inl rfl

end Path

namespace FileTree

variable {t : FileTree} {here dir place start : Place} {name : FileName} {base p : String}
  {path : FilePath}

/-! ## Ways through a tree -/

theorem step_ok (h : t.step start name = .ok place) :
    place = start ∧ (name = [] ∨ name = dot) ∨ name = dots ∧ place = start.dropLast ∨
      (name ≠ [] ∧ name ≠ dot ∧ name ≠ dots) ∧ place = start ++ [name] := by
  simp only [step] at h
  split at h
  · cases h
  · cases h
  split at h
  · next stays =>
    cases h
    rw [Bool.or_eq_true, List.isEmpty_iff, beq_iff_eq] at stays
    exact .inl ⟨rfl, stays⟩
  next goes =>
  rw [Bool.or_eq_true, List.isEmpty_iff, beq_iff_eq, not_or] at goes
  split at h
  · next up =>
    cases h
    exact .inr (.inl ⟨beq_iff_eq.mp up, rfl⟩)
  next down =>
  split at h
  · cases h
  · cases h
    exact .inr (.inr ⟨⟨goes.1, goes.2, fun same => down (beq_iff_eq.mpr same)⟩, rfl⟩)

theorem step_empty_names (names : List FileName) (filled : names ≠ []) :
    (t.step start [] >>= fun next => names.foldlM t.step next) = names.foldlM t.step start := by
  obtain ⟨name, rest, rfl⟩ := List.exists_cons_of_ne_nil filled
  cases stands : t.kindAt start with
  | none =>
    have stuck : ∀ name, t.step start name = .error .missing := fun _ => by simp only [step, stands]
    rw [List.foldlM_cons, stuck, stuck]
    rfl
  | some kind =>
    cases kind with
    | file =>
      have stuck : ∀ name, t.step start name = .error .notDirectory := fun _ => by
        simp only [step, stands]
      rw [List.foldlM_cons, stuck, stuck]
      rfl
    | directory =>
      have stays : t.step start [] = .ok start := by
        simp only [step, stands]
        rfl
      rw [stays]
      rfl

/-- A relative path joined to a base is walked after it. -/
theorem walk_names_join (relative : Path.isAbsolute p = false) (filled : base ≠ "") :
    (Path.names (Path.ofText (Path.join base p))).foldlM t.step start =
      (Path.names (Path.ofText base)).foldlM t.step start >>= fun dir =>
        (Path.names (Path.ofText p)).foldlM t.step dir := by
  rcases Path.names_join relative filled with joined | ⟨front, ending, joined⟩
  · rw [joined, List.foldlM_append]
  · rw [joined, ending, List.foldlM_append, List.foldlM_append, bind_assoc]
    congr 1
    funext dir
    rw [List.foldlM_cons, bind_assoc]
    simp only [List.foldlM_nil, pure_bind]
    rw [step_empty_names _ (Path.names_ne_nil _)]

theorem walk_absolute (h : Path.isAbsolute p = true) (here here' : Place) :
    t.walk here (Path.ofText p) = t.walk here' (Path.ofText p) := by
  simp only [walk, origin, Path.head?_ofText.mpr h, if_true]

theorem walk_of_ok (h : t.walk here path = .ok place) (here' : Place) :
    t.walk here' path = (Path.names path).foldlM t.step (origin here' path) := by
  simp only [walk] at h ⊢
  split at h
  · cases h
  next whole =>
  split at h
  · cases h
  next filled =>
  split at h
  · cases h
  next short =>
  rw [if_neg whole, if_neg filled, if_neg short]

theorem walk_relative (h : t.walk here (Path.ofText p) = .ok place)
    (relative : Path.isAbsolute p = false) (here' : Place) :
    t.walk here' (Path.ofText p) = (Path.names (Path.ofText p)).foldlM t.step here' := by
  rw [walk_of_ok h, origin, if_neg]
  rw [Path.head?_ofText, relative]
  exact Bool.false_ne_true

/-- A relative path in a relative base leads on from where the base leads. -/
theorem walk_join (found : t.walk here (Path.ofText (Path.join base p)) = .ok place)
    (walked : t.walk here (Path.ofText base) = .ok dir) (filled : base ≠ "")
    (relative : Path.isAbsolute base = false) (inside : Path.isAbsolute p = false) (start : Place) :
    t.walk start (Path.ofText (Path.join base p)) = t.walk start (Path.ofText base) >>= fun dir =>
      (Path.names (Path.ofText p)).foldlM t.step dir := by
  have joined : Path.isAbsolute (Path.join base p) = false := by
    rw [Path.isAbsolute_join filled, inside, relative, Bool.false_or]
  rw [walk_relative found joined, walk_relative walked relative, walk_names_join inside filled]

theorem find_eq_some {kind : FileKind} (h : t.find here p = some kind) :
    ∃ place, t.walk here (Path.ofText p) = .ok place ∧ t.kindAt place = some kind := by
  simp only [find, reached] at h
  cases walked : t.walk here (Path.ofText p) with
  | error e => simp [walked, Except.toOption] at h
  | ok place => exact ⟨place, rfl, by simpa [walked, Except.toOption] using h⟩

/-- Walked again from the place it leads to, the path leads to that place. -/
def LeadsBack (t : FileTree) (here : Place) (p : String) : Prop :=
  ∃ dir, t.walk here (Path.ofText p) = .ok dir ∧ t.walk dir (Path.ofText p) = .ok dir

/-- A way that never goes up leads down by its names, but for those of the directory itself. -/
theorem foldlM_step_down {names : List FileName} (down : dots ∉ names)
    (h : names.foldlM t.step start = .ok place) :
    place = start ++ names.filter fun name => !(name.isEmpty || name == dot) := by
  induction names generalizing start with
  | nil =>
    cases h
    exact (List.append_nil _).symm
  | cons name names ih =>
    rw [List.foldlM_cons] at h
    obtain ⟨next, stepped, rest⟩ := bind_ok h
    rw [List.mem_cons, not_or] at down
    rw [ih down.2 rest]
    rcases step_ok stepped with ⟨rfl, stays⟩ | ⟨up, -⟩ | ⟨⟨filled, other, -⟩, rfl⟩
    · rw [List.filter_cons_of_neg]
      rcases stays with rfl | rfl <;> decide
    · exact absurd up.symm down.1
    · rw [List.filter_cons_of_pos, List.append_assoc, List.singleton_append]
      simpa using ⟨filled, other⟩

/-- A relative way that never goes up leads back if it goes nowhere. -/
theorem leadsBack_iff_of_down (walked : t.walk here (Path.ofText p) = .ok dir)
    (relative : Path.isAbsolute p = false) (down : dots ∉ Path.names (Path.ofText p)) :
    t.LeadsBack here p ↔ ∀ name ∈ Path.names (Path.ofText p), name = [] ∨ name = dot := by
  have route := walk_relative walked relative
  have goes : dir = here ++ (Path.names (Path.ofText p)).filter fun name =>
      !(name.isEmpty || name == dot) := foldlM_step_down down (route here ▸ walked)
  have stays : ((Path.names (Path.ofText p)).filter fun name =>
      !(name.isEmpty || name == dot)) = [] ↔ ∀ name ∈ Path.names (Path.ofText p), name = [] ∨ name = dot := by
    simp [List.filter_eq_nil_iff, or_iff_not_imp_left]
  rw [← stays]
  constructor
  · rintro ⟨dir', walked', again⟩
    obtain rfl : dir = dir' := Except.ok.inj (walked.symm.trans walked')
    have further := foldlM_step_down down (route dir ▸ again)
    exact List.self_eq_append_right.mp further
  · intro nowhere
    rw [nowhere, List.append_nil] at goes
    exact ⟨dir, walked, goes ▸ walked⟩

end FileTree

/-! ## What a launched tool finds -/

namespace Launch

/-- Where the tool finds a path that it is handed. It runs in the directory of the launch, and that
is found from the directory `here` of the fleet. -/
def leadsTo (l : Launch) (t : FileTree) (here : Place) (path : String) :
    Except FileFault Place := do
  let dir ← t.walk here (Path.ofText l.directory)
  t.walk dir (Path.ofText path)

/-- The tool finds at the path what the fleet finds there. -/
def Keeps (l : Launch) (t : FileTree) (here : Place) (path : String) : Prop :=
  ∃ place, t.walk here (Path.ofText path) = .ok place ∧ l.leadsTo t here path = .ok place

end Launch

namespace Runner

/-- The paths that the tool is handed for an action: the inventory and the playbook. -/
def handed (c : ToolConfig) (action : Action) : List String :=
  [inventoryPath c, playbookPath c.deployPath action]

variable {t : FileTree} {here dir : Place} {files : FileLookup} {c : ToolConfig} {r : Runner}
  {action : Action} {request : ProvisionRequest} {l : Launch} {path : String}

theorem playbookPath_mem (deployPath : String) (a : Action) :
    playbookPath deployPath a ∈ Action.all.map (playbookPath deployPath) :=
  List.mem_map_of_mem (by cases a <;> decide)

theorem new_ok (h : Runner.new files c = .ok r) : files c.deployPath = some .directory ∧
    (∀ a, files (playbookPath c.deployPath a) = some .file) ∧
    (∃ kind, files (inventoryPath c) = some kind) ∧
    r = ⟨c.program, c.deployPath, inventoryPath c, c.timeout⟩ := by
  simp only [new] at h
  split at h
  · cases h
  next sound =>
  cases h
  simp only [fault?] at sound
  split at sound
  · cases sound
  next deploy =>
  split at sound
  · cases sound
  next playbooks =>
  split at sound
  · cases sound
  next inventory =>
  refine ⟨by simpa using deploy, fun a => ?_, Option.ne_none_iff_exists'.mp inventory, rfl⟩
  simpa using List.find?_eq_none.mp playbooks _ (playbookPath_mem c.deployPath a)

theorem names_playbook (a : Action) : Path.names (Path.ofText a.playbook) =
    [Path.ofText a.playbook] ∧ Path.isAbsolute a.playbook = false ∧
    Path.ofText a.playbook ≠ [] ∧ Path.ofText a.playbook ≠ FileTree.dot ∧
    Path.ofText a.playbook ≠ FileTree.dots := by
  cases a <;> decide +kernel

theorem step_playbook {place : Place}
    (h : t.step dir (Path.ofText action.playbook) = .ok place) :
    place = dir ++ [Path.ofText action.playbook] := by
  obtain ⟨-, -, filled, notDot, notDots⟩ := names_playbook action
  rcases FileTree.step_ok h with ⟨-, none | dot⟩ | ⟨dots, -⟩ | ⟨-, down⟩
  · exact absurd none filled
  · exact absurd dot notDot
  · exact absurd dots notDots
  · exact down

theorem leadsTo_eq (walked : t.walk here (Path.ofText l.directory) = .ok dir) :
    l.leadsTo t here path = t.walk dir (Path.ofText path) := by
  simp only [Launch.leadsTo, walked]
  rfl

theorem keeps_of_absolute (walked : t.walk here (Path.ofText l.directory) = .ok dir)
    {kind : FileKind} (found : t.find here path = some kind) (h : Path.isAbsolute path = true) :
    l.Keeps t here path := by
  obtain ⟨place, reached, -⟩ := FileTree.find_eq_some found
  exact ⟨place, reached, by rw [leadsTo_eq walked, FileTree.walk_absolute h dir here, reached]⟩

/-- A runner's deploy path leads somewhere, which an empty path does not. -/
theorem new_walked (h : Runner.new (t.find here) c = .ok r) :
    ∃ dir, t.walk here (Path.ofText c.deployPath) = .ok dir ∧ c.deployPath ≠ "" := by
  obtain ⟨deploy, -⟩ := new_ok h
  obtain ⟨dir, walked, -⟩ := FileTree.find_eq_some deploy
  refine ⟨dir, walked, fun empty => ?_⟩
  rw [empty] at walked
  cases walked

theorem launch_directory (h : Runner.new files c = .ok r) (action : Action)
    (request : ProvisionRequest) : (r.launch action request).directory = c.deployPath := by
  obtain ⟨-, -, -, rfl⟩ := new_ok h
  rfl

theorem launch_handed (h : Runner.new files c = .ok r) :
    (r.launch action request).args.take 3 = "-i" :: handed c action := by
  obtain ⟨-, -, -, rfl⟩ := new_ok h
  rfl

theorem handed_found (h : Runner.new files c = .ok r) (member : path ∈ handed c action) :
    path ∈ checkedPaths c ∧ ∃ kind, files path = some kind := by
  obtain ⟨-, playbooks, inventory, -⟩ := new_ok h
  simp only [handed, List.mem_cons, List.not_mem_nil, or_false] at member
  rcases member with rfl | rfl
  · exact ⟨List.mem_append_right _ (List.mem_singleton.mpr rfl), inventory⟩
  · have checked := List.mem_cons_of_mem c.deployPath (playbookPath_mem c.deployPath action)
    exact ⟨List.mem_append_left _ checked, _, playbooks action⟩

/-- Where the deploy path leads back, so do the paths in it. -/
theorem keeps_of_leadsBack (h : Runner.new (t.find here) c = .ok r)
    (relative : Path.isAbsolute c.deployPath = false) (back : t.LeadsBack here c.deployPath)
    {kind : FileKind} (found : t.find here (Path.join c.deployPath path) = some kind) :
    (r.launch action request).Keeps t here (Path.join c.deployPath path) := by
  obtain ⟨dir, walked, filled⟩ := new_walked h
  have directory := launch_directory h action request
  by_cases inside : Path.isAbsolute path = true
  · refine keeps_of_absolute (directory ▸ walked) found ?_
    rw [Path.isAbsolute_join filled, inside, Bool.true_or]
  obtain ⟨dir', walked', again⟩ := back
  obtain rfl : dir = dir' := Except.ok.inj (walked.symm.trans walked')
  obtain ⟨place, found, -⟩ := FileTree.find_eq_some found
  have way := FileTree.walk_join found walked filled relative (eq_false_of_ne_true inside)
  refine ⟨place, found, ?_⟩
  rw [leadsTo_eq (directory ▸ walked), way, again]
  rwa [way, walked] at found

/-- The tool finds the playbook that was checked only where the deploy path leads back. -/
theorem leadsBack_of_keeps (h : Runner.new (t.find here) c = .ok r)
    (relative : Path.isAbsolute c.deployPath = false)
    (keeps : (r.launch action request).Keeps t here (playbookPath c.deployPath action)) :
    t.LeadsBack here c.deployPath := by
  obtain ⟨dir, walked, filled⟩ := new_walked h
  have directory := launch_directory h action request
  obtain ⟨single, inside, -⟩ := names_playbook action
  obtain ⟨place, found, led⟩ := keeps
  -- The playbook is one step below where the deploy path leads.
  have way := FileTree.walk_join found walked filled relative inside
  rw [single] at way
  simp only [List.foldlM_cons, List.foldlM_nil, bind_pure] at way
  rw [leadsTo_eq (directory ▸ walked), playbookPath, way] at led
  rw [playbookPath, way, walked] at found
  obtain ⟨dir', again, below⟩ := bind_ok led
  have same := (step_playbook below).symm.trans (step_playbook found)
  rw [List.append_cancel_right same] at again
  exact ⟨dir, walked, again⟩

/-- **The tool is handed paths that were checked, and finds the checked files at them exactly if the
deploy path is absolute or leads back from the deploy directory to itself.** An absolute inventory
is found whatever the deploy path is. A relative deploy path that never goes up leads back only if
it goes nowhere. -/
theorem checked_files_found_iff (h : Runner.new (t.find here) c = .ok r) (action : Action)
    (request : ProvisionRequest) :
    (r.launch action request).args.take 3 = "-i" :: handed c action ∧
      (∀ path ∈ handed c action, path ∈ checkedPaths c ∧ ∃ kind, t.find here path = some kind) ∧
      ((∀ path ∈ handed c action, (r.launch action request).Keeps t here path) ↔
        Path.isAbsolute c.deployPath = true ∨ t.LeadsBack here c.deployPath) ∧
      (Path.isAbsolute c.inventory = true →
        (r.launch action request).Keeps t here (inventoryPath c)) ∧
      (Path.isAbsolute c.deployPath = false →
        FileTree.dots ∉ Path.names (Path.ofText c.deployPath) →
        (t.LeadsBack here c.deployPath ↔
          ∀ name ∈ Path.names (Path.ofText c.deployPath), name = [] ∨ name = FileTree.dot)) := by
  obtain ⟨dir, walked, filled⟩ := new_walked h
  have directory := launch_directory h action request
  obtain ⟨-, playbooks, ⟨kind, inventory⟩, -⟩ := new_ok h
  have absolute : ∀ path, Path.isAbsolute path = true ∨ Path.isAbsolute c.deployPath = true →
      Path.isAbsolute (Path.join c.deployPath path) = true := by
    intro path either
    rwa [Path.isAbsolute_join filled, Bool.or_eq_true]
  refine ⟨launch_handed h, fun _ => handed_found h, ?_, fun alone => ?_,
    FileTree.leadsBack_iff_of_down walked⟩
  · simp only [handed, List.forall_mem_cons, List.not_mem_nil, false_imp_iff, implies_true, and_true]
    constructor
    · rintro ⟨-, keeps⟩
      by_cases rooted : Path.isAbsolute c.deployPath = true
      · exact .inl rooted
      · exact .inr (leadsBack_of_keeps h (eq_false_of_ne_true rooted) keeps)
    · intro either
      by_cases rooted : Path.isAbsolute c.deployPath = true
      · exact ⟨keeps_of_absolute (directory ▸ walked) inventory (absolute _ (.inr rooted)),
          keeps_of_absolute (directory ▸ walked) (playbooks action) (absolute _ (.inr rooted))⟩
      · have back := either.resolve_left rooted
        have relative := eq_false_of_ne_true rooted
        exact ⟨keeps_of_leadsBack h relative back inventory,
          keeps_of_leadsBack h relative back (playbooks action)⟩
  · exact keeps_of_absolute (directory ▸ walked) inventory (absolute _ (.inl alone))

/-- A deploy directory with another one in it, which has a playbook of its own. -/
def nestedDeploy : FileTree where
  files := (["create-vm.yml", "delete-vm.yml", "start-vm.yml", "stop-vm.yml", "inventory.ini"].map
    fun name => (["w", "deploy", name].map Path.ofText, .text "")) ++
      [(["w", "deploy", "deploy", "create-vm.yml"].map Path.ofText, .text "")]

/-- The directory of the fleet, above the deploy directory. -/
def aboveDeploy : Place := [Path.ofText "w"]

/-- By an absolute path the files of the outer directory are found. -/
theorem absoluteDeploy_found : ∃ r,
    Runner.new (nestedDeploy.find aboveDeploy) { deployPath := "/w/deploy" } = .ok r ∧
    ∀ path ∈ handed { deployPath := "/w/deploy" } .create,
      (r.launch .create default).Keeps nestedDeploy aboveDeploy path := by
  have made : Runner.new (nestedDeploy.find aboveDeploy) { deployPath := "/w/deploy" } =
      .ok ⟨"ansible-playbook", "/w/deploy", "/w/deploy/inventory.ini", .ofSeconds 120⟩ := by
    decide +kernel
  have found := (checked_files_found_iff made .create default).2.2.1
  exact ⟨_, made, found.mpr (.inl (by decide +kernel))⟩

/-- By the default path the tool runs the inner playbook, and it looks for the inventory where there
is none. -/
theorem defaultDeploy_missed : ∃ r, Runner.new (nestedDeploy.find aboveDeploy) {} = .ok r ∧
    ¬ (r.launch .create default).Keeps nestedDeploy aboveDeploy (playbookPath "deploy" .create) ∧
    (r.launch .create default).leadsTo nestedDeploy aboveDeploy (playbookPath "deploy" .create) =
      .ok (["w", "deploy", "deploy", "create-vm.yml"].map Path.ofText) ∧
    ¬ (r.launch .create default).Keeps nestedDeploy aboveDeploy (inventoryPath {}) ∧
    nestedDeploy.kindAt (["w", "deploy", "deploy", "inventory.ini"].map Path.ofText) = none := by
  let r : Runner := ⟨"ansible-playbook", "deploy", "deploy/inventory.ini", .ofSeconds 120⟩
  have made : Runner.new (nestedDeploy.find aboveDeploy) {} = .ok r := by
    decide +kernel
  have playbook : nestedDeploy.walk aboveDeploy (Path.ofText (playbookPath "deploy" .create)) =
      .ok (["w", "deploy", "create-vm.yml"].map Path.ofText) := by
    decide +kernel
  have inner : (r.launch .create default).leadsTo nestedDeploy aboveDeploy
      (playbookPath "deploy" .create) =
        .ok (["w", "deploy", "deploy", "create-vm.yml"].map Path.ofText) := by
    decide +kernel
  have inventory : nestedDeploy.walk aboveDeploy (Path.ofText (inventoryPath {})) =
      .ok (["w", "deploy", "inventory.ini"].map Path.ofText) := by
    decide +kernel
  have nowhere : (r.launch .create default).leadsTo nestedDeploy aboveDeploy (inventoryPath {}) =
      .ok (["w", "deploy", "deploy", "inventory.ini"].map Path.ofText) := by
    decide +kernel
  refine ⟨r, made, ?_, inner, ?_, by decide +kernel⟩
  · rintro ⟨place, found, led⟩
    rw [playbook] at found
    rw [inner, ← found] at led
    exact absurd led (by decide +kernel)
  · rintro ⟨place, found, led⟩
    rw [inventory] at found
    rw [nowhere, ← found] at led
    exact absurd led (by decide +kernel)

end Runner

end VmFleet
