/-
What a step learned about its VM: texts under keys, in key order and each key
once. Writing a key again replaces its value.
-/
import VmFleet.Json.Record

namespace VmFleet

/-- Keys ascend strictly. -/
def KeysAscend : List (String × String) → Prop
  | [] => True
  | [_] => True
  | a :: b :: rest => a.1 < b.1 ∧ KeysAscend (b :: rest)

structure Facts where
  entries : List (String × String)
  ascend : KeysAscend entries
  deriving DecidableEq

namespace Facts

def insertEntry (key value : String) : List (String × String) → List (String × String)
  | [] => [(key, value)]
  | (k, v) :: rest =>
    if key < k then (key, value) :: (k, v) :: rest
    else if key = k then (key, value) :: rest
    else (k, v) :: insertEntry key value rest

theorem ascend_tail {a : String × String} {rest : List (String × String)}
    (h : KeysAscend (a :: rest)) : KeysAscend rest := by
  cases rest with
  | nil => trivial
  | cons b rest => exact h.2

/-- The first key after an insertion is the inserted one or the first of before. -/
theorem ascend_cons_insertEntry {a : String × String} {key value : String}
    {rest : List (String × String)} (ha : a.1 < key) (h : KeysAscend (a :: rest))
    (hi : KeysAscend (insertEntry key value rest)) :
    KeysAscend (a :: insertEntry key value rest) := by
  cases rest with
  | nil => exact ⟨ha, trivial⟩
  | cons b rest =>
    unfold insertEntry at hi ⊢
    split
    · rename_i hlt; rw [if_pos hlt] at hi; exact ⟨ha, hi⟩
    · rename_i hlt
      rw [if_neg hlt] at hi
      split
      · rename_i heq; rw [if_pos heq] at hi; exact ⟨ha, hi⟩
      · rename_i heq; rw [if_neg heq] at hi; exact ⟨h.1, hi⟩

theorem lt_of_not_lt_of_ne {a b : String} (h : ¬a < b) (hne : a ≠ b) : b < a := by
  rcases Decidable.em (b < a) with h' | h'
  · exact h'
  · exact absurd (String.le_antisymm (String.not_lt.1 h') (String.not_lt.1 h)) hne

theorem ascend_insertEntry (key value : String) {entries : List (String × String)}
    (h : KeysAscend entries) : KeysAscend (insertEntry key value entries) := by
  induction entries with
  | nil => trivial
  | cons a rest ih =>
    unfold insertEntry
    split
    · rename_i hlt; exact ⟨hlt, h⟩
    · rename_i hlt
      split
      · rename_i heq
        subst heq
        cases rest with
        | nil => trivial
        | cons b rest => exact ⟨h.1, h.2⟩
      · rename_i heq
        exact ascend_cons_insertEntry (lt_of_not_lt_of_ne hlt heq) h (ih (ascend_tail h))

def empty : Facts := ⟨[], trivial⟩

instance : Inhabited Facts := ⟨empty⟩

def insert (f : Facts) (key value : String) : Facts :=
  ⟨insertEntry key value f.entries, ascend_insertEntry key value f.ascend⟩

def get? (f : Facts) (key : String) : Option String :=
  f.entries.lookup key

def isEmpty (f : Facts) : Bool :=
  f.entries.isEmpty

def ofList (pairs : List (String × String)) : Facts :=
  pairs.foldl (fun f (k, v) => f.insert k v) empty

def toJson (f : Facts) : Json :=
  .object (f.entries.map fun (k, v) => (k, .str v))

/-- Reads an object of texts; of a repeated key the last value stays. -/
def ofJson? : Json → Option Facts
  | .obj members => do
    let pairs ← members.mapM fun
      | (some k, .str v) => some (k, v)
      | _ => none
    some (ofList pairs)
  | _ => none

end Facts

end VmFleet
