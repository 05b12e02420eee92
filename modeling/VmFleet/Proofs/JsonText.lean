/-
JSON values written and read back. The compact text of a value is its words one
after the other; the reader finds the same words and builds the same value, as
long as the value holds nothing that has no text of its own. Whatever a value
holds, its text has no control characters, so it stays on one line.
-/
import VmFleet.Json.Reader
import VmFleet.Json.Writer
import VmFleet.Proofs.AddressText

namespace VmFleet.Json

variable {c : Char} {cs rest : List Char} {t : Token} {ts : List Token} {inside : List Frame}

/-! ## Values as words -/

mutual

/-- The value holds no number but whole ones, and no text or key without characters. -/
def Plain : Json → Prop
  | .null => True
  | .bool _ => True
  | .int _ => True
  | .real => False
  | .str _ => True
  | .brokenStr => False
  | .arr items => PlainItems items
  | .obj members => PlainMembers members

def PlainItems : List Json → Prop
  | [] => True
  | v :: rest => Plain v ∧ PlainItems rest

def PlainMembers : List (Option String × Json) → Prop
  | [] => True
  | (k, v) :: rest => k.isSome ∧ Plain v ∧ PlainMembers rest

end

mutual

/-- The words of the value's text. -/
def tokens : Json → List Token
  | .null => [.null]
  | .bool b => [.bool b]
  | .int n => [.int n]
  | .real => [.real]
  | .str s => [.str (some s)]
  | .brokenStr => [.str none]
  | .arr items => .openArr :: itemTokens true items ++ [.closeArr]
  | .obj members => .openObj :: memberTokens true members ++ [.closeObj]

def itemTokens (first : Bool) : List Json → List Token
  | [] => []
  | v :: rest => (if first then [] else [.comma]) ++ tokens v ++ itemTokens false rest

def memberTokens (first : Bool) : List (Option String × Json) → List Token
  | [] => []
  | (k, v) :: rest =>
    (if first then [] else [.comma]) ++ .str k :: .colon :: tokens v ++ memberTokens false rest

end

/-! ## Words read -/

namespace Token

theorem lexFrom?_mono {turns more : Nat} (h : lexFrom? turns cs = some ts) (le : turns ≤ more) :
    lexFrom? more cs = some ts := by
  induction turns generalizing more cs ts with
  | zero => cases h
  | succ turns ih =>
    obtain ⟨more, rfl⟩ : ∃ m, more = m + 1 := ⟨more - 1, by omega⟩
    rw [lexFrom?] at h ⊢
    split at h
    · next blank => exact h
    · next c cs word =>
      obtain ⟨⟨t, rest⟩, first, h⟩ := Option.bind_eq_some_iff.mp h
      obtain ⟨tail, read, same⟩ := Option.bind_eq_some_iff.mp h
      have le : turns ≤ more := Nat.le_of_succ_le_succ le
      simp only [first, ih read le, Option.bind_eq_bind, Option.bind_some]
      exact same

/-- A word that is read stands before the words of the rest. -/
theorem lex?_append (word : List Char) (next : next? (c :: word ++ rest) = some (t, rest))
    (start : isGap c = false) (h : lex? rest = some ts) :
    lex? (c :: word ++ rest) = some (t :: ts) := by
  have gap : (c :: (word ++ rest)).dropWhile isGap = c :: (word ++ rest) := by
    rw [List.dropWhile_cons, start]
    rfl
  have more : lexFrom? (c :: (word ++ rest)).length rest = some ts :=
    lexFrom?_mono h (by simp only [List.length_cons, List.length_append]; omega)
  rw [List.cons_append] at next ⊢
  simp only [lex?, lexFrom?, gap, next, more, Option.bind_eq_bind, Option.bind_some]

theorem lex?_nil : lex? [] = some [] := rfl

/-! ### Texts -/

theorem hexValue?_hexChar : ∀ d : Fin 16, hexValue? (hexChar d) = some d.val := by
  decide

theorem pieces?_escape {e : Char} (h : escaped? c = some e) :
    pieces? ('\\' :: c :: cs) = (pieces? cs).map fun (ps, rest) => (.char e :: ps, rest) := by
  have short : c ≠ 'u' := by
    rintro rfl
    cases h
  rw [pieces?, h]
  exact fun _ _ _ _ _ u => absurd u short

theorem pieces?_unit {a b : Nat} (ha : a < 16) (hb : b < 16) :
    pieces? ('\\' :: 'u' :: '0' :: '0' :: hexChar a :: hexChar b :: cs) =
      (pieces? cs).map fun (ps, rest) => (.unit (a * 16 + b) :: ps, rest) := by
  have zero : hexValue? '0' = some 0 := rfl
  rw [pieces?, zero, hexValue?_hexChar ⟨a, ha⟩, hexValue?_hexChar ⟨b, hb⟩]
  simp

theorem pieces?_plain (control : ¬ c.toNat < 0x20) (quote : c ≠ '"') (escape : c ≠ '\\') :
    pieces? (c :: cs) = (pieces? cs).map fun (ps, rest) => (.char c :: ps, rest) := by
  have stands : ¬ (decide (c.toNat < 0x20) || c == '\\') = true := by simp [control, escape]
  rw [pieces?.eq_def]
  split
  case h_5 => rw [if_neg (by simp_all)]; simp_all
  all_goals simp_all

/-- A unit below the surrogates is a character of its own. -/
theorem join?_unit {n : Nat} {ps : List Piece} (h : n < 0xD800) :
    join? (.unit n :: ps) = (join? ps).map (Char.ofNat n :: ·) := by
  have low : ¬ 0xD800 ≤ n := Nat.not_le_of_lt h
  cases ps with
  | nil => simp [join?, low]
  | cons p ps => cases p <;> simp [join?, low]

/-- However a character is written between quotes, it is read as the character. -/
theorem pieces?_escapeChar {ps : List Piece} {s : List Char} (c : Char)
    (read : pieces? cs = some (ps, rest)) (joined : join? ps = some s) :
    ∃ ps', pieces? (escapeChar c ++ cs) = some (ps', rest) ∧ join? ps' = some (c :: s) := by
  have char : join? (.char c :: ps) = some (c :: s) := by rw [join?, joined, Option.map_some]
  have escape : ∀ x, escaped? x = some c →
      pieces? (['\\', x] ++ cs) = some (.char c :: ps, rest) := by
    intro x h
    rw [List.cons_append, List.cons_append, List.nil_append, pieces?_escape h, read,
      Option.map_some]
  unfold escapeChar
  split
  · next h => exact ⟨_, escape '"' (by subst h; rfl), char⟩
  split
  · next h => exact ⟨_, escape '\\' (by subst h; rfl), char⟩
  split
  · next h => exact ⟨_, escape 'n' (by subst h; rfl), char⟩
  split
  · next h => exact ⟨_, escape 'r' (by subst h; rfl), char⟩
  split
  · next h => exact ⟨_, escape 't' (by subst h; rfl), char⟩
  split
  · next h => exact ⟨_, escape 'b' (by subst h; rfl), char⟩
  split
  · next h => exact ⟨_, escape 'f' (by subst h; rfl), char⟩
  split
  · next control =>
    have code : c.toNat / 16 * 16 + c.toNat % 16 = c.toNat := by omega
    refine ⟨.unit c.toNat :: ps, ?_, ?_⟩
    · simp only [List.cons_append, List.nil_append]
      rw [pieces?_unit (by omega) (by omega), read, Option.map_some, code]
    · rw [join?_unit (by omega), joined, Option.map_some, Char.ofNat_toNat]
  · next quote escape _ _ _ _ _ control =>
    exact ⟨_, by rw [List.cons_append, List.nil_append, pieces?_plain control quote escape, read,
      Option.map_some], char⟩

theorem pieces?_string (s : List Char) (rest : List Char) :
    ∃ ps, pieces? (s.flatMap escapeChar ++ '"' :: rest) = some (ps, rest) ∧ join? ps = some s := by
  induction s with
  | nil => exact ⟨[], by rw [List.flatMap_nil, List.nil_append, pieces?], rfl⟩
  | cons c s ih =>
    obtain ⟨ps, read, joined⟩ := ih
    rw [List.flatMap_cons, List.append_assoc]
    exact pieces?_escapeChar c read joined

theorem lex?_strChars (s : String) (h : lex? rest = some ts) :
    lex? (strChars s ++ rest) = some (.str (some s) :: ts) := by
  obtain ⟨ps, read, joined⟩ := pieces?_string s.toList rest
  have next : next? ('"' :: (s.toList.flatMap escapeChar ++ ['"']) ++ rest) =
      some (.str (some s), rest) := by
    rw [List.cons_append, List.append_assoc, List.singleton_append, next?, read, Option.map_some]
    simp only [joined, Option.map_some, String.ofList_toList]
  exact lex?_append _ next rfl h

/-! ### Numbers -/

/-- The text does not go on with what a number could have at its end. -/
def Stops (rest : List Char) : Prop :=
  ∀ c ∈ rest.head?, c.isDigit = false ∧ c ≠ '.' ∧ c ≠ 'e' ∧ c ≠ 'E'

theorem fraction?_stops (h : Stops rest) : fraction? rest = some (false, rest) := by
  cases rest with
  | nil => rfl
  | cons c rest =>
    obtain ⟨-, point, -⟩ := h c rfl
    rw [fraction?.eq_def]
    split <;> simp_all

theorem exponent?_stops (h : Stops rest) : exponent? rest = some (false, rest) := by
  cases rest with
  | nil => rfl
  | cons c rest =>
    obtain ⟨-, -, small, large⟩ := h c rfl
    simp [exponent?, small, large]

/-- A number that starts with no zero but its only one is read up to where it stops. -/
theorem number?_decimal (negative : Bool) {n : Nat} (h : Stops rest) (zero : negative → n ≠ 0) :
    number? negative (Text.decimal n ++ rest) =
      some (.int (if negative then -(n : Int) else n), rest) := by
  have span : Text.spanDigits (Text.decimal n ++ rest).length (Text.decimal n ++ rest) =
      (Text.decimal n, rest) :=
    Text.spanDigits_append (fun _ hc => Text.isDigit_of_mem_decimal hc) (by simp)
      fun c hc => (h c hc).1
  have leading : ((Text.decimal n).length > 1 && (Text.decimal n).head? == some '0') = false := by
    cases digits : Text.decimal n with
    | nil => rfl
    | cons d ds =>
      by_cases first : d = '0'
      · subst first
        obtain ⟨-, rfl⟩ := Text.decimal_of_leading_zero digits
        rfl
      · simp [first]
  have signed : (negative && n == 0) = false := by
    cases negative with
    | false => rfl
    | true => simpa using zero rfl
  simp only [number?, span, leading, Text.decimal_ne_nil, fraction?_stops h, exponent?_stops h,
    Text.digitsValue_decimal, signed, List.isEmpty_iff, Bool.or_self, Bool.false_eq_true, if_false,
    Option.bind_eq_bind, Option.bind_some, Bool.or_false]

theorem next?_digit (h : c.isDigit = true) : next? (c :: cs) = number? false (c :: cs) := by
  rw [next?.eq_def]
  split <;> simp_all

theorem isGap_digit (h : c.isDigit = true) : isGap c = false := by
  rw [isGap]
  by_contra gap
  simp only [Bool.or_eq_true, beq_iff_eq, Bool.not_eq_false] at gap
  rcases gap with ((rfl | rfl) | rfl) | rfl <;> cases h

theorem lex?_intChars (n : Int) (stops : Stops rest) (h : lex? rest = some ts) :
    lex? (intChars n ++ rest) = some (.int n :: ts) := by
  rw [intChars]
  split
  · next negative =>
    have next : next? ('-' :: Text.decimal n.natAbs ++ rest) = some (.int n, rest) := by
      rw [List.cons_append, next?, number?_decimal true stops fun _ => by omega]
      simp only [if_true, Option.some.injEq, Prod.mk.injEq, Token.int.injEq, and_true]
      omega
    exact lex?_append _ next rfl h
  · next natural =>
    obtain ⟨d, ds, digits⟩ := List.exists_cons_of_ne_nil (Text.decimal_ne_nil n.toNat)
    have first : d.isDigit = true :=
      Text.isDigit_of_mem_decimal (n := n.toNat) (digits ▸ List.mem_cons_self)
    have read := number?_decimal false (n := n.toNat) stops (by simp)
    rw [digits] at read ⊢
    refine lex?_append ds ?_ (isGap_digit first) h
    rw [List.cons_append, next?_digit first, ← List.cons_append, read]
    simp only [Bool.false_eq_true, if_false, Option.some.injEq, Prod.mk.injEq, Token.int.injEq,
      and_true]
    omega

theorem Stops.of_head (h : c = ',' ∨ c = ']' ∨ c = '}') : Stops (c :: rest) := by
  intro d first
  cases first
  rcases h with rfl | rfl | rfl <;> decide

end Token

open Token

mutual

/-- The words of a value's text are the value's words. -/
theorem lex?_chars : ∀ (v : Json) (rest : List Char) (ts : List Token), v.Plain → Stops rest →
    lex? rest = some ts → lex? (v.chars ++ rest) = some (v.tokens ++ ts)
  | .null, rest, ts, _, _, h => lex?_append ['u', 'l', 'l'] rfl rfl h
  | .bool true, rest, ts, _, _, h => lex?_append ['r', 'u', 'e'] rfl rfl h
  | .bool false, rest, ts, _, _, h => lex?_append ['a', 'l', 's', 'e'] rfl rfl h
  | .int n, rest, ts, _, stops, h => lex?_intChars n stops h
  | .str s, rest, ts, _, _, h => lex?_strChars s h
  | .arr items, rest, ts, plain, _, h => by
    have inner := lex?_itemChars true items _ _ plain (.of_head (.inr (.inl rfl)))
      (lex?_append [] rfl rfl h)
    simp only [chars, tokens, List.cons_append, List.append_assoc, List.nil_append]
    exact lex?_append [] rfl rfl inner
  | .obj members, rest, ts, plain, _, h => by
    have inner := lex?_memberChars true members _ _ plain (.of_head (.inr (.inr rfl)))
      (lex?_append [] rfl rfl h)
    simp only [chars, tokens, List.cons_append, List.append_assoc, List.nil_append]
    exact lex?_append [] rfl rfl inner

theorem lex?_itemChars : ∀ (first : Bool) (items : List Json) (rest : List Char) (ts : List Token),
    PlainItems items → Stops rest → lex? rest = some ts →
    lex? (itemChars first items ++ rest) = some (itemTokens first items ++ ts)
  | _, [], rest, ts, _, _, h => h
  | first, v :: more, rest, ts, plain, stops, h => by
    have others := lex?_itemChars false more rest ts plain.2 stops h
    have stops : Stops (itemChars false more ++ rest) := by
      cases more with
      | nil => exact stops
      | cons => exact .of_head (.inl rfl)
    have value := lex?_chars v _ _ plain.1 stops others
    cases first with
    | true => simpa [itemChars, itemTokens] using value
    | false =>
      have next : lex? (',' :: (v.chars ++ (itemChars false more ++ rest))) =
          some (.comma :: (v.tokens ++ (itemTokens false more ++ ts))) :=
        lex?_append [] rfl rfl value
      simpa [itemChars, itemTokens] using next

theorem lex?_memberChars : ∀ (first : Bool) (members : List (Option String × Json))
    (rest : List Char) (ts : List Token), PlainMembers members → Stops rest →
    lex? rest = some ts →
    lex? (memberChars first members ++ rest) = some (memberTokens first members ++ ts)
  | _, [], rest, ts, _, _, h => h
  | first, (some k, v) :: more, rest, ts, plain, stops, h => by
    have others := lex?_memberChars false more rest ts plain.2.2 stops h
    have stops : Stops (memberChars false more ++ rest) := by
      cases more with
      | nil => exact stops
      | cons => exact .of_head (.inl rfl)
    have value := lex?_chars v _ _ plain.2.1 stops others
    have member : lex? (strChars k ++ ':' :: (v.chars ++ (memberChars false more ++ rest))) =
        some (.str (some k) :: .colon :: (v.tokens ++ (memberTokens false more ++ ts))) :=
      lex?_strChars k (lex?_append [] rfl rfl value)
    cases first with
    | true => simpa [memberChars, memberTokens] using member
    | false =>
      have next : lex? (',' :: (strChars k ++ ':' :: (v.chars ++
          (memberChars false more ++ rest)))) =
          some (.comma :: .str (some k) :: .colon :: (v.tokens ++
            (memberTokens false more ++ ts))) :=
        lex?_append [] rfl rfl member
      simpa [memberChars, memberTokens] using next

end

/-! ## Values built from words -/

open Reading

/-- Where the first item of an array may come, an item comes. -/
theorem foldlM_firstItem (v : Json) (inside : List Frame) (ts : List Token) :
    (v.tokens ++ ts).foldlM step? (.firstItem inside) =
      (v.tokens ++ ts).foldlM step? (.value (.item [] :: inside)) := by
  cases v <;> rfl

mutual

/-- The words of a value build the value. -/
theorem foldlM_tokens : ∀ (v : Json) (inside : List Frame) (ts : List Token), v.Plain →
    (v.tokens ++ ts).foldlM step? (.value inside) = ts.foldlM step? (.complete v inside)
  | .null, _, _, _ => rfl
  | .bool _, _, _, _ => rfl
  | .int _, _, _, _ => rfl
  | .str _, _, _, _ => rfl
  | .arr [], _, _, _ => rfl
  | .arr (v :: more), inside, ts, plain => by
    have first := foldlM_tokens v (.item [] :: inside) (itemTokens false more ++ .closeArr :: ts)
      plain.1
    have others := foldlM_itemTokens more v [] inside ts plain.2
    have words : (arr (v :: more)).tokens ++ ts =
        .openArr :: (v.tokens ++ (itemTokens false more ++ .closeArr :: ts)) := by
      simp [tokens, itemTokens]
    rw [← foldlM_firstItem, others] at first
    rw [words]
    exact first
  | .obj [], _, _, _ => rfl
  | .obj ((some k, v) :: more), inside, ts, plain => by
    have first := foldlM_tokens v (.member [] (some k) :: inside)
      (memberTokens false more ++ .closeObj :: ts) plain.2.1
    have others := foldlM_memberTokens more (some k) v [] inside ts plain.2.2
    have words : (obj ((some k, v) :: more)).tokens ++ ts = .openObj :: .str (some k) :: .colon ::
        (v.tokens ++ (memberTokens false more ++ .closeObj :: ts)) := by
      simp [tokens, memberTokens]
    rw [others] at first
    rw [words]
    exact first

theorem foldlM_itemTokens : ∀ (more : List Json) (v : Json) (done : List Json)
    (inside : List Frame) (ts : List Token), PlainItems more →
    (itemTokens false more ++ .closeArr :: ts).foldlM step? (.complete v (.item done :: inside)) =
      ts.foldlM step? (.complete (.arr (done.reverse ++ v :: more)) inside)
  | [], v, done, inside, ts, _ => by
    simp [itemTokens, step?]
  | w :: more, v, done, inside, ts, plain => by
    have next := foldlM_tokens w (.item (v :: done) :: inside)
      (itemTokens false more ++ .closeArr :: ts) plain.1
    have others := foldlM_itemTokens more w (v :: done) inside ts plain.2
    rw [others] at next
    simpa [itemTokens, step?] using next

theorem foldlM_memberTokens : ∀ (more : List (Option String × Json)) (k : Option String)
    (v : Json) (done : List (Option String × Json)) (inside : List Frame) (ts : List Token),
    PlainMembers more →
    (memberTokens false more ++ .closeObj :: ts).foldlM step?
        (.complete v (.member done k :: inside)) =
      ts.foldlM step? (.complete (.obj (done.reverse ++ (k, v) :: more)) inside)
  | [], k, v, done, inside, ts, _ => by
    simp [memberTokens, step?]
  | (l, w) :: more, k, v, done, inside, ts, plain => by
    have next := foldlM_tokens w (.member ((k, v) :: done) l :: inside)
      (memberTokens false more ++ .closeObj :: ts) plain.2.1
    have others := foldlM_memberTokens more l w ((k, v) :: done) inside ts plain.2.2
    rw [others] at next
    simpa [memberTokens, step?] using next

end

theorem ofTokens?_tokens {v : Json} (h : v.Plain) : ofTokens? v.tokens = some v := by
  have built := foldlM_tokens v [] [] h
  rw [List.append_nil] at built
  rw [ofTokens?, built]
  rfl

/-- A value is read back from its text. -/
theorem parse?_text {v : Json} (h : v.Plain) : parse? v.text = some v := by
  have words := lex?_chars v [] [] h (fun _ first => by cases first) lex?_nil
  rw [List.append_nil, List.append_nil] at words
  rw [parse?, text, String.toList_ofList, words, Option.bind_some, ofTokens?_tokens h]

/-! ## Texts on one line -/

/-- The character is none of the control characters that must be escaped. -/
def Printed (c : Char) : Prop := 0x20 ≤ c.toNat

instance (c : Char) : Decidable (Printed c) := inferInstanceAs (Decidable (0x20 ≤ c.toNat))

theorem printed_hexChar : ∀ d : Fin 16, 0x20 ≤ (hexChar d).toNat := by
  decide

theorem printed_of_isDigit (h : c.isDigit = true) : Printed c := by
  simp only [Char.isDigit, Bool.and_eq_true, decide_eq_true_eq] at h
  have lower : 48 ≤ c.toNat := UInt32.le_iff_toNat_le.mp h.1
  simp only [Printed]
  omega

theorem printed_escapeChar (c : Char) : ∀ x ∈ escapeChar c, Printed x := by
  have pair : ∀ x, Printed x → ∀ y ∈ ['\\', x], Printed y := by
    intro x h
    simp only [List.forall_mem_cons]
    exact ⟨by decide, h, by simp⟩
  unfold escapeChar
  iterate 7
    split
    · exact pair _ (by decide)
  split
  · next control =>
    have high := printed_hexChar ⟨c.toNat / 16, by omega⟩
    have low := printed_hexChar ⟨c.toNat % 16, by omega⟩
    simp only [List.forall_mem_cons]
    exact ⟨by decide, by decide, by decide, by decide, high, low, by simp⟩
  · next plain =>
    simpa [Printed] using plain

theorem printed_strChars (s : String) : ∀ c ∈ strChars s, Printed c := by
  intro c hc
  simp only [strChars, List.mem_cons, List.mem_append, List.mem_flatMap, List.not_mem_nil,
    or_false] at hc
  rcases hc with (rfl | ⟨x, -, hx⟩) | rfl
  · decide
  · exact printed_escapeChar x c hx
  · decide

theorem printed_intChars (n : Int) : ∀ c ∈ intChars n, Printed c := by
  intro c hc
  rw [intChars] at hc
  split at hc
  · rcases List.mem_cons.mp hc with rfl | hc
    · decide
    · exact printed_of_isDigit (Text.isDigit_of_mem_decimal hc)
  · exact printed_of_isDigit (Text.isDigit_of_mem_decimal hc)

theorem printed_of_all {cs : List Char} (h : cs.all (0x20 ≤ ·.toNat) = true) :
    ∀ c ∈ cs, Printed c :=
  fun c hc => of_decide_eq_true (List.all_eq_true.mp h c hc)

theorem printed_of_first {first : Bool} : ∀ c ∈ if first then [] else [','], Printed c := by
  cases first <;> exact printed_of_all (by decide)

mutual

theorem printed_chars : ∀ v : Json, ∀ c ∈ v.chars, Printed c
  | .null | .bool true | .bool false | .real | .brokenStr => printed_of_all (by decide)
  | .int n => printed_intChars n
  | .str s => printed_strChars s
  | .arr items => by
    simp only [chars, List.cons_append, List.forall_mem_cons, List.forall_mem_append]
    exact ⟨by decide, printed_itemChars true items, by decide, by simp⟩
  | .obj members => by
    simp only [chars, List.cons_append, List.forall_mem_cons, List.forall_mem_append]
    exact ⟨by decide, printed_memberChars true members, by decide, by simp⟩

theorem printed_itemChars : ∀ (first : Bool) (items : List Json), ∀ c ∈ itemChars first items,
    Printed c
  | _, [] => by simp [itemChars]
  | first, v :: more => by
    simp only [itemChars, List.forall_mem_append]
    exact ⟨⟨printed_of_first, printed_chars v⟩, printed_itemChars false more⟩

theorem printed_memberChars : ∀ (first : Bool) (members : List (Option String × Json)),
    ∀ c ∈ memberChars first members, Printed c
  | _, [] => by simp [memberChars]
  | first, (k, v) :: more => by
    simp only [memberChars, List.forall_mem_append, List.forall_mem_cons]
    exact ⟨⟨⟨printed_of_first, printed_strChars _⟩, by decide, printed_chars v⟩,
      printed_memberChars false more⟩

end

end VmFleet.Json
