/-
Numbers, addresses and networks written as text and read back: what a pool keeps
of its network names the same network again.
-/
import VmFleet.Net.PoolNetwork
import Mathlib.Data.List.Basic

namespace VmFleet

namespace Text

variable {n most : Nat} {cs ds rest : List Char}

/-! ## Decimal numbers -/

theorem digit_chars : ∀ d : Fin 10, (Char.ofNat (48 + d)).isDigit = true ∧
    digitValue (Char.ofNat (48 + d)) = d ∧ (Char.ofNat (48 + d) = '0' → d = 0) := by
  decide

theorem digitChar_isDigit (n : Nat) : (digitChar n).isDigit = true :=
  (digit_chars ⟨n % 10, Nat.mod_lt _ (by decide)⟩).1

theorem digitValue_digitChar (n : Nat) : digitValue (digitChar n) = n % 10 :=
  (digit_chars ⟨n % 10, Nat.mod_lt _ (by decide)⟩).2.1

theorem digitChar_eq_zero (h : digitChar n = '0') : n % 10 = 0 := by
  simpa using (digit_chars ⟨n % 10, Nat.mod_lt _ (by decide)⟩).2.2 h

theorem digitsValue_concat (cs : List Char) (c : Char) :
    digitsValue (cs ++ [c]) = digitsValue cs * 10 + digitValue c := by
  simp [digitsValue, List.foldl_append]

theorem digitsValue_decimal (n : Nat) : digitsValue (decimal n) = n := by
  fun_induction decimal n with
  | case1 n small =>
    simp only [digitsValue, List.foldl_cons, List.foldl_nil, digitValue_digitChar]
    omega
  | case2 n big ih =>
    rw [digitsValue_concat, ih, digitValue_digitChar]
    omega

theorem isDigit_of_mem_decimal {c : Char} (h : c ∈ decimal n) : c.isDigit = true := by
  fun_induction decimal n with
  | case1 n _ =>
    rw [List.mem_singleton.mp h]
    exact digitChar_isDigit n
  | case2 n _ ih =>
    rcases List.mem_append.mp h with h | h
    · exact ih h
    · rw [List.mem_singleton.mp h]
      exact digitChar_isDigit n

theorem decimal_ne_nil (n : Nat) : decimal n ≠ [] := by
  fun_induction decimal n <;> simp

theorem length_decimal_le (w : Nat) (h : n < Nat.pow 10 (w + 1)) : (decimal n).length ≤ w + 1 := by
  induction w generalizing n with
  | zero =>
    rw [decimal, if_pos h]
    exact Nat.le_refl _
  | succ w ih =>
    rw [decimal]
    split
    · simp
    · have grown : Nat.pow 10 (w + 1 + 1) = Nat.pow 10 (w + 1) * 10 := rfl
      rw [grown] at h
      have shorter := ih (n := n / 10) (by omega)
      simp only [List.length_append, List.length_singleton]
      omega

theorem decimal_of_leading_zero (h : decimal n = '0' :: ds) : n = 0 ∧ ds = [] := by
  fun_induction decimal n generalizing ds with
  | case1 n small =>
    obtain ⟨first, rfl⟩ := List.cons.inj h
    have := digitChar_eq_zero first
    exact ⟨by omega, rfl⟩
  | case2 n big ih =>
    obtain ⟨c, more, split⟩ := List.exists_cons_of_ne_nil (decimal_ne_nil (n / 10))
    rw [split, List.cons_append] at h
    obtain ⟨rfl, -⟩ := List.cons.inj h
    have := (ih split).1
    omega

theorem spanDigits_append (digits : ∀ c ∈ ds, c.isDigit = true) (short : ds.length ≤ most)
    (stop : ∀ c ∈ rest.head?, c.isDigit = false) :
    spanDigits most (ds ++ rest) = (ds, rest) := by
  induction ds generalizing most with
  | nil =>
    cases most with
    | zero => simp [spanDigits]
    | succ most =>
      cases rest with
      | nil => rfl
      | cons c rest => simp [spanDigits, stop c rfl]
  | cons d ds ih =>
    obtain ⟨most, rfl⟩ : ∃ m, most = m + 1 := ⟨most - 1, by simp at short; omega⟩
    have ih : spanDigits most (ds ++ rest) = (ds, rest) :=
      ih (fun c hc => digits c (List.mem_cons_of_mem d hc)) (by simpa using short)
    simp only [List.cons_append, spanDigits, digits d List.mem_cons_self, if_true, ih]

theorem readBelow?_decimal {bound : Nat} (h : n < bound) :
    readBelow? bound (decimal n) = some n := by
  have unsigned : ∀ rest, decimal n ≠ '+' :: rest := by
    intro rest eq
    have plus := isDigit_of_mem_decimal (n := n) (c := '+') (by rw [eq]; exact List.mem_cons_self)
    exact absurd plus (by decide)
  have digits : readDigits? (decimal n) = some n := by
    have all : (decimal n).all Char.isDigit = true :=
      List.all_eq_true.mpr fun c hc => isDigit_of_mem_decimal hc
    simp [readDigits?, decimal_ne_nil, all, digitsValue_decimal]
  simp only [readBelow?, digits]
  rw [if_pos h]

/-! ## Blanks -/

theorem not_isBlank_of_isDigit {c : Char} (h : c.isDigit = true) : isBlank c = false := by
  simp only [Char.isDigit, Bool.and_eq_true, decide_eq_true_eq] at h
  have lower : 48 ≤ c.toNat := UInt32.le_iff_toNat_le.mp h.1
  have upper : c.toNat ≤ 57 := UInt32.le_iff_toNat_le.mp h.2
  simp only [isBlank, Bool.or_eq_false_iff, Bool.and_eq_false_iff, beq_eq_false_iff_ne, ne_eq,
    decide_eq_false_iff_not]
  omega

theorem trim_of_unblank {s : String} (h : ∀ c ∈ s.toList, isBlank c = false) : trim s = s := by
  have keep : ∀ cs : List Char, (∀ c ∈ cs, isBlank c = false) → cs.dropWhile isBlank = cs := by
    intro cs unblank
    cases cs with
    | nil => rfl
    | cons c cs => simp [unblank c List.mem_cons_self]
  have back := keep s.toList.reverse fun c hc => h c (List.mem_reverse.mp hc)
  simp only [trim, trimChars, trimStart, trimEnd, keep _ h, back, List.reverse_reverse,
    String.ofList_toList]

end Text

namespace Ipv4

/-- What is sorted by address stands in numeric order. -/
theorem mergeSort_sorted {α : Type} (address : α → Ipv4) (rows : List α) :
    (rows.mergeSort fun a b => address a ≤ address b).Pairwise fun a b =>
      address a ≤ address b := by
  have sorted : (rows.mergeSort fun a b => address a ≤ address b).Pairwise fun a b =>
      decide (address a ≤ address b) = true :=
    List.pairwise_mergeSort
      (fun a b c ab bc => by
        rw [decide_eq_true_eq] at *
        exact Nat.le_trans ab bc)
      (fun a b => by
        rw [Bool.or_eq_true, decide_eq_true_eq, decide_eq_true_eq]
        exact Nat.le_total (address a).value (address b).value)
      rows
  simpa only [decide_eq_true_eq] using sorted

variable {n : Nat} {rest : List Char}

theorem readOctet?_decimal (h : n < 256) (stop : ∀ c ∈ rest.head?, c.isDigit = false) :
    readOctet? (Text.decimal n ++ rest) = some (n, rest) := by
  have short := Text.length_decimal_le 2 (Nat.lt_trans h (by decide))
  simp only [readOctet?, Text.spanDigits_append (fun _ => Text.isDigit_of_mem_decimal) short stop]
  split
  · next eq => exact absurd (Prod.mk.inj eq).1 (Text.decimal_ne_nil n)
  · next eq =>
    exact absurd (Text.decimal_of_leading_zero (Prod.mk.inj eq).1).2 (List.cons_ne_nil _ _)
  · next eq =>
    obtain ⟨rfl, rfl⟩ := Prod.mk.inj eq
    rw [Text.digitsValue_decimal, if_pos h]

theorem readOctet?_decimal_end (h : n < 256) : readOctet? (Text.decimal n) = some (n, []) := by
  have none : ∀ c ∈ ([] : List Char).head?, c.isDigit = false := by simp
  have read := readOctet?_decimal h none
  rwa [List.append_nil] at read

theorem chars_eq (a : Ipv4) :
    a.chars = Text.decimal (a.value / 16777216) ++ '.' :: (Text.decimal (a.value / 65536 % 256) ++
      '.' :: (Text.decimal (a.value / 256 % 256) ++ '.' :: Text.decimal (a.value % 256))) := by
  simp [chars, octets, List.intercalate]

theorem readChars?_chars (a : Ipv4) : readChars? a.chars = some a := by
  have bound : a.value < 4294967296 := a.value_lt
  have point : ∀ cs : List Char, ∀ c ∈ ('.' :: cs).head?, c.isDigit = false := by
    intro cs c hc
    simp only [List.head?_cons, Option.mem_some] at hc
    subst hc
    decide
  simp only [readChars?, chars_eq, Option.bind_eq_bind, Option.bind_some, readPoint?,
    readOctet?_decimal (show a.value / 16777216 < 256 by omega) (point _),
    readOctet?_decimal (show a.value / 65536 % 256 < 256 by omega) (point _),
    readOctet?_decimal (show a.value / 256 % 256 < 256 by omega) (point _),
    readOctet?_decimal_end (show a.value % 256 < 256 by omega), List.isEmpty_nil, if_true,
    Option.some.injEq]
  exact ext_value (by simp only [ofNat, bound32]; omega)

theorem read?_text (a : Ipv4) : read? a.text = some a := by
  rw [read?, text, String.toList_ofList, readChars?_chars]

theorem text_injective {a b : Ipv4} (h : a.text = b.text) : a = b := by
  have read := congrArg read? h
  rwa [read?_text, read?_text, Option.some.injEq] at read

theorem mem_chars {a : Ipv4} {c : Char} (h : c ∈ a.chars) : c.isDigit = true ∨ c = '.' := by
  simp only [chars_eq, List.mem_append, List.mem_cons] at h
  rcases h with h | h | h | h | h | h | h
  all_goals first
    | exact .inr h
    | exact .inl (Text.isDigit_of_mem_decimal h)

theorem ne_slash_of_mem_chars {a : Ipv4} {c : Char} (h : c ∈ a.chars) : (c != '/') = true := by
  rcases mem_chars h with digit | rfl
  · refine bne_iff_ne.mpr ?_
    rintro rfl
    exact absurd digit (by decide)
  · decide

theorem trim_text (a : Ipv4) : Text.trim a.text = a.text := by
  refine Text.trim_of_unblank fun c hc => ?_
  rw [text, String.toList_ofList] at hc
  rcases mem_chars hc with digit | rfl
  · exact Text.not_isBlank_of_isDigit digit
  · decide

end Ipv4

namespace Subnet

theorem text_toList (n : Subnet) :
    n.text.toList = n.address.chars ++ '/' :: Text.decimal n.length := by
  simp [text, Ipv4.text]

theorem trim_text (n : Subnet) : Text.trim n.text = n.text := by
  refine Text.trim_of_unblank fun c hc => ?_
  rw [text_toList, List.mem_append, List.mem_cons] at hc
  rcases hc with hc | rfl | hc
  · rcases Ipv4.mem_chars hc with digit | rfl
    · exact Text.not_isBlank_of_isDigit digit
    · decide
  · decide
  · exact Text.not_isBlank_of_isDigit (Text.isDigit_of_mem_decimal hc)

theorem readLength?_decimal {k : Nat} (h : k ≤ 32) : readLength? (Text.decimal k) = some k := by
  have noMask : Ipv4.readChars? (Text.decimal k) = none := by
    simp [Ipv4.readChars?, Ipv4.readOctet?_decimal_end (show k < 256 by omega), Ipv4.readPoint?]
  simp only [readLength?, noMask, Text.readBelow?_decimal (show k < 33 by omega)]

theorem split_at_slash (a : Ipv4) (after : List Char) :
    (a.chars ++ '/' :: after).takeWhile (· != '/') = a.chars ∧
      (a.chars ++ '/' :: after).dropWhile (· != '/') = '/' :: after := by
  have noSlash : ∀ c ∈ a.chars, (c != '/') = true := fun _ => Ipv4.ne_slash_of_mem_chars
  rw [List.takeWhile_append_of_pos noSlash, List.dropWhile_append_of_pos noSlash]
  simp

theorem read?_text (n : Subnet) : read? n.text = .ok n := by
  obtain ⟨before, after⟩ := split_at_slash n.address (Text.decimal n.length)
  have single : (Text.decimal n.length).contains '/' = false := by
    rw [Bool.eq_false_iff, ne_eq, List.contains_iff_mem]
    intro hc
    exact absurd (Text.isDigit_of_mem_decimal hc) (by decide)
  simp only [read?, text_toList, before, after, single, Bool.false_eq_true, if_false,
    Ipv4.readChars?_chars, readLength?_decimal n.length_le, ofLength?, n.length_le, dite_true]

/-! ## The addresses of a network -/

theorem size_mul (n : Subnet) : n.size * Nat.pow 2 n.length = bound32 := by
  have split : 32 - n.length + n.length = 32 := Nat.sub_add_cancel n.length_le
  show 2 ^ (32 - n.length) * 2 ^ n.length = bound32
  rw [← Nat.pow_add, split]

/-- The addresses of a network do not run over the last address there is. -/
theorem network_add_size (n : Subnet) : n.network.value + n.size ≤ bound32 := by
  have whole : n.size * 2 ^ n.length = bound32 := n.size_mul
  have below : n.address.value / n.size < 2 ^ n.length := by
    rw [Nat.div_lt_iff_lt_mul n.size_pos, Nat.mul_comm, whole]
    exact n.address.value_lt
  calc n.address.value / n.size * n.size + n.size
      = (n.address.value / n.size + 1) * n.size := by rw [Nat.add_mul, Nat.one_mul]
    _ ≤ 2 ^ n.length * n.size := Nat.mul_le_mul_right _ below
    _ = bound32 := by rw [Nat.mul_comm, whole]

theorem normalized_network (n : Subnet) : n.normalized.network = n.network := by
  refine Ipv4.ext_value ?_
  show n.address.value / n.size * n.size / n.size * n.size = n.address.value / n.size * n.size
  rw [Nat.mul_div_cancel _ n.size_pos]

theorem normalized_normalized (n : Subnet) : n.normalized.normalized = n.normalized := by
  simp only [normalized]
  congr 1
  exact n.normalized_network

end Subnet

namespace PoolNetwork

variable {cidr gateway : String} {n : PoolNetwork}

/-- A network that was read is written with its lowest address, has a prefix of sixteen to thirty
bits, and its gateway lies in it. -/
theorem read?_ok (h : read? cidr gateway = .ok n) :
    n.subnet.normalized = n.subnet ∧ 16 ≤ n.subnet.length ∧ n.subnet.length ≤ 30 ∧
      n.subnet.contains n.gateway = true := by
  simp only [read?] at h
  split at h
  · cases h
  next subnet _ =>
  split at h
  · cases h
  split at h
  · cases h
  split at h
  · cases h
  split at h
  · next short long inside =>
    cases h
    exact ⟨subnet.normalized_normalized, Nat.le_of_not_lt long, Nat.le_of_not_lt short, inside⟩
  · cases h

/-- The texts of a network that was read name it again. -/
theorem read?_text (h : read? cidr gateway = .ok n) :
    read? n.subnet.text n.gateway.text = .ok n := by
  obtain ⟨normal, long, short, inside⟩ := read?_ok h
  simp only [read?, Subnet.trim_text, Subnet.read?_text, Ipv4.trim_text, Ipv4.read?_text]
  rw [if_neg (Nat.not_lt.mpr short), if_neg (Nat.not_lt.mpr long), normal, if_pos inside]

theorem hosts_ascending (n : PoolNetwork) : n.hosts.Pairwise (· < ·) := by
  refine List.Pairwise.filter _ (List.pairwise_map.mpr ?_)
  refine List.pairwise_lt_range.imp_of_mem ?_
  intro i j hi hj lt
  have fits := n.subnet.network_add_size
  rw [List.mem_range] at hi hj
  show (Ipv4.ofNat _).value < (Ipv4.ofNat _).value
  simp only [Ipv4.ofNat]
  rw [Nat.mod_eq_of_lt (by omega), Nat.mod_eq_of_lt (by omega)]
  omega

theorem hosts_nodup (n : PoolNetwork) : n.hosts.Nodup :=
  List.Pairwise.imp (fun {a b} (lt : a < b) (eq : a = b) => Nat.lt_irrefl b.value (eq ▸ lt))
    n.hosts_ascending

end PoolNetwork

end VmFleet
