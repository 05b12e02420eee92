/-
Which texts name the network of a pool, and which addresses it hands out. The
readers accept one spelling of an address and three of a prefix length; what they
accept is said here by the spellings alone.
-/
import VmFleet.Proofs.AddressText
import Mathlib.Data.List.TakeWhile
import Mathlib.Order.Interval.Finset.Nat

namespace VmFleet

namespace Text

variable {n bound most : Nat} {c : Char} {cs ds rest : List Char}

/-! ## Digits -/

theorem digit_of_isDigit (h : c.isDigit = true) :
    digitValue c < 10 ∧ digitChar (digitValue c) = c ∧ (digitValue c = 0 → c = '0') := by
  simp only [Char.isDigit, Bool.and_eq_true, decide_eq_true_eq] at h
  have lower : 48 ≤ c.toNat := UInt32.le_iff_toNat_le.mp h.1
  have upper : c.toNat ≤ 57 := UInt32.le_iff_toNat_le.mp h.2
  have code : 48 + digitValue c % 10 = c.toNat := by
    simp only [digitValue]
    omega
  refine ⟨by simp only [digitValue]; omega, by rw [digitChar, code, Char.ofNat_toNat], ?_⟩
  intro zero
  rw [zero] at code
  rw [← Char.ofNat_toNat c, ← code]

theorem digitsValue_pos (digits : ∀ d ∈ c :: cs, d.isDigit = true) (first : c ≠ '0') :
    0 < digitsValue (c :: cs) := by
  induction cs using List.reverseRecOn with
  | nil =>
    have pos : digitValue c ≠ 0 := fun zero =>
      first ((digit_of_isDigit (digits c List.mem_cons_self)).2.2 zero)
    simp only [digitsValue, List.foldl_cons, List.foldl_nil]
    omega
  | append_singleton front last ih =>
    have shorter := ih fun d hd => digits d (by
      rw [← List.cons_append]
      exact List.mem_append_left _ hd)
    rw [← List.cons_append, digitsValue_concat]
    omega

theorem decimal_digitsValue (digits : ∀ d ∈ ds, d.isDigit = true) (filled : ds ≠ [])
    (plain : ∀ rest, ds = '0' :: rest → rest = []) : decimal (digitsValue ds) = ds := by
  induction ds using List.reverseRecOn with
  | nil => exact absurd rfl filled
  | append_singleton front last ih =>
    obtain ⟨small, back, -⟩ := digit_of_isDigit (digits last (by simp))
    have digitChar_add : ∀ m, digitChar (m * 10 + digitValue last) = last := by
      intro m
      have low : (m * 10 + digitValue last) % 10 = digitValue last % 10 := by omega
      rw [digitChar, low, ← digitChar, back]
    rw [digitsValue_concat, decimal]
    cases front with
    | nil =>
      have value : digitsValue [] * 10 + digitValue last < 10 := by
        simp only [digitsValue, List.foldl_nil]
        omega
      rw [if_pos value, digitChar_add, List.nil_append]
    | cons c front =>
      have digits : ∀ d ∈ c :: front, d.isDigit = true := fun d hd =>
        digits d (List.mem_append_left _ hd)
      have first : c ≠ '0' := by
        rintro rfl
        have none := plain (front ++ [last]) rfl
        simp at none
      have pos := digitsValue_pos digits first
      have big : ¬ digitsValue (c :: front) * 10 + digitValue last < 10 := by omega
      have front' : (digitsValue (c :: front) * 10 + digitValue last) / 10 =
          digitsValue (c :: front) := by omega
      rw [if_neg big, front', digitChar_add, ih digits (List.cons_ne_nil _ _) ?_]
      rintro rest eq
      exact absurd (List.cons.inj eq).1 first

theorem spanDigits_split (h : spanDigits most cs = (ds, rest)) :
    cs = ds ++ rest ∧ ∀ d ∈ ds, d.isDigit = true := by
  induction most generalizing cs ds with
  | zero =>
    cases h
    exact ⟨rfl, fun d hd => absurd hd List.not_mem_nil⟩
  | succ most ih =>
    cases cs with
    | nil =>
      cases h
      exact ⟨rfl, fun d hd => absurd hd List.not_mem_nil⟩
    | cons c cs =>
      rw [spanDigits] at h
      split at h
      · next digit =>
        obtain ⟨rfl, rfl⟩ := Prod.mk.inj h
        obtain ⟨split, digits⟩ := ih rfl
        exact ⟨congrArg (c :: ·) split, List.forall_mem_cons.mpr ⟨digit, digits⟩⟩
      · obtain ⟨rfl, rfl⟩ := Prod.mk.inj h
        exact ⟨rfl, fun d hd => absurd hd List.not_mem_nil⟩

theorem readDigits?_eq_some_iff :
    readDigits? cs = some n ↔ (∀ d ∈ cs, d.isDigit = true) ∧ cs ≠ [] ∧ digitsValue cs = n := by
  rw [← List.all_eq_true]
  by_cases filled : cs = []
  · simp [readDigits?, filled]
  · by_cases digits : cs.all Char.isDigit = true <;> simp [readDigits?, filled, digits]

/-- A number below the bound is spelled with digits, of which some may be leading zeros, and perhaps
a plus sign. -/
theorem readBelow?_eq_some_iff : readBelow? bound cs = some n ↔ n < bound ∧
    ∃ ds, (cs = ds ∨ cs = '+' :: ds) ∧ (∀ d ∈ ds, d.isDigit = true) ∧ ds ≠ [] ∧
      digitsValue ds = n := by
  have unsigned : ∀ {ds : List Char}, (∀ d ∈ '+' :: ds, d.isDigit = true) → False :=
    fun digits => absurd (digits '+' List.mem_cons_self) (by decide)
  unfold readBelow?
  extract_lets digits
  have spelled : ∀ m, readDigits? digits = some m ↔ ∃ ds, (cs = ds ∨ cs = '+' :: ds) ∧
      (∀ d ∈ ds, d.isDigit = true) ∧ ds ≠ [] ∧ digitsValue ds = m := by
    intro m
    rw [readDigits?_eq_some_iff]
    simp only [digits]
    split
    · next rest =>
      constructor
      · exact fun spelled => ⟨rest, .inr rfl, spelled⟩
      · rintro ⟨ds, rfl | eq, digits, spelled⟩
        · exact (unsigned digits).elim
        · cases eq
          exact ⟨digits, spelled⟩
    · next noSign =>
      constructor
      · exact fun spelled => ⟨cs, .inl rfl, spelled⟩
      · rintro ⟨ds, rfl | rfl, spelled⟩
        · exact spelled
        · exact absurd rfl (noSign ds)
  rw [← spelled]
  cases readDigits? digits with
  | none => simp
  | some m =>
    simp only [Option.ite_none_right_eq_some, Option.some.injEq]
    constructor
    · rintro ⟨small, rfl⟩
      exact ⟨small, rfl⟩
    · rintro ⟨small, rfl⟩
      exact ⟨small, rfl⟩

end Text

/-! ## Addresses -/

namespace Ipv4

variable {n : Nat} {cs rest : List Char} {a : Ipv4}

theorem eq_iff_value {b : Ipv4} : a = b ↔ a.value = b.value :=
  ⟨congrArg value, ext_value⟩

theorem readOctet?_split (h : readOctet? cs = some (n, rest)) :
    cs = Text.decimal n ++ rest ∧ n < 256 := by
  simp only [readOctet?] at h
  split at h
  · cases h
  · cases h
  next ds rest' empty zero span =>
  obtain ⟨small, same⟩ := Option.ite_none_right_eq_some.mp h
  obtain ⟨rfl, rfl⟩ := Prod.mk.inj (Option.some.inj same)
  obtain ⟨rfl, digits⟩ := Text.spanDigits_split span
  refine ⟨?_, small⟩
  rw [Text.decimal_digitsValue digits empty ?_]
  rintro more rfl
  cases more with
  | nil => rfl
  | cons d more => exact absurd rfl (zero d more)

theorem readPoint?_split (h : readPoint? cs = some rest) : cs = '.' :: rest := by
  unfold readPoint? at h
  split at h
  · cases h
    rfl
  · cases h

/-- An address has one spelling. -/
theorem readChars?_eq_some_iff : readChars? cs = some a ↔ cs = a.chars := by
  refine ⟨fun h => ?_, fun h => h ▸ readChars?_chars a⟩
  simp only [readChars?, Option.bind_eq_bind, Option.bind_eq_some_iff, Prod.exists] at h
  obtain ⟨b₁, cs₁, first, cs₂, point, b₂, cs₃, second, cs₄, point', b₃, cs₅, third, cs₆, point'',
    b₄, cs₇, fourth, whole⟩ := h
  obtain ⟨rfl, small₁⟩ := readOctet?_split first
  obtain rfl := readPoint?_split point
  obtain ⟨rfl, small₂⟩ := readOctet?_split second
  obtain rfl := readPoint?_split point'
  obtain ⟨rfl, small₃⟩ := readOctet?_split third
  obtain rfl := readPoint?_split point''
  obtain ⟨rfl, small₄⟩ := readOctet?_split fourth
  obtain ⟨ended, rfl⟩ := Option.ite_none_right_eq_some.mp whole |>.imp_right Option.some.inj
  obtain rfl := List.isEmpty_iff.mp ended
  have value : (ofNat (((b₁ * 256 + b₂) * 256 + b₃) * 256 + b₄)).value =
      ((b₁ * 256 + b₂) * 256 + b₃) * 256 + b₄ := Nat.mod_eq_of_lt (by simp only [bound32]; omega)
  rw [chars_eq, value, show (((b₁ * 256 + b₂) * 256 + b₃) * 256 + b₄) / 16777216 = b₁ by omega,
    show (((b₁ * 256 + b₂) * 256 + b₃) * 256 + b₄) / 65536 % 256 = b₂ by omega,
    show (((b₁ * 256 + b₂) * 256 + b₃) * 256 + b₄) / 256 % 256 = b₃ by omega,
    show (((b₁ * 256 + b₂) * 256 + b₃) * 256 + b₄) % 256 = b₄ by omega, List.append_nil]

theorem read?_eq_some_iff {s : String} : read? s = some a ↔ s = a.text := by
  rw [read?, readChars?_eq_some_iff, ← String.toList_inj, text, String.toList_ofList]

theorem point_mem_chars (a : Ipv4) : '.' ∈ a.chars := by
  simp [chars_eq]

end Ipv4

/-! ## Networks -/

namespace Subnet

variable {cs : List Char} {p : Nat} {n : Subnet} {a : Ipv4}

/-- The address with so many leading ones. -/
def netmask (length : Nat) : Ipv4 :=
  .ofNat (bound32 - Nat.pow 2 (32 - length))

theorem pow_le_bound32 (length : Nat) : Nat.pow 2 (32 - length) ≤ bound32 :=
  Nat.pow_le_pow_right (n := 2) (by decide) (Nat.sub_le 32 length)

theorem netmask_value (length : Nat) :
    (netmask length).value = bound32 - Nat.pow 2 (32 - length) := by
  have pos : 0 < Nat.pow 2 (32 - length) := Nat.pow_pos (by decide)
  exact Nat.mod_eq_of_lt (Nat.sub_lt (by decide) pos)

theorem netmask_injective {p q : Nat} (hp : p ≤ 32) (hq : q ≤ 32)
    (same : (netmask p).value = (netmask q).value) : p = q := by
  rw [netmask_value, netmask_value] at same
  have powers : Nat.pow 2 (32 - p) = Nat.pow 2 (32 - q) := by
    have := pow_le_bound32 p
    have := pow_le_bound32 q
    omega
  have := Nat.pow_right_injective (Nat.le_refl 2) powers
  omega

theorem lengthOfMask?_eq_some_iff : lengthOfMask? a = some p ↔ p ≤ 32 ∧ a = netmask p := by
  have hit : ∀ q, (a.value == bound32 - Nat.pow 2 (32 - q)) = true ↔
      a.value = (netmask q).value := by
    intro q
    rw [netmask_value, beq_iff_eq]
  unfold lengthOfMask?
  constructor
  · intro h
    have range := List.mem_range.mp (List.mem_of_find?_eq_some h)
    have found := List.find?_some (p := fun q => a.value == bound32 - Nat.pow 2 (32 - q)) h
    exact ⟨by omega, Ipv4.ext_value ((hit p).mp found)⟩
  · rintro ⟨short, rfl⟩
    cases found : (List.range 33).find? fun q =>
        (netmask p).value == bound32 - Nat.pow 2 (32 - q) with
    | none =>
      have none := List.find?_eq_none.mp found p (List.mem_range.mpr (by omega))
      exact absurd ((hit p).mpr rfl) none
    | some q =>
      have range := List.mem_range.mp (List.mem_of_find?_eq_some found)
      have same := List.find?_some
        (p := fun q => (netmask p).value == bound32 - Nat.pow 2 (32 - q)) found
      rw [netmask_injective short (by omega) ((hit q).mp same)]

/-- How the length of a prefix is spelled: as a number, perhaps with leading zeros and after a plus
sign, or as a netmask. -/
inductive LengthText : List Char → Nat → Prop
  | number {ds} (digits : ∀ d ∈ ds, d.isDigit = true) (filled : ds ≠ []) :
      LengthText ds (Text.digitsValue ds)
  | signed {ds} (digits : ∀ d ∈ ds, d.isDigit = true) (filled : ds ≠ []) :
      LengthText ('+' :: ds) (Text.digitsValue ds)
  | mask (length : Nat) : LengthText (netmask length).chars length

/-- How a network is spelled: an address and the length of its prefix after a slash, or an address
alone, which is a network of its own. -/
inductive Spelled : List Char → Subnet → Prop
  | alone {n : Subnet} (whole : n.length = 32) : Spelled n.address.chars n
  | cidr {n : Subnet} {after : List Char} (length : LengthText after n.length) :
      Spelled (n.address.chars ++ '/' :: after) n

theorem readLength?_eq_some_iff : readLength? cs = some p ↔ p ≤ 32 ∧ LengthText cs p := by
  cases address : Ipv4.readChars? cs with
  | some mask =>
    obtain rfl := Ipv4.readChars?_eq_some_iff.mp address
    simp only [readLength?, address, lengthOfMask?_eq_some_iff]
    refine and_congr_right fun _ => ⟨fun same => same ▸ .mask p, fun spelled => ?_⟩
    -- A number has no points.
    generalize chars : mask.chars = cs at spelled
    have point : '.' ∈ cs := chars ▸ mask.point_mem_chars
    cases spelled with
    | number digits _ => exact absurd (digits _ point) (by decide)
    | signed digits _ =>
      exact absurd (digits _ ((List.mem_cons.mp point).resolve_left (by decide))) (by decide)
    | mask => exact Option.some.inj (address.symm.trans (chars ▸ Ipv4.readChars?_chars _))
  | none =>
    have noMask : ∀ length, cs ≠ (netmask length).chars := by
      rintro length rfl
      rw [Ipv4.readChars?_chars] at address
      cases address
    simp only [readLength?, address, Text.readBelow?_eq_some_iff, Nat.lt_succ_iff]
    refine and_congr_right fun _ => ⟨?_, fun spelled => ?_⟩
    · rintro ⟨ds, rfl | rfl, digits, filled, rfl⟩
      · exact .number digits filled
      · exact .signed digits filled
    · cases spelled with
      | number digits filled => exact ⟨cs, .inl rfl, digits, filled, rfl⟩
      | signed digits filled => exact ⟨_, .inr rfl, digits, filled, rfl⟩
      | mask => exact absurd rfl (noMask p)

theorem LengthText.no_slash (h : LengthText cs p) : '/' ∉ cs := by
  intro slash
  cases h with
  | number digits _ => exact absurd (digits _ slash) (by decide)
  | signed digits _ =>
    exact absurd (digits _ ((List.mem_cons.mp slash).resolve_left (by decide))) (by decide)
  | mask => exact absurd (Ipv4.ne_slash_of_mem_chars slash) (by decide)

theorem ofLength?_eq_ok_iff {address : Ipv4} {length : Nat} :
    ofLength? address length = .ok n ↔ n.address = address ∧ n.length = length := by
  unfold ofLength?
  split
  · rw [Except.ok.injEq]
    constructor
    · rintro rfl
      exact ⟨rfl, rfl⟩
    · obtain ⟨_, _, _⟩ := n
      rintro ⟨rfl, rfl⟩
      rfl
  · next long =>
    simp only [reduceCtorEq, false_iff]
    rintro ⟨-, rfl⟩
    exact long n.length_le

/-- The reader accepts the spellings of networks and nothing else. -/
theorem read?_eq_ok_iff {s : String} : read? s = .ok n ↔ Spelled s.toList n := by
  constructor
  · intro h
    have split := List.takeWhile_append_dropWhile (p := (· != '/')) (l := s.toList)
    have head := List.head?_dropWhile_not (· != '/') s.toList
    simp only [read?] at h
    generalize s.toList.takeWhile (· != '/') = before at h split
    generalize s.toList.dropWhile (· != '/') = rest at h split head
    rw [← split]
    cases rest with
    | nil =>
      cases address : Ipv4.readChars? before with
      | none => simp [address] at h
      | some a =>
        simp only [address, ofLength?_eq_ok_iff] at h
        obtain ⟨rfl, whole⟩ := h
        rw [Ipv4.readChars?_eq_some_iff.mp address, List.append_nil]
        exact .alone whole
    | cons c after =>
      obtain rfl : c = '/' := by simpa using head
      simp only at h
      split at h
      · cases h
      cases address : Ipv4.readChars? before with
      | none => simp [address] at h
      | some a =>
        simp only [address] at h
        cases length : readLength? after with
        | none => simp [length] at h
        | some p =>
          simp only [length, ofLength?_eq_ok_iff] at h
          obtain ⟨rfl, rfl⟩ := h
          rw [Ipv4.readChars?_eq_some_iff.mp address]
          exact .cidr (readLength?_eq_some_iff.mp length).2
  · intro spelled
    generalize chars : s.toList = cs at spelled
    cases spelled with
    | alone whole =>
      have noSlash : ∀ c ∈ n.address.chars, (c != '/') = true := fun _ => Ipv4.ne_slash_of_mem_chars
      have all := List.takeWhile_eq_self_iff.mpr noSlash
      have rest := List.dropWhile_eq_nil_iff.mpr noSlash
      simp only [read?, chars, all, rest, Ipv4.readChars?_chars, ofLength?_eq_ok_iff]
      exact ⟨trivial, whole⟩
    | @cidr _ after length =>
      obtain ⟨before, rest⟩ := split_at_slash n.address after
      have single : after.contains '/' = false := by
        rw [Bool.eq_false_iff, ne_eq, List.contains_iff_mem]
        exact length.no_slash
      simp only [read?, chars, before, rest, single, Bool.false_eq_true, if_false,
        Ipv4.readChars?_chars, readLength?_eq_some_iff.mpr ⟨n.length_le, length⟩,
        ofLength?_eq_ok_iff, and_self]

/-! ## The addresses of a network -/

/-- The address has the prefix of the network. -/
def Covers (n : Subnet) (a : Ipv4) : Prop :=
  a.value / n.size = n.address.value / n.size

theorem broadcast_value (n : Subnet) : n.broadcast.value = n.network.value + n.size - 1 := by
  have fits := n.network_add_size
  have pos := n.size_pos
  exact Nat.mod_eq_of_lt (by omega)

theorem contains_iff : n.contains a = true ↔
    n.network.value ≤ a.value ∧ a.value < n.network.value + n.size := by
  have pos := n.size_pos
  have last : n.network.value + n.size - 1 + 1 = n.network.value + n.size :=
    Nat.sub_add_cancel (by omega)
  simp only [contains, Bool.and_eq_true, decide_eq_true_eq]
  refine and_congr_right fun _ => ?_
  rw [← last, ← broadcast_value, Nat.lt_succ_iff]
  rfl

theorem contains_iff_covers : n.contains a = true ↔ n.Covers a := by
  rw [contains_iff, Covers, Nat.div_eq_iff n.size_pos]
  have pos := n.size_pos
  simp only [network]
  omega

/-- Counting on from the first address, as many as the network has. -/
theorem counted_iff : (∃ i < n.size, Ipv4.ofNat (n.network.value + i) = a) ↔
    n.network.value ≤ a.value ∧ a.value < n.network.value + n.size := by
  have fits := n.network_add_size
  constructor
  · rintro ⟨i, hi, rfl⟩
    have value : (Ipv4.ofNat (n.network.value + i)).value = n.network.value + i :=
      Nat.mod_eq_of_lt (by omega)
    omega
  · rintro ⟨low, high⟩
    refine ⟨a.value - n.network.value, by omega, Ipv4.ext_value ?_⟩
    rw [Nat.add_sub_cancel' low]
    exact Nat.mod_eq_of_lt a.value_lt

theorem normalized_contains : n.normalized.contains a = n.contains a := by
  rw [contains, broadcast, normalized_network]
  rfl

end Subnet

/-! ## The network of a pool -/

namespace PoolNetwork

variable {cidr gateway : String} {subnet : Subnet} {g a : Ipv4} {n : PoolNetwork}

/-- The two texts, blanks at their ends aside, name a network with a prefix of sixteen to thirty
bits and an address in it. -/
structure Named (cidr gateway : String) (subnet : Subnet) (g : Ipv4) : Prop where
  network : Subnet.Spelled (Text.trim cidr).toList subnet
  gateway : Text.trim gateway = g.text
  shortest : 16 ≤ subnet.length
  longest : subnet.length ≤ 30
  inside : subnet.Covers g

theorem read?_eq_ok_iff : read? cidr gateway = .ok n ↔
    ∃ subnet, Named cidr gateway subnet n.gateway ∧ n.subnet = subnet.normalized := by
  constructor
  · intro h
    simp only [read?] at h
    split at h
    · cases h
    next subnet network =>
    split at h
    · cases h
    next g address =>
    split at h
    · cases h
    next long =>
    split at h
    · cases h
    next short =>
    split at h
    · next inside =>
      cases h
      rw [Subnet.normalized_contains, Subnet.contains_iff_covers] at inside
      exact ⟨subnet, ⟨Subnet.read?_eq_ok_iff.mp network, Ipv4.read?_eq_some_iff.mp address,
        Nat.le_of_not_lt short, Nat.le_of_not_lt long, inside⟩, rfl⟩
    · cases h
  · rintro ⟨subnet, named, normal⟩
    have inside := Subnet.contains_iff_covers.mpr named.inside
    simp only [read?, Subnet.read?_eq_ok_iff.mpr named.network,
      Ipv4.read?_eq_some_iff.mpr named.gateway]
    rw [if_neg (Nat.not_lt.mpr named.longest), if_neg (Nat.not_lt.mpr named.shortest),
      Subnet.normalized_contains, if_pos inside, ← normal]

theorem mem_hosts : a ∈ n.hosts ↔
    n.subnet.network < a ∧ a < n.subnet.broadcast ∧ a ≠ n.gateway := by
  have last := n.subnet.broadcast_value
  simp only [hosts, List.mem_filter, List.mem_map, List.mem_range, Subnet.counted_iff,
    Bool.and_eq_true, bne_iff_ne]
  simp only [ne_eq, Ipv4.eq_iff_value]
  show _ ↔ n.subnet.network.value < a.value ∧ a.value < n.subnet.broadcast.value ∧ _
  rw [last]
  constructor
  · rintro ⟨⟨low, high⟩, ⟨notFirst, notLast⟩, other⟩
    exact ⟨by omega, by omega, other⟩
  · rintro ⟨low, high, other⟩
    exact ⟨⟨by omega, by omega⟩, ⟨by omega, by omega⟩, other⟩

/-- Of the addresses of a network all but the first and the last are handed out, and the gateway is
kept back where it is none of the two. -/
theorem length_hosts (n : PoolNetwork) : n.hosts.length = n.subnet.size - 2 -
    (if n.subnet.network < n.gateway ∧ n.gateway < n.subnet.broadcast then 1 else 0) := by
  have last := n.subnet.broadcast_value
  have values : (n.hosts.map Ipv4.value).toFinset =
      (Finset.Ioo n.subnet.network.value n.subnet.broadcast.value).erase n.gateway.value := by
    ext v
    simp only [List.mem_toFinset, List.mem_map, mem_hosts, Finset.mem_erase, Finset.mem_Ioo]
    constructor
    · rintro ⟨a, ⟨low, high, other⟩, rfl⟩
      exact ⟨fun same => other (Ipv4.ext_value same), low, high⟩
    · rintro ⟨other, low, high⟩
      refine ⟨⟨v, Nat.lt_trans high n.subnet.broadcast.value_lt⟩, ⟨low, high, ?_⟩, rfl⟩
      exact fun same => other (congrArg Ipv4.value same)
  have distinct : (n.hosts.map Ipv4.value).Nodup :=
    n.hosts_nodup.map fun a b same => Ipv4.ext_value same
  rw [← List.length_map Ipv4.value, ← List.toFinset_card_of_nodup distinct, values]
  by_cases between : n.subnet.network < n.gateway ∧ n.gateway < n.subnet.broadcast
  · rw [if_pos between, Finset.card_erase_of_mem (Finset.mem_Ioo.mpr between), Nat.card_Ioo]
    omega
  · rw [if_neg between, Finset.erase_eq_of_notMem fun mem => between (Finset.mem_Ioo.mp mem),
      Nat.card_Ioo]
    omega

/-- What is known of a network that was read. -/
structure Usable (n : PoolNetwork) : Prop where
  cleared : n.subnet.address.value % n.subnet.size = 0
  first : n.subnet.network = n.subnet.address
  last : n.subnet.broadcast.value = n.subnet.address.value + n.subnet.size - 1
  ascending : n.hosts.Pairwise (· < ·)
  members : ∀ a, a ∈ n.hosts ↔ n.subnet.network < a ∧ a < n.subnet.broadcast ∧ a ≠ n.gateway
  count : n.hosts.length = Nat.pow 2 (32 - n.subnet.length) - 2 -
    (if n.subnet.network < n.gateway ∧ n.gateway < n.subnet.broadcast then 1 else 0)
  filled : n.hosts ≠ []
  again : read? n.subnet.text n.gateway.text = .ok n

theorem size_ge_four (short : n.subnet.length ≤ 30) : 4 ≤ n.subnet.size :=
  Nat.pow_le_pow_right (n := 2) (i := 2) (by decide) (by omega)

theorem usable_of_read? (h : read? cidr gateway = .ok n) : n.Usable := by
  obtain ⟨normal, -, short, -⟩ := read?_ok h
  have room := size_ge_four short
  have first : n.subnet.network = n.subnet.address := congrArg Subnet.address normal
  have count := n.length_hosts
  refine ⟨?_, first, first ▸ n.subnet.broadcast_value, n.hosts_ascending, fun _ => mem_hosts, count,
    ?_, read?_text h⟩
  · rw [← first]
    exact Nat.mul_mod_left _ _
  · refine List.ne_nil_of_length_pos ?_
    split at count <;> omega

/-- **Two texts name the network of a pool exactly when, blanks at their ends aside, they spell an
IPv4 network with a prefix of sixteen to thirty bits and an address in it.** The network is kept
with its host bits cleared. The addresses it hands out ascend, are those strictly between the first
and the last other than the gateway, and are never none; the texts of what is kept name it again. -/
theorem read?_ok_iff_named (cidr gateway : String) :
    ((∃ n, read? cidr gateway = .ok n) ↔ ∃ subnet g, Named cidr gateway subnet g) ∧
      ∀ n, read? cidr gateway = .ok n →
        (∃ subnet, Named cidr gateway subnet n.gateway ∧ n.subnet = subnet.normalized) ∧
          n.Usable := by
  refine ⟨⟨?_, ?_⟩, fun n read => ⟨read?_eq_ok_iff.mp read, usable_of_read? read⟩⟩
  · rintro ⟨n, read⟩
    obtain ⟨subnet, named, -⟩ := read?_eq_ok_iff.mp read
    exact ⟨subnet, n.gateway, named⟩
  · rintro ⟨subnet, g, named⟩
    exact ⟨⟨subnet.normalized, g⟩, read?_eq_ok_iff.mpr ⟨subnet, named, rfl⟩⟩

/-- The last network there is, its host bits set and its gateway the last address of all. -/
theorem last_network_usable : ∃ n, read? " 255.255.255.253/30" "255.255.255.255 " = .ok n ∧
    n.hosts.map Ipv4.value = [4294967293, 4294967294] ∧ n.Usable := by
  have read : read? " 255.255.255.253/30" "255.255.255.255 " =
      .ok ⟨⟨⟨4294967292, by decide⟩, 30, by decide⟩, ⟨4294967295, by decide⟩⟩ := by
    decide +kernel
  exact ⟨_, read, by decide +kernel, ((read?_ok_iff_named _ _).2 _ read).2⟩

end PoolNetwork

end VmFleet
