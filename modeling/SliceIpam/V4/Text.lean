import SliceIpam.V4.Block
import SliceIpam.Net.Text
import Mathlib.Data.Nat.Digits

/-!
# The text of an IPv4 network

`ParseCIDR` and `IPNet.String` on IPv4 networks. The text of the network of a block is its
dotted-decimal address, a slash and its prefix length, and `ParseCIDR` reads it back: for a
canonical block it gives the block's network again. In the other direction, a string that
`ParseCIDR` reads with a four-byte mask gives the network of a canonical block.
-/

namespace SliceIpam
namespace Net

/-! ## Decimal fields -/

/-- The value of decimal digits read after the value `val`, as `parseIPv4Fields` accumulates
it. -/
def digitsValue (val : Nat) (ds : List Char) : Nat :=
  ds.foldl (fun n c => n * 10 + (c.toNat - '0'.toNat)) val

theorem digitsValue_cons (val : Nat) (d : Char) (ds : List Char) :
    digitsValue val (d :: ds) = digitsValue (val * 10 + (d.toNat - '0'.toNat)) ds := rfl

theorem digitsValue_append (val : Nat) (ds es : List Char) :
    digitsValue val (ds ++ es) = digitsValue (digitsValue val ds) es :=
  List.foldl_append _ _ _ _

theorem le_digitsValue (val : Nat) (ds : List Char) : val ≤ digitsValue val ds := by
  induction ds generalizing val with
  | nil => exact le_rfl
  | cons d ds ih =>
      exact Nat.le_trans (show val ≤ val * 10 + (d.toNat - '0'.toNat) by omega) (ih _)

theorem parseIPv4Fields_digit (d : Char) (rest : List Char) (prev : Option Char)
    (val digLen : Nat) (fields : List UInt8) (isDigit : '0' ≤ d ∧ d ≤ '9')
    (fresh : ¬(digLen = 1 ∧ val = 0)) (small : val * 10 + (d.toNat - '0'.toNat) ≤ 255) :
    parseIPv4Fields (d :: rest) prev val digLen fields =
      parseIPv4Fields rest (some d) (val * 10 + (d.toNat - '0'.toNat)) (digLen + 1) fields := by
  rw [parseIPv4Fields, if_pos isDigit, if_neg fresh]
  exact if_neg (Nat.not_lt.mpr small)

/-- `parseIPv4Fields` reads a run of digits into the field's value, provided it refuses no
leading zero and the value stays at most 255. -/
theorem parseIPv4Fields_digits (d : Char) (ds rest : List Char) (prev : Option Char)
    (val digLen : Nat) (fields : List UInt8) (digits : ∀ c ∈ d :: ds, '0' ≤ c ∧ c ≤ '9')
    (fresh : ¬(digLen = 1 ∧ val = 0))
    (noLeadingZero : ds ≠ [] → digLen = 0 → val * 10 + (d.toNat - '0'.toNat) ≠ 0)
    (small : digitsValue val (d :: ds) ≤ 255) :
    ∃ c, ('0' ≤ c ∧ c ≤ '9') ∧
      parseIPv4Fields (d :: ds ++ rest) prev val digLen fields =
        parseIPv4Fields rest (some c) (digitsValue val (d :: ds)) (digLen + ds.length + 1)
          fields := by
  have isDigit := digits d (List.mem_cons_self _ _)
  induction ds generalizing d prev val digLen with
  | nil =>
      exact ⟨d, isDigit,
        parseIPv4Fields_digit d rest prev val digLen fields isDigit fresh small⟩
  | cons e ds ih =>
      rw [digitsValue_cons] at small ⊢
      obtain ⟨c, cDigit, reads⟩ := ih e (some d) (val * 10 + (d.toNat - '0'.toNat)) (digLen + 1)
        (fun c member => digits c (List.mem_cons_of_mem _ member))
        (fun ⟨one, zero⟩ => noLeadingZero (List.cons_ne_nil _ _) (by omega) zero)
        (fun _ zero => by omega) small (digits e (List.mem_cons_of_mem _ (List.mem_cons_self _ _)))
      refine ⟨c, cDigit, ?_⟩
      rw [List.cons_append, parseIPv4Fields_digit d (e :: ds ++ rest) prev val digLen fields isDigit
        fresh (Nat.le_trans (le_digitsValue _ _) small), reads, List.length_cons,
        Nat.add_right_comm digLen 1 ds.length, Nat.add_assoc digLen]

/-- The text of a field of value `v`: decimal digits with no leading zero. -/
def FieldText : List Char → Nat → Prop
  | [], _ => False
  | d :: ds, v =>
      (∀ c ∈ d :: ds, '0' ≤ c ∧ c ≤ '9') ∧ (ds ≠ [] → d.toNat - '0'.toNat ≠ 0) ∧
        digitsValue 0 (d :: ds) = v

instance : ∀ ds v, Decidable (FieldText ds v)
  | [], _ => isFalse id
  | _ :: _, _ => inferInstanceAs (Decidable (_ ∧ _))

theorem fieldText_cons {d : Char} {ds : List Char} {v : Nat} :
    FieldText (d :: ds) v ↔ (∀ c ∈ d :: ds, '0' ≤ c ∧ c ≤ '9') ∧
      (ds ≠ [] → d.toNat - '0'.toNat ≠ 0) ∧ digitsValue 0 (d :: ds) = v :=
  Iff.rfl

/-- `digitChar` writes each digit value as its decimal digit. -/
theorem digitChar_digit : ∀ k : Fin 10,
    ('0' ≤ Nat.digitChar k ∧ Nat.digitChar k ≤ '9') ∧
      (Nat.digitChar k).toNat - '0'.toNat = k := by
  decide

/-- A digit after the text of a positive value is the text of ten times the value plus the
digit. -/
theorem FieldText.snoc {ds : List Char} {v : Nat} (text : FieldText ds v) (pos : 0 < v)
    {d : Char} (isDigit : '0' ≤ d ∧ d ≤ '9') :
    FieldText (ds ++ [d]) (v * 10 + (d.toNat - '0'.toNat)) := by
  match ds, text with
  | e :: es, ⟨digits, noLeadingZero, value⟩ =>
      rw [List.cons_append, fieldText_cons, ← List.cons_append, digitsValue_append, value]
      refine ⟨fun c member => ?_, fun _ => ?_, rfl⟩
      · rcases List.mem_append.mp member with inText | inLast
        · exact digits c inText
        · exact List.mem_singleton.mp inLast ▸ isDigit
      · cases es with
        | nil =>
            have value : 0 * 10 + (e.toNat - '0'.toNat) = v := value
            omega
        | cons _ _ => exact noLeadingZero (List.cons_ne_nil _ _)

/-- `toDigitsCore` in base 10, with more fuel than the value, puts the text of the value before
the digits it was given. -/
theorem toDigitsCore_fieldText (fuel n : Nat) (acc : List Char) (enough : n < fuel) :
    ∃ ds, Nat.toDigitsCore 10 fuel n acc = ds ++ acc ∧ FieldText ds n := by
  induction fuel generalizing n acc with
  | zero => omega
  | succ fuel ih =>
      obtain ⟨isDigit, value⟩ := digitChar_digit ⟨n % 10, Nat.mod_lt n (by decide)⟩
      unfold Nat.toDigitsCore
      dsimp only
      split
      · next short =>
          refine ⟨[Nat.digitChar (n % 10)], rfl, fun c member => ?_, fun absurd => ?_, ?_⟩
          · exact List.mem_singleton.mp member ▸ isDigit
          · exact absurd rfl |>.elim
          · simp only [digitsValue, List.foldl, value]
            omega
      · next long =>
          obtain ⟨ds, spelled, text⟩ := ih (n / 10) (Nat.digitChar (n % 10) :: acc) (by omega)
          refine ⟨ds ++ [Nat.digitChar (n % 10)], by rw [spelled, List.append_assoc]; rfl, ?_⟩
          have snoc := text.snoc (Nat.pos_of_ne_zero long) isDigit
          rwa [value, Nat.div_add_mod'] at snoc

/-- `toString` writes every value as the text of a field. -/
theorem fieldText_toString (v : Nat) : FieldText (toString v).toList v := by
  obtain ⟨ds, spelled, text⟩ := toDigitsCore_fieldText (v + 1) v [] (Nat.lt_succ_self v)
  show FieldText (Nat.toDigitsCore 10 (v + 1) v []) v
  rwa [spelled, List.append_nil]

/-- `parseIPv4Fields` reads the decimal text of a byte as one field. -/
theorem parseIPv4Fields_field (v : UInt8) (rest : List Char) (prev : Option Char)
    (fields : List UInt8) :
    ∃ c, ('0' ≤ c ∧ c ≤ '9') ∧ ∃ digLen,
      parseIPv4Fields ((toString v.toNat).toList ++ rest) prev 0 0 fields =
        parseIPv4Fields rest (some c) v.toNat digLen fields := by
  have text := fieldText_toString v.toNat
  generalize (toString v.toNat).toList = ds at text ⊢
  have lt : v.toNat < 256 := UInt8.toNat_lt_size v
  match ds, text with
  | d :: ds, ⟨digits, noLeadingZero, value⟩ =>
      have value : digitsValue 0 (d :: ds) = v.toNat := value
      obtain ⟨c, cDigit, reads⟩ := parseIPv4Fields_digits d ds rest prev 0 0 fields digits
        (by omega) (fun more _ => by simpa using noLeadingZero more) (by omega)
      exact ⟨c, cDigit, _, value ▸ reads⟩

theorem digit_ne_dot {c : Char} (isDigit : '0' ≤ c ∧ c ≤ '9') : c ≠ '.' := by
  rintro rfl
  exact absurd isDigit (by decide)

/-- After a field, a dot that is not the last character starts the next field. -/
theorem parseIPv4Fields_dot {c : Char} (isDigit : '0' ≤ c ∧ c ≤ '9') {rest : List Char}
    (more : rest ≠ []) (val digLen : Nat) {fields : List UInt8} (notLast : fields.length ≠ 3) :
    parseIPv4Fields ('.' :: rest) (some c) val digLen fields =
      parseIPv4Fields rest (some '.') 0 0 (fields ++ [val.toUInt8]) := by
  rw [parseIPv4Fields, if_neg (by decide), if_pos rfl,
    if_neg (by simpa [more] using digit_ne_dot isDigit), if_neg notLast]

theorem digits_toString (v : UInt8) :
    ∀ c ∈ (toString v.toNat).toList, '0' ≤ c ∧ c ≤ '9' := by
  have text := fieldText_toString v.toNat
  generalize (toString v.toNat).toList = ds at text ⊢
  match ds, text with
  | _ :: _, ⟨digits, _⟩ => exact digits

theorem toString_ne_nil (v : UInt8) : (toString v.toNat).toList ≠ [] := by
  have text := fieldText_toString v.toNat
  generalize (toString v.toNat).toList = ds at text ⊢
  match ds, text with
  | _ :: _, _ => exact List.cons_ne_nil _ _

/-! ## Dotted-decimal addresses -/

/-- The characters of the dotted-decimal text of four bytes. -/
theorem toList_string4 (w x y z : UInt8) :
    (string4 [w, x, y, z]).toList =
      (toString w.toNat).toList ++ '.' :: ((toString x.toNat).toList ++ '.' ::
        ((toString y.toNat).toList ++ '.' :: (toString z.toNat).toList)) := by
  simp [string4, String.intercalate, String.intercalate.go, String.toList]

/-- `parseIPv4Fields` reads the text of a byte and the dot after it, when more text follows and
at most two fields are complete. -/
theorem parseIPv4Fields_field_dot (v : UInt8) {rest : List Char} (more : rest ≠ [])
    (prev : Option Char) {fields : List UInt8} (notLast : fields.length ≠ 3) :
    parseIPv4Fields ((toString v.toNat).toList ++ '.' :: rest) prev 0 0 fields =
      parseIPv4Fields rest (some '.') 0 0 (fields ++ [v]) := by
  obtain ⟨c, digit, _, read⟩ := parseIPv4Fields_field v ('.' :: rest) prev fields
  rw [read, parseIPv4Fields_dot digit more _ _ notLast, toUInt8_toNat]

/-- `parseIPv4Fields` reads the dotted-decimal text of four bytes back. -/
theorem parseIPv4Fields_string4 (w x y z : UInt8) :
    parseIPv4Fields (string4 [w, x, y, z]).toList none 0 0 [] = some [w, x, y, z] := by
  obtain ⟨_, -, _, read⟩ := parseIPv4Fields_field z [] (some '.') [w, x, y]
  rw [List.append_nil] at read
  rw [toList_string4,
    parseIPv4Fields_field_dot w (List.append_ne_nil_of_left_ne_nil (toString_ne_nil x) _) none
      (by simp),
    parseIPv4Fields_field_dot x (List.append_ne_nil_of_left_ne_nil (toString_ne_nil y) _) _
      (by simp),
    parseIPv4Fields_field_dot y (toString_ne_nil z) _ (by simp), List.nil_append,
    List.singleton_append, List.cons_append, List.singleton_append, read]
  simp [parseIPv4Fields, toUInt8_toNat]

theorem not_separator_of_digit {c : Char} (isDigit : '0' ≤ c ∧ c ≤ '9') :
    ¬(c = '.' ∨ c = ':' ∨ c = '%') := by
  rintro (rfl | rfl | rfl) <;> exact absurd isDigit (by decide)

/-- `parseAddr` reads the dotted-decimal text of four bytes as an IPv4 address. -/
theorem parseAddr_string4 (w x y z : UInt8) :
    parseAddr (string4 [w, x, y, z]).toList = some (v4InV6Prefix ++ [w, x, y, z], 32) := by
  have first :
      (string4 [w, x, y, z]).toList.find? (fun c => decide (c = '.' ∨ c = ':' ∨ c = '%')) =
        some '.' := by
    rw [toList_string4, List.find?_append, List.find?_eq_none.mpr fun c member => by
      simpa using not_separator_of_digit (digits_toString w c member)]
    rfl
  rw [parseAddr, first, parseIPv4Fields_string4]
  rfl

/-- No character of the dotted-decimal text of four bytes is a slash. -/
theorem ne_slash_of_mem_string4 (w x y z : UInt8) :
    ∀ c ∈ (string4 [w, x, y, z]).toList, c ≠ '/' := by
  have digit : ∀ v : UInt8, ∀ c ∈ (toString v.toNat).toList, c ≠ '/' := fun v c member => by
    rintro rfl
    exact absurd (digits_toString v _ member) (by decide)
  simp only [toList_string4, List.mem_append, List.mem_cons]
  rintro c (inW | rfl | inX | rfl | inY | rfl | inZ)
  all_goals first | exact digit _ c ‹_› | decide

/-- `dtoi` reads a run of digits whose value stays below `big`. -/
theorem dtoiLoop_digits (ds : List Char) (n i : Nat)
    (digits : ∀ c ∈ ds, '0' ≤ c ∧ c ≤ '9') (small : digitsValue n ds < big) :
    dtoiLoop ds n i = (digitsValue n ds, i + ds.length, decide (i + ds.length ≠ 0)) := by
  induction ds generalizing n i with
  | nil => rfl
  | cons d ds ih =>
      rw [digitsValue_cons] at small ⊢
      rw [dtoiLoop, if_pos (digits d (List.mem_cons_self _ _)),
        if_neg (Nat.not_le.mpr (Nat.lt_of_le_of_lt (le_digitsValue _ ds) small)),
        ih _ _ (fun c member => digits c (List.mem_cons_of_mem _ member)) small,
        List.length_cons, Nat.add_right_comm i 1 ds.length, Nat.add_assoc i]

/-- `dtoi` reads back the decimal text of a value below `big`. -/
theorem dtoi_toString {n : Nat} (bound : n < big) :
    dtoi (toString n).toList = (n, (toString n).length, true) := by
  have text := fieldText_toString n
  have length : (toString n).length = (toString n).toList.length := rfl
  rw [length]
  generalize (toString n).toList = ds at text ⊢
  match ds, text with
  | d :: ds, ⟨digits, _, value⟩ =>
      rw [dtoi, dtoiLoop_digits _ 0 0 digits (value ▸ bound), value]
      simp

/-- `ParseCIDR` of the dotted-decimal text of four bytes, a slash and a prefix length of at most
32: the bytes masked to the prefix, and the prefix's mask. -/
theorem parseCIDR_string4 (w x y z : UInt8) {n : Nat} (bound : n ≤ 32) :
    parseCIDR (string4 [w, x, y, z] ++ "/" ++ toString n) =
      .ok ⟨IP.mask (v4InV6Prefix ++ [w, x, y, z]) (cidrMask n 32), cidrMask n 32⟩ := by
  have chars : (string4 [w, x, y, z] ++ "/" ++ toString n).toList =
      (string4 [w, x, y, z]).toList ++ '/' :: (toString n).toList := by
    simp [String.toList]
  have noSlash : ∀ c ∈ (string4 [w, x, y, z]).toList, decide (c ≠ '/') = true :=
    fun c member => decide_eq_true (ne_slash_of_mem_string4 w x y z c member)
  unfold parseCIDR
  rw [chars, List.span_eq_take_drop, List.takeWhile_append_of_pos noSlash,
    List.dropWhile_append_of_pos noSlash, List.takeWhile_cons_of_neg (by simp),
    List.dropWhile_cons_of_neg (by simp), List.append_nil]
  simp only [parseAddr_string4,
    dtoi_toString (Nat.lt_of_le_of_lt bound (by decide : 32 < big))]
  rw [if_neg]
  · rfl
  · simp only [not_true_eq_false, false_or, not_or, not_lt, bound, and_true, not_not]
    rfl

/-! ## Masks and networks -/

theorem string_ipv4 (a : Nat) : (ipv4 a).string = string4 (ipv4 a) := by
  simp [IP.string, IPv4len]

/-- The text of an IPv4 network of prefix at most 32: its dotted-decimal address, a slash and
the prefix length. -/
theorem string_ipv4_cidrMask (a : Nat) {n : Nat} (bound : n ≤ 32) :
    IPNet.string ⟨ipv4 a, cidrMask n 32⟩ = string4 (ipv4 a) ++ "/" ++ toString n := by
  rw [IPNet.string, networkNumberAndMask_ipv4 a bound]
  simp only [simpleMaskLength_cidrMask bound, string_ipv4]

theorem ipv4_eq_four (a : Nat) : ∃ w x y z, ipv4 a = [w, x, y, z] := by
  have four := length_ipv4 a
  generalize ipv4 a = ip at four ⊢
  match ip, four with
  | [w, x, y, z], _ => exact ⟨w, x, y, z, rfl⟩

/-- `ParseCIDR` reads the text of an IPv4 network back, with the host bits cleared. -/
theorem parseCIDR_string_ipv4 (a : Nat) {n : Nat} (bound : n ≤ 32) :
    parseCIDR (IPNet.string ⟨ipv4 a, cidrMask n 32⟩) =
      .ok ⟨ipv4 (a % 2 ^ 32 / 2 ^ (32 - n) * 2 ^ (32 - n)), cidrMask n 32⟩ := by
  obtain ⟨w, x, y, z, bytes⟩ := ipv4_eq_four a
  rw [string_ipv4_cidrMask a bound, bytes, parseCIDR_string4 w x y z bound, ← bytes,
    mask_v4InV6Prefix a bound]

/-! ## What `ParseCIDR` accepts -/

theorem length_maskBytes (l n : Nat) : (maskBytes l n).length = l := by
  induction l generalizing n with
  | zero => rfl
  | succ l ih => unfold maskBytes; split <;> simp [ih]

/-- `parseIPv4Fields` gives four bytes, whenever it succeeds from at most three fields. -/
theorem length_parseIPv4Fields {s : List Char} {prev : Option Char} {val digLen : Nat}
    {fields out : List UInt8} (parsed : parseIPv4Fields s prev val digLen fields = some out)
    (room : fields.length ≤ 3) : out.length = 4 := by
  induction s generalizing prev val digLen fields with
  | nil =>
      unfold parseIPv4Fields at parsed
      split at parsed
      · cases parsed
      · cases parsed
        simp only [List.length_append, List.length_singleton]
        omega
  | cons c cs ih =>
      unfold parseIPv4Fields at parsed
      dsimp only at parsed
      split_ifs at parsed
      all_goals first
        | cases parsed
        | exact ih parsed room
        | exact ih parsed (by simp only [List.length_append, List.length_singleton]; omega)

/-- What `parseAddr` returns: four bytes after the IPv4 prefix, of bit length 32, or an IPv6
address of bit length 128. -/
theorem parseAddr_eq_some {s : List Char} {addr : IP} {bitLen : Nat}
    (parsed : parseAddr s = some (addr, bitLen)) :
    (bitLen = 32 ∧ ∃ v4 : IP, v4.length = 4 ∧ addr = v4InV6Prefix ++ v4) ∨
      bitLen = 128 := by
  unfold parseAddr at parsed
  split at parsed
  · obtain ⟨v4, fields, same⟩ := Option.map_eq_some'.mp parsed
    cases same
    exact Or.inl ⟨rfl, v4, length_parseIPv4Fields fields (by simp), rfl⟩
  · split at parsed
    · cases parsed
    · obtain ⟨ip, -, same⟩ := Option.map_eq_some'.mp parsed
      cases same
      exact Or.inr rfl
  · cases parsed

/-- A network that `ParseCIDR` reads with a four-byte mask is an IPv4 address with its host bits
cleared, and the mask of a prefix of at most 32 bits. -/
theorem parseCIDR_eq_ipv4 {s : String} {n : IPNet} (parsed : parseCIDR s = .ok n)
    (four : n.mask.length = IPv4len) :
    ∃ a len : Nat, len ≤ 32 ∧
      n = ⟨ipv4 (a % 2 ^ 32 / 2 ^ (32 - len) * 2 ^ (32 - len)), cidrMask len 32⟩ := by
  unfold parseCIDR at parsed
  generalize s.toList.span (· ≠ '/') = parts at parsed
  obtain ⟨addr, rest⟩ := parts
  dsimp only at parsed
  split at parsed
  · next mask addr16 bitLen found =>
      split at parsed
      · cases parsed
      · next refused =>
          obtain rfl := Except.ok.inj parsed
          rcases parseAddr_eq_some found with ⟨rfl, v4, length, rfl⟩ | rfl
          · refine ⟨v4.value, (dtoi mask).1, by omega, ?_⟩
            rw [← mask_v4InV6Prefix _ (by omega), ipv4_value length]
            rfl
          · simp only [cidrMask] at four
            rw [if_neg (by omega), if_neg (by omega), length_maskBytes] at four
            cases four
  · cases parsed

end Net

namespace V4

open Net

/-- The text of a block's network: its dotted-decimal address, a slash and its prefix length. -/
theorem Block.string_toIPNet (b : Block) :
    b.toIPNet.string = string4 (ipv4 b.addr) ++ "/" ++ toString b.len :=
  string_ipv4_cidrMask b.addr b.len_le

/-- `ParseCIDR` reads the text of a canonical block's network back as that network. -/
theorem Block.Canonical.parseCIDR_string {b : Block} (canonical : b.Canonical) :
    parseCIDR b.toIPNet.string = .ok b.toIPNet := by
  rw [Block.toIPNet, parseCIDR_string_ipv4 b.addr b.len_le, Nat.mod_eq_of_lt b.addr_lt]
  have aligned : b.addr / b.size * b.size = b.addr :=
    Nat.div_mul_cancel (Nat.dvd_of_mod_eq_zero canonical)
  rw [Block.size] at aligned
  rw [aligned]

/-- A network that `ParseCIDR` reads with a four-byte mask is the network of a canonical
block. -/
theorem parseCIDR_block {s : String} {n : IPNet} (parsed : parseCIDR s = .ok n)
    (four : n.mask.length = IPv4len) : ∃ S : Block, S.Canonical ∧ n = S.toIPNet := by
  obtain ⟨a, len, bound, rfl⟩ := parseCIDR_eq_ipv4 parsed four
  refine ⟨⟨_, len, div_mul_lt_two_pow a _, bound⟩, ?_, rfl⟩
  show a % 2 ^ 32 / 2 ^ (32 - len) * 2 ^ (32 - len) % 2 ^ (32 - len) = 0
  exact Nat.mul_mod_left _ _

/-- What `ParseCIDR` reads with a four-byte mask, `String` prints as dotted-decimal text that
`ParseCIDR` reads back as the same network. -/
theorem parseCIDR_string_roundTrip {s : String} {n : IPNet} (parsed : parseCIDR s = .ok n)
    (four : n.mask.length = IPv4len) :
    parseCIDR n.string = .ok n ∧
      ∃ b : Block, n = b.toIPNet ∧
        n.string = string4 (ipv4 b.addr) ++ "/" ++ toString b.len := by
  obtain ⟨b, canonical, rfl⟩ := parseCIDR_block parsed four
  exact ⟨canonical.parseCIDR_string, b, rfl, b.string_toIPNet⟩

/-- "10.1.2.3/16" reads as 10.1.0.0/16, whose text reads back as itself. -/
theorem parseCIDR_string_roundTrip_16 :
    parseCIDR (⟨ipv4 0x0A010000, cidrMask 16 32⟩ : IPNet).string =
        .ok ⟨ipv4 0x0A010000, cidrMask 16 32⟩ ∧
      ∃ b : Block, (⟨ipv4 0x0A010000, cidrMask 16 32⟩ : IPNet) = b.toIPNet ∧
        (⟨ipv4 0x0A010000, cidrMask 16 32⟩ : IPNet).string =
          string4 (ipv4 b.addr) ++ "/" ++ toString b.len :=
  parseCIDR_string_roundTrip (s := "10.1.2.3/16") (by decide) (by decide)

end V4
end SliceIpam
