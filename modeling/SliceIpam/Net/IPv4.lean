import SliceIpam.Allocator.Helpers
import Mathlib.Data.Nat.Bitwise

/-!
# IPv4 addresses as numbers

An IPv4 address is four bytes, most significant first. This module reads the byte-level
functions of `net` and of the allocator's helpers on such addresses as arithmetic on their
32-bit values: `incIP` adds modulo `2^32`, `compareBytes` compares values, and `Contains`
and `IP.Mask` on a `CIDRMask(n, 32)` compare and clear the `32 - n` low bits.
-/

namespace SliceIpam
namespace Net

/-! ## Bytes and values -/

@[simp] theorem toNat_toUInt8 (a : Nat) : a.toUInt8.toNat = a % 256 := by
  simp [Nat.toUInt8, UInt8.ofNat, UInt8.toNat]

theorem toUInt8_toNat (b : UInt8) : b.toNat.toUInt8 = b :=
  UInt8.toNat.inj (by simp [Nat.mod_eq_of_lt (UInt8.toNat_lt_size b)])

theorem uint8_lt_iff (a b : UInt8) : a < b ↔ a.toNat < b.toNat := by
  simp [UInt8.lt_def, BitVec.lt_def, UInt8.toNat]

/-- The `n` low bytes of `a`, least significant first. -/
def bytesLE : Nat → Nat → List UInt8
  | 0, _ => []
  | n + 1, a => a.toUInt8 :: bytesLE n (a / 256)

/-- The value of bytes read least significant first. -/
def valueLE : List UInt8 → Nat
  | [] => 0
  | b :: bs => b.toNat + 256 * valueLE bs

/-- The value of an address, its bytes read most significant first. -/
def IP.value (ip : IP) : Nat :=
  valueLE ip.reverse

/-- The four bytes of the IPv4 address with value `a mod 2^32`. -/
def ipv4 (a : Nat) : IP :=
  (bytesLE 4 a).reverse

@[simp] theorem length_bytesLE (n a : Nat) : (bytesLE n a).length = n := by
  induction n generalizing a <;> simp [bytesLE, *]

@[simp] theorem length_ipv4 (a : Nat) : (ipv4 a).length = 4 := by
  simp [ipv4]

theorem valueLE_lt (l : List UInt8) : valueLE l < 256 ^ l.length := by
  induction l with
  | nil => simp [valueLE]
  | cons b bs ih =>
      have : b.toNat < 256 := UInt8.toNat_lt_size b
      simp only [valueLE, List.length_cons, pow_succ]
      omega

theorem valueLE_append (l l' : List UInt8) :
    valueLE (l ++ l') = valueLE l + 256 ^ l.length * valueLE l' := by
  induction l with
  | nil => simp [valueLE]
  | cons b bs ih =>
      rw [List.cons_append, valueLE, valueLE, ih, List.length_cons, pow_succ', Nat.mul_add,
        Nat.mul_assoc, Nat.add_assoc]

theorem valueLE_bytesLE (n a : Nat) : valueLE (bytesLE n a) = a % 256 ^ n := by
  induction n generalizing a with
  | zero => simp [bytesLE, valueLE, Nat.mod_one]
  | succ n ih => rw [bytesLE, valueLE, ih, toNat_toUInt8, pow_succ', Nat.mod_mul]

theorem bytesLE_valueLE (l : List UInt8) : bytesLE l.length (valueLE l) = l := by
  induction l with
  | nil => rfl
  | cons b bs ih =>
      have : b.toNat < 256 := UInt8.toNat_lt_size b
      simp only [List.length_cons, bytesLE, valueLE]
      congr 1
      · exact UInt8.toNat.inj (by simp; omega)
      · rw [show (b.toNat + 256 * valueLE bs) / 256 = valueLE bs by omega, ih]

theorem bytesLE_mod (n a : Nat) : bytesLE n (a % 256 ^ n) = bytesLE n a := by
  induction n generalizing a with
  | zero => rfl
  | succ n ih =>
      simp only [bytesLE]
      congr 1
      · exact UInt8.toNat.inj (by simp [pow_succ', Nat.mod_mul_right_mod])
      · rw [pow_succ', Nat.mod_mul_right_div_self, ih]

theorem value_ipv4 (a : Nat) : (ipv4 a).value = a % 2 ^ 32 := by
  simp [IP.value, ipv4, valueLE_bytesLE]

theorem ipv4_mod (a : Nat) : ipv4 (a % 2 ^ 32) = ipv4 a := by
  simp only [ipv4]
  rw [show (2 : Nat) ^ 32 = 256 ^ 4 from rfl, bytesLE_mod]

theorem ipv4_value {ip : IP} (length : ip.length = 4) : ipv4 ip.value = ip := by
  have := bytesLE_valueLE ip.reverse
  rw [List.length_reverse, length] at this
  rw [ipv4, IP.value, this, List.reverse_reverse]

theorem ipv4_eq_ipv4 (a b : Nat) : ipv4 a = ipv4 b ↔ a % 2 ^ 32 = b % 2 ^ 32 := by
  constructor
  · intro equal
    rw [← value_ipv4, ← value_ipv4, equal]
  · intro equal
    rw [← ipv4_mod, equal, ipv4_mod]

/-! ## Increment

The carry loop of `incIP` stops as soon as the carry is `0`. `incBytesWithoutBreak` is the same
loop run over every byte; the two agree on every carry, and the arithmetic is proved once, about
the loop without the exit.
-/

@[simp] theorem length_incBytes (l : List UInt8) (carry : Int) :
    (incBytes l carry).length = l.length := by
  induction l generalizing carry with
  | nil => rfl
  | cons b bs ih => unfold incBytes; split <;> simp [ih]

/-- The carry loop of `incIP` without its early exit: every byte takes `sum % 256` and passes
`sum / 256` on, also once the carry is `0`. -/
def incBytesWithoutBreak : List UInt8 → Int → List UInt8
  | [], _ => []
  | b :: bs, carry =>
      let sum := (b.toNat : Int) + carry
      byteOfInt (sum.tmod 256) :: incBytesWithoutBreak bs (sum.tdiv 256)

/-- `incIP` with the carry loop run over every byte. -/
def incIPWithoutBreak (ip : IP) (inc : Int) : IP :=
  (incBytesWithoutBreak (copyIP ip).reverse inc).reverse

theorem tmod_256 (x : Nat) : (x : Int).tmod 256 = (x % 256 : Nat) := (Int.ofNat_tmod x 256).symm

theorem tdiv_256 (x : Nat) : (x : Int).tdiv 256 = (x / 256 : Nat) := (Int.ofNat_tdiv x 256).symm

@[simp] theorem byteOfInt_natCast (x : Nat) : byteOfInt x = x.toUInt8 := by
  apply UInt8.toNat.inj
  simp [byteOfInt]
  omega

/-- A zero carry leaves every byte as it is. -/
theorem incBytesWithoutBreak_zero (l : List UInt8) : incBytesWithoutBreak l 0 = l := by
  induction l with
  | nil => rfl
  | cons b bs ih =>
      have small := UInt8.toNat_lt_size b
      simp [incBytesWithoutBreak, tmod_256, tdiv_256, Nat.div_eq_of_lt small,
        Nat.mod_eq_of_lt small, toUInt8_toNat, ih]

/-- The early exit returns what the remaining iterations would compute: with a zero carry they
change no byte. -/
theorem incBytes_eq_withoutBreak (l : List UInt8) (carry : Int) :
    incBytes l carry = incBytesWithoutBreak l carry := by
  induction l generalizing carry with
  | nil => rfl
  | cons b bs ih =>
      unfold incBytes
      split
      · next zero => rw [zero, incBytesWithoutBreak_zero]
      · simp only [incBytesWithoutBreak, ih]

/-- The carry loop adds its carry to the value, modulo the number of values the bytes hold. -/
theorem valueLE_incBytesWithoutBreak (l : List UInt8) (k : Nat) :
    valueLE (incBytesWithoutBreak l k) = (valueLE l + k) % 256 ^ l.length := by
  induction l generalizing k with
  | nil => simp [incBytesWithoutBreak, valueLE, Nat.mod_one]
  | cons b bs ih =>
      have sum : (b.toNat : Int) + k = ((b.toNat + k : Nat) : Int) := rfl
      rw [incBytesWithoutBreak, sum, tmod_256, tdiv_256, byteOfInt_natCast,
        valueLE, ih, valueLE, List.length_cons, pow_succ', Nat.mod_mul, toNat_toUInt8,
        show (b.toNat + 256 * valueLE bs + k) / 256 = valueLE bs + (b.toNat + k) / 256 by omega]
      omega

theorem valueLE_incBytes (l : List UInt8) (k : Nat) :
    valueLE (incBytes l k) = (valueLE l + k) % 256 ^ l.length := by
  rw [incBytes_eq_withoutBreak, valueLE_incBytesWithoutBreak]

/-- `incIP` keeps the length of the address and adds `n` to its big-endian value modulo
`256 ^ len`, and its early exit on a zero carry returns what the loop over every byte returns.
Go's `int` is `Int` here while `n < 2^62`: no sum of a byte and a carry reaches `2^63`. -/
theorem incIP_add_mod (ip : IP) (n : Nat) :
    (incIP ip n).length = ip.length ∧
      (incIP ip n).value = (ip.value + n) % 256 ^ ip.length ∧
      incIP ip n = incIPWithoutBreak ip n := by
  refine ⟨by simp [incIP], ?_, by rw [incIP, incIPWithoutBreak, incBytes_eq_withoutBreak]⟩
  rw [IP.value, incIP, List.reverse_reverse, copyIP_eq, valueLE_incBytes, List.length_reverse,
    IP.value]

example : incIP [192, 168, 1, 255] 1 = [192, 168, 2, 0] := by decide

theorem incIP_ipv4 (a k : Nat) : incIP (ipv4 a) k = ipv4 (a + k) := by
  have length : (incBytes (bytesLE 4 a) k).length = 4 := by simp
  have value := valueLE_incBytes (bytesLE 4 a) k
  rw [valueLE_bytesLE, length_bytesLE] at value
  have bytes : incBytes (bytesLE 4 a) k = bytesLE 4 (a + k) := by
    rw [← bytesLE_valueLE (incBytes _ _), length, value, ← bytesLE_mod 4 (a + k),
      Nat.mod_add_mod]
  rw [incIP, copyIP_eq, ipv4, List.reverse_reverse, bytes, ipv4]

/-! ## Order -/

theorem value_cons (b : UInt8) (bs : IP) :
    IP.value (b :: bs) = bs.value + 256 ^ bs.length * b.toNat := by
  simp [IP.value, valueLE_append, valueLE]

theorem value_lt (ip : IP) : ip.value < 256 ^ ip.length := by
  simpa [IP.value] using valueLE_lt ip.reverse

/-- Of two addresses of one length, the one with the smaller first byte has the smaller value. -/
theorem value_cons_lt {a b : UInt8} {as bs : IP} (length : as.length = bs.length)
    (less : a.toNat < b.toNat) : IP.value (a :: as) < IP.value (b :: bs) := by
  have lowA := value_lt as
  have high := Nat.mul_le_mul_left (256 ^ as.length) (Nat.succ_le_of_lt less)
  rw [Nat.mul_succ] at high
  rw [value_cons, value_cons, ← length]
  omega

/-- On addresses of one length, the byte loop of `compareIPs` compares values. -/
theorem compareBytes_eq (xs ys : IP) (length : xs.length = ys.length) :
    compareBytes xs ys =
      if xs.value < ys.value then -1 else if ys.value < xs.value then 1 else 0 := by
  induction xs generalizing ys with
  | nil =>
      cases ys with
      | nil => rfl
      | cons => simp at length
  | cons a as ih =>
      cases ys with
      | nil => simp at length
      | cons b bs =>
          simp only [List.length_cons, Nat.add_right_cancel_iff] at length
          rw [compareBytes]
          simp only [uint8_lt_iff]
          by_cases less : a.toNat < b.toNat
          · rw [if_pos less, if_pos (value_cons_lt length less)]
          · by_cases greater : b.toNat < a.toNat
            · have above := value_cons_lt length.symm greater
              rw [if_neg less, if_pos greater, if_neg (Nat.lt_asymm above), if_pos above]
            · have same : a = b := UInt8.toNat.inj (by omega)
              subst same
              rw [if_neg less, if_neg greater, ih bs length, value_cons, value_cons, length]
              simp only [Nat.add_lt_add_iff_right]

theorem IP.to4_of_length {ip : IP} (length : ip.length = 4) : ip.to4 = some ip := by
  simp [IP.to4, length, IPv4len]

@[simp] theorem to4_ipv4 (a : Nat) : (ipv4 a).to4 = some (ipv4 a) :=
  IP.to4_of_length (length_ipv4 a)

theorem compareIPs_ipv4 (a b : Nat) :
    compareIPs (ipv4 a) (ipv4 b) =
      if a % 2 ^ 32 < b % 2 ^ 32 then -1 else if b % 2 ^ 32 < a % 2 ^ 32 then 1 else 0 := by
  simp only [compareIPs, to4_ipv4]
  rw [compareBytes_eq _ _ (by simp), value_ipv4, value_ipv4]

theorem equal_ipv4 (a b : Nat) : (ipv4 a).equal (ipv4 b) = decide (a % 2 ^ 32 = b % 2 ^ 32) := by
  simp [IP.equal, ipv4_eq_ipv4]

/-! ## Masks -/

/-- The value of `CIDRMask(n, 32)`: `n` one bits, then `32 - n` zero bits. -/
def maskValue (n : Nat) : Nat :=
  (2 ^ n - 1) <<< (32 - n)

theorem cidrMask_eq_ipv4 : ∀ n : Fin 33, cidrMask n 32 = ipv4 (maskValue n) := by
  decide

theorem cidrMask_ipv4 {n : Nat} (bound : n ≤ 32) : cidrMask n 32 = ipv4 (maskValue n) :=
  cidrMask_eq_ipv4 ⟨n, by omega⟩

@[simp] theorem length_cidrMask {n : Nat} (bound : n ≤ 32) : (cidrMask n 32).length = 4 := by
  rw [cidrMask_ipv4 bound, length_ipv4]

/-- The partial byte of a mask, with `n < 8` leading ones, is not `0xff`, and `leadingOnes`
counts its ones and shifts them all out. -/
theorem leadingOnes_partialByte : ∀ n : Fin 8,
    ~~~((0xff : UInt8) >>> n.val.toUInt8) ≠ 0xff ∧
      leadingOnes 8 (~~~((0xff : UInt8) >>> n.val.toUInt8)) = (n.val, 0) := by
  decide

theorem any_maskBytes_zero (l : Nat) : (maskBytes l 0).any (· ≠ 0) = false := by
  induction l with
  | zero => rfl
  | succ l ih =>
      rw [maskBytes, if_neg (by omega), List.any_cons, ih]
      decide

/-- `simpleMaskLength` counts the leading ones of the mask `maskBytes` builds. -/
theorem simpleMaskLength_maskBytes {l n : Nat} (bound : n ≤ 8 * l) :
    simpleMaskLength (maskBytes l n) = some n := by
  induction l generalizing n with
  | zero => rw [show n = 0 by omega]; rfl
  | succ l ih =>
      rw [maskBytes]
      split
      · next full =>
          rw [simpleMaskLength, if_pos rfl, ih (by omega), Option.map_some',
            Nat.sub_add_cancel full]
      · next short =>
          obtain ⟨notFull, ones⟩ := leadingOnes_partialByte ⟨n, by omega⟩
          rw [simpleMaskLength, if_neg notFull]
          simp only [ones, any_maskBytes_zero]
          rfl

theorem simpleMaskLength_cidrMask {n : Nat} (bound : n ≤ 32) :
    simpleMaskLength (cidrMask n 32) = some n := by
  rw [cidrMask, if_neg (by decide), if_neg (by omega)]
  exact simpleMaskLength_maskBytes (l := 4) (by omega)

@[simp] theorem size_cidrMask {n : Nat} (bound : n ≤ 32) : (cidrMask n 32).size = (n, 32) := by
  simp only [IPMask.size, simpleMaskLength_cidrMask bound, length_cidrMask bound]

theorem and_mod_two_pow (a m k : Nat) : a % 2 ^ k &&& m % 2 ^ k = (a &&& m) % 2 ^ k :=
  Nat.eq_of_testBit_eq fun i => by
    simp only [Nat.testBit_and, Nat.testBit_mod_two_pow]
    cases decide (i < k) <;> simp

theorem toUInt8_and (a m : Nat) : a.toUInt8 &&& m.toUInt8 = (a &&& m).toUInt8 := by
  apply UInt8.toNat.inj
  rw [UInt8.and_toNat, toNat_toUInt8, toNat_toUInt8, toNat_toUInt8]
  exact and_mod_two_pow a m 8

theorem and_div_256 (a m : Nat) : (a &&& m) / 256 = a / 256 &&& m / 256 := by
  rw [show (256 : Nat) = 2 ^ 8 from rfl, ← Nat.shiftRight_eq_div_pow,
    ← Nat.shiftRight_eq_div_pow, ← Nat.shiftRight_eq_div_pow]
  exact Nat.eq_of_testBit_eq fun i => by simp

theorem zipWith_and_bytesLE (n a m : Nat) :
    List.zipWith (· &&& ·) (bytesLE n a) (bytesLE n m) = bytesLE n (a &&& m) := by
  induction n generalizing a m with
  | zero => rfl
  | succ n ih => simp only [bytesLE, List.zipWith_cons_cons, toUInt8_and, ih, and_div_256]

theorem andBytes_ipv4 (a m : Nat) : andBytes (ipv4 a) (ipv4 m) = ipv4 (a &&& m) := by
  rw [andBytes, ipv4, ipv4, ← List.reverse_zipWith (by simp), zipWith_and_bytesLE, ipv4]

theorem and_maskValue (a : Nat) {n : Nat} (bound : n ≤ 32) :
    a &&& maskValue n = a % 2 ^ 32 / 2 ^ (32 - n) * 2 ^ (32 - n) := by
  have split : (2 : Nat) ^ 32 = 2 ^ (32 - n) * 2 ^ n := by rw [← Nat.pow_add]; congr 1; omega
  rw [split, Nat.mod_mul_right_div_self, ← Nat.shiftRight_eq_div_pow, ← Nat.shiftLeft_eq,
    maskValue]
  apply Nat.eq_of_testBit_eq
  intro i
  simp only [Nat.testBit_and, Nat.testBit_shiftLeft, Nat.testBit_two_pow_sub_one,
    Nat.testBit_mod_two_pow, Nat.testBit_shiftRight]
  by_cases high : 32 - n ≤ i
  · rw [show 32 - n + (i - (32 - n)) = i by omega, Bool.and_comm]
    simp [high]
  · simp [high]

/-- A `CIDRMask(n, 32)` clears the `32 - n` low bits of an address. -/
theorem andBytes_ipv4_cidrMask (a : Nat) {n : Nat} (bound : n ≤ 32) :
    andBytes (ipv4 a) (cidrMask n 32) = ipv4 (a % 2 ^ 32 / 2 ^ (32 - n) * 2 ^ (32 - n)) := by
  rw [cidrMask_ipv4 bound, andBytes_ipv4, and_maskValue a bound]

theorem mask_ipv4 (a : Nat) {n : Nat} (bound : n ≤ 32) :
    (ipv4 a).mask (cidrMask n 32) = ipv4 (a % 2 ^ 32 / 2 ^ (32 - n) * 2 ^ (32 - n)) := by
  simp [IP.mask, length_cidrMask bound, IPv4len, IPv6len, andBytes_ipv4_cidrMask a bound]

theorem mask_v4InV6Prefix (a : Nat) {n : Nat} (bound : n ≤ 32) :
    IP.mask (v4InV6Prefix ++ ipv4 a) (cidrMask n 32) =
      ipv4 (a % 2 ^ 32 / 2 ^ (32 - n) * 2 ^ (32 - n)) := by
  simp [IP.mask, length_cidrMask bound, IPv4len, IPv6len, v4InV6Prefix,
    andBytes_ipv4_cidrMask a bound]

theorem div_mul_lt_two_pow (a : Nat) (k : Nat) : a % 2 ^ 32 / 2 ^ k * 2 ^ k < 2 ^ 32 :=
  Nat.lt_of_le_of_lt (Nat.div_mul_le_self _ _) (Nat.mod_lt _ (by decide))

theorem networkNumberAndMask_ipv4 (a : Nat) {n : Nat} (bound : n ≤ 32) :
    networkNumberAndMask ⟨ipv4 a, cidrMask n 32⟩ = some (ipv4 a, cidrMask n 32) := by
  simp [networkNumberAndMask, length_cidrMask bound, IPv4len]

/-- `Contains` on an IPv4 network: the address lies in the network's block of `2^(32-n)`. -/
theorem contains_ipv4 (a x : Nat) {n : Nat} (bound : n ≤ 32) :
    IPNet.contains ⟨ipv4 a, cidrMask n 32⟩ (ipv4 x) =
      decide (x % 2 ^ 32 / 2 ^ (32 - n) = a % 2 ^ 32 / 2 ^ (32 - n)) := by
  rw [IPNet.contains, networkNumberAndMask_ipv4 a bound]
  simp only [Option.getD_some, to4_ipv4, length_ipv4, true_and,
    andBytes_ipv4_cidrMask _ bound, ipv4_eq_ipv4,
    Nat.mod_eq_of_lt (div_mul_lt_two_pow _ _)]
  simp only [Nat.mul_left_inj (Nat.two_pow_pos _).ne', eq_comm]

/-! ## Shifts -/

theorem shiftOne_of_le {n : Nat} (bound : n ≤ 32) :
    shiftOne (32 - (n : Int)) = ((2 ^ (32 - n) : Nat) : Int) := by
  rw [shiftOne, if_pos (by omega), show (32 - (n : Int)).toNat = 32 - n by omega]
  push_cast
  rfl

end Net
end SliceIpam
