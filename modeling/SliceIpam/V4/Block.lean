import SliceIpam.Net.IPv4

/-!
# IPv4 blocks

On IPv4 the allocator's networks are blocks: a 32-bit address and a prefix length. This module
states what the byte-level `compareIPNets`, `tryMerge` and `IPNet.Contains` compute on the
network `Block.toIPNet` of a block. A block covers the `2^(32 - len)` addresses from its address
on, as the spec reads a CIDR block; it is canonical when its address has no host bits. `tryMerge`
builds blocks that are not canonical, so canonicity is a property and not a field.
-/

namespace SliceIpam
namespace V4

open Net

/-- An IPv4 CIDR block: an address below `2^32` and a prefix length of at most 32. -/
structure Block where
  addr : Nat
  len : Nat
  addr_lt : addr < 2 ^ 32
  len_le : len ≤ 32

namespace Block

instance : DecidableEq Block := fun a b =>
  decidable_of_iff (a.addr = b.addr ∧ a.len = b.len) (by
    constructor
    · rintro ⟨sameAddr, sameLen⟩
      cases a; cases b; cases sameAddr; cases sameLen; rfl
    · rintro rfl; exact ⟨rfl, rfl⟩)

theorem ext {a b : Block} (sameAddr : a.addr = b.addr) (sameLen : a.len = b.len) : a = b := by
  cases a; cases b; cases sameAddr; cases sameLen; rfl

/-- The number of addresses of the block. -/
def size (b : Block) : Nat :=
  2 ^ (32 - b.len)

/-- The `net.IPNet` the block stands for. -/
def toIPNet (b : Block) : IPNet :=
  ⟨ipv4 b.addr, cidrMask b.len 32⟩

@[simp] theorem toIPNet_ip (b : Block) : b.toIPNet.ip = ipv4 b.addr := rfl

@[simp] theorem toIPNet_mask (b : Block) : b.toIPNet.mask = cidrMask b.len 32 := rfl

/-- `x` is one of the `2^(32 - len)` addresses from the block's address on. This is what the
block means when it is canonical; `IPNet.Contains` reads a block with host bits as the aligned
block of its prefix that holds its address (`contains`), and the two agree only on canonical
blocks (`Canonical.contains_eq`). -/
def Mem (b : Block) (x : Nat) : Prop :=
  b.addr ≤ x ∧ x < b.addr + b.size

instance (b : Block) (x : Nat) : Decidable (b.Mem x) :=
  inferInstanceAs (Decidable (_ ∧ _))

/-- The block's address has no host bits. -/
def Canonical (b : Block) : Prop :=
  b.addr % b.size = 0

instance (b : Block) : Decidable b.Canonical :=
  inferInstanceAs (Decidable (_ = _))

/-- `IPNet.Contains` on IPv4: `x` has the block's network bits. -/
def contains (b : Block) (x : Nat) : Bool :=
  decide (x / b.size = b.addr / b.size)

/-- `compareIPNets` on IPv4 blocks. -/
def compare (a b : Block) : Int :=
  if a.addr < b.addr then -1
  else if b.addr < a.addr then 1
  else if a.len < b.len then 1
  else if b.len < a.len then -1
  else 0

/-- The strict order of `compareIPNets`: by address, then the smaller block (longer prefix)
first. -/
def Lt (a b : Block) : Prop :=
  a.addr < b.addr ∨ (a.addr = b.addr ∧ b.len < a.len)

/-- The order `sortFreeBlocks` sorts by. -/
def Le (a b : Block) : Prop :=
  a.addr < b.addr ∨ (a.addr = b.addr ∧ b.len ≤ a.len)

instance : DecidableRel Le := fun _ _ =>
  inferInstanceAs (Decidable (_ ∨ _))

/-- `tryMerge` on IPv4 blocks: `b` starts where `a` ends (modulo `2^32`), both have one prefix
length of at least 1, and the merged block keeps `a`'s address. -/
def tryMerge (a b : Block) : Option Block :=
  if h : a.len = b.len ∧ 1 ≤ a.len ∧ (a.addr + a.size) % 2 ^ 32 = b.addr then
    some ⟨a.addr, a.len - 1, a.addr_lt, by have := a.len_le; omega⟩
  else none

/-! ## Arithmetic -/

theorem size_pos (b : Block) : 0 < b.size :=
  Nat.two_pow_pos _

theorem mem_addr (b : Block) : b.Mem b.addr :=
  ⟨le_rfl, Nat.lt_add_of_pos_right b.size_pos⟩

/-- A canonical block ends at most at `2^32`. -/
theorem Canonical.end_le {b : Block} (canonical : b.Canonical) : b.addr + b.size ≤ 2 ^ 32 := by
  obtain ⟨k, hk⟩ := Nat.dvd_of_mod_eq_zero canonical
  obtain ⟨m, hm⟩ : b.size ∣ 2 ^ 32 := Nat.pow_dvd_pow 2 (Nat.sub_le _ _)
  have := b.addr_lt
  rw [hk, hm] at this ⊢
  have : k + 1 ≤ m := Nat.lt_of_mul_lt_mul_left this
  calc b.size * k + b.size = b.size * (k + 1) := (Nat.mul_succ _ _).symm
    _ ≤ b.size * m := Nat.mul_le_mul_left _ this

/-- Division by the size finds the aligned block of an address. -/
theorem div_size_eq_iff (b : Block) (x k : Nat) :
    x / b.size = k ↔ k * b.size ≤ x ∧ x < k * b.size + b.size := by
  have pos := b.size_pos
  rw [← Nat.succ_mul, ← Nat.le_div_iff_mul_le pos, ← Nat.div_lt_iff_lt_mul pos]
  omega

/-- On a canonical block `Contains` is membership. -/
theorem Canonical.contains_eq {b : Block} (canonical : b.Canonical) (x : Nat) :
    b.contains x = decide (b.Mem x) := by
  have aligned : b.addr / b.size * b.size = b.addr :=
    Nat.div_mul_cancel (Nat.dvd_of_mod_eq_zero canonical)
  rw [contains, decide_eq_decide, div_size_eq_iff, aligned, Mem]

/-- In a canonical block, an address is a member when it falls in the block's aligned slot. -/
theorem Canonical.mem_iff {b : Block} (canonical : b.Canonical) (x : Nat) :
    b.Mem x ↔ x / b.size = b.addr / b.size :=
  (decide_eq_decide.mp (canonical.contains_eq x)).symm

/-- Aligned slots nest: a canonical block holds every address that `Contains` finds in a block
of a prefix no shorter that shares an address with it. -/
theorem Canonical.mem_of_contains {S b : Block} (canonical : S.Canonical)
    (shorter : S.len ≤ b.len) {x : Nat} (inS : S.Mem x) (xInB : b.contains x = true) {y : Nat}
    (yInB : b.contains y = true) : S.Mem y := by
  have split : S.size = b.size * 2 ^ (b.len - S.len) := by
    rw [size, size, ← Nat.pow_add]
    congr 1
    have := b.len_le
    omega
  rw [canonical.mem_iff] at inS ⊢
  rw [contains, decide_eq_true_eq] at xInB yInB
  calc y / S.size = y / b.size / 2 ^ (b.len - S.len) := by rw [split, Nat.div_div_eq_div_mul]
    _ = x / b.size / 2 ^ (b.len - S.len) := by rw [yInB, xInB]
    _ = x / S.size := by rw [split, Nat.div_div_eq_div_mul]
    _ = S.addr / S.size := inS

/-! ## The order of `compareIPNets` -/

theorem compare_eq_neg_one_iff (a b : Block) : a.compare b = -1 ↔ a.Lt b := by
  unfold compare Lt
  split_ifs <;> simp <;> omega

theorem compare_nonpos_iff (a b : Block) : a.compare b ≤ 0 ↔ a.Le b := by
  unfold compare Le
  split_ifs <;> simp <;> omega

/-- `compareIPNets(a, b) < 0`, the `less` of `Reclaim`'s sort, is `Lt` on blocks. -/
theorem compare_neg_iff (a b : Block) : a.compare b < 0 ↔ a.Lt b := by
  rw [← compare_eq_neg_one_iff]
  unfold compare
  split_ifs <;> decide

theorem not_lt_iff_le (a b : Block) : ¬ b.Lt a ↔ a.Le b := by
  unfold Lt Le
  omega

theorem Lt.le {a b : Block} (less : a.Lt b) : a.Le b := by
  unfold Lt at less; unfold Le; omega

theorem Lt.trans_le {a b c : Block} (less : a.Lt b) (le : b.Le c) : a.Lt c := by
  unfold Lt at *; unfold Le at le; omega

theorem Le.trans {a b c : Block} (first : a.Le b) (second : b.Le c) : a.Le c := by
  unfold Le at *; omega

/-- `a` ends at or before the address where `b` starts. -/
def Before (a b : Block) : Prop :=
  a.addr + a.size ≤ b.addr

instance (a b : Block) : Decidable (a.Before b) :=
  inferInstanceAs (Decidable (_ ≤ _))

theorem Before.lt {a b : Block} (before : a.Before b) : a.Lt b :=
  Or.inl (Nat.lt_of_lt_of_le (Nat.lt_add_of_pos_right a.size_pos) before)

instance : IsTotal Block Le :=
  ⟨fun a b => by unfold Le; omega⟩

instance : IsTrans Block Le :=
  ⟨fun _ _ _ => Le.trans⟩

instance : IsAntisymm Block Le :=
  ⟨fun a b first second => by unfold Le at first second; exact ext (by omega) (by omega)⟩

/-! ## Merging -/

theorem tryMerge_eq_some {a b m : Block} :
    a.tryMerge b = some m ↔
      a.len = b.len ∧ 1 ≤ a.len ∧ (a.addr + a.size) % 2 ^ 32 = b.addr ∧
        m.addr = a.addr ∧ m.len = a.len - 1 := by
  unfold tryMerge
  split
  · next adjacent =>
      constructor
      · rintro ⟨⟩
        exact ⟨adjacent.1, adjacent.2.1, adjacent.2.2, rfl, rfl⟩
      · rintro ⟨-, -, -, sameAddr, sameLen⟩
        exact congrArg some (ext sameAddr.symm sameLen.symm)
  · next apart => simp only [reduceCtorEq, false_iff]; tauto

/-- Blocks of two prefix lengths never merge. -/
theorem tryMerge_eq_none_of_len_ne {a b : Block} (different : a.len ≠ b.len) :
    a.tryMerge b = none := by
  cases merge : a.tryMerge b with
  | none => rfl
  | some m => exact absurd (tryMerge_eq_some.mp merge).1 different

/-- In a list sorted by address, a merge joins a block with the block right after it, and the
merged block covers both. -/
theorem tryMerge_adjacent {a b m : Block} (merge : a.tryMerge b = some m)
    (ordered : a.addr ≤ b.addr) :
    b.addr = a.addr + a.size ∧ b.len = a.len ∧ m.addr = a.addr ∧ m.size = 2 * a.size := by
  obtain ⟨sameLen, positive, next, mAddr, mLen⟩ := tryMerge_eq_some.mp merge
  have small : a.size ≤ 2 ^ 31 := Nat.pow_le_pow_right (by decide) (by omega)
  have := a.addr_lt
  have adjacent : b.addr = a.addr + a.size := by
    rw [← next]
    rcases Nat.lt_or_ge (a.addr + a.size) (2 ^ 32) with inRange | over
    · exact Nat.mod_eq_of_lt inRange
    · rw [Nat.mod_eq_sub_mod over, Nat.mod_eq_of_lt (by omega)] at next
      omega
  refine ⟨adjacent, sameLen.symm, mAddr, ?_⟩
  rw [size, size, mLen, show 32 - (a.len - 1) = (32 - a.len) + 1 by have := a.len_le; omega,
    Nat.pow_succ, Nat.mul_comm]

/-! ## The byte-level functions on blocks -/

@[simp] theorem size_toIPNet_mask (b : Block) : b.toIPNet.mask.size = (b.len, 32) :=
  size_cidrMask b.len_le

theorem toIPNet_injective {a b : Block} (same : a.toIPNet = b.toIPNet) : a = b := by
  simp only [toIPNet, IPNet.mk.injEq] at same
  have sameLen := congrArg (fun m : IPMask => m.size.1) same.2
  simp only [size_cidrMask a.len_le, size_cidrMask b.len_le] at sameLen
  have sameAddr := (ipv4_eq_ipv4 _ _).mp same.1
  rw [Nat.mod_eq_of_lt a.addr_lt, Nat.mod_eq_of_lt b.addr_lt] at sameAddr
  exact ext sameAddr sameLen

theorem contains_toIPNet (b : Block) {x : Nat} (inRange : x < 2 ^ 32) :
    b.toIPNet.contains (ipv4 x) = b.contains x := by
  rw [toIPNet, contains_ipv4 _ _ b.len_le, Nat.mod_eq_of_lt inRange,
    Nat.mod_eq_of_lt b.addr_lt, contains, size]

theorem compareIPNets_toIPNet (a b : Block) :
    compareIPNets a.toIPNet b.toIPNet = a.compare b := by
  simp only [compareIPNets, toIPNet, compareIPs_ipv4, Nat.mod_eq_of_lt a.addr_lt,
    Nat.mod_eq_of_lt b.addr_lt, size_cidrMask a.len_le, size_cidrMask b.len_le, compare,
    Int.ofNat_lt]
  rcases Nat.lt_trichotomy a.addr b.addr with less | same | greater
  · simp [less]
  · simp [same]
  · simp [greater, Nat.not_lt.mpr greater.le]

/-- The byte-level `tryMerge` computes `Block.tryMerge` on blocks. -/
theorem tryMerge_toIPNet (a b : Block) :
    SliceIpam.tryMerge a.toIPNet b.toIPNet = (a.tryMerge b).map toIPNet := by
  have := a.len_le
  simp only [SliceIpam.tryMerge, toIPNet, to4_ipv4, reduceCtorEq, or_self, if_false,
    size_cidrMask a.len_le, size_cidrMask b.len_le]
  unfold tryMerge
  by_cases sameLen : a.len = b.len
  · by_cases positive : 1 ≤ a.len
    · rw [if_neg (by omega), if_neg (by omega), copyIP_eq,
        shiftOne_of_le a.len_le, incIP_ipv4, equal_ipv4, Nat.mod_eq_of_lt b.addr_lt]
      by_cases adjacent : (a.addr + 2 ^ (32 - a.len)) % 2 ^ 32 = b.addr
      · rw [decide_eq_true adjacent, if_pos rfl, dif_pos ⟨sameLen, positive, adjacent⟩]
        simp only [Option.map_some', toIPNet, Option.some.injEq, IPNet.mk.injEq, true_and]
        congr 1
        omega
      · rw [decide_eq_false adjacent, if_neg (by simp), dif_neg (by simp [size]; tauto)]
        rfl
    · rw [if_neg (by omega), if_pos (by omega), dif_neg (by omega)]
      rfl
  · rw [if_pos (by omega), dif_neg (by omega)]
    rfl

end Block

end V4
end SliceIpam
