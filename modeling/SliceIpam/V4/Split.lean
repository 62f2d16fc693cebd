import SliceIpam.V4.Block
import SliceIpam.Allocator.Pool

/-!
# First fit and the split of a block

The first-fit scan and the split loop of `allocateSubnetForPool`, read on IPv4 blocks. Splitting
`B = (b, f)` for a request of prefix `r` hands out `(b, r)` and leaves, for each prefix `p` from
`r` down to `f + 1`, the block of prefix `p` at `b + 2^(32-p)`: each is the upper half of
`(b, p - 1)`, so together with `(b, r)` they tile `B`. The code keeps a remainder only when
`B.Contains` its address, which on a canonical `B` keeps them all.
-/

namespace SliceIpam
namespace V4

open Net

/-- Addresses of a list of blocks counted with multiplicity: how many blocks cover `x`. -/
def cover (blocks : List Block) (x : Nat) : Nat :=
  blocks.countP fun b => decide (b.Mem x)

@[simp] theorem cover_nil (x : Nat) : cover [] x = 0 := rfl

@[simp] theorem cover_cons (b : Block) (blocks : List Block) (x : Nat) :
    cover (b :: blocks) x = (if b.Mem x then 1 else 0) + cover blocks x := by
  simp only [cover, List.countP_cons, decide_eq_true_eq]
  omega

@[simp] theorem cover_append (first second : List Block) (x : Nat) :
    cover (first ++ second) x = cover first x + cover second x :=
  List.countP_append _ _ _

/-! ## First fit -/

/-- The first-fit scan on blocks: the index of the first block of prefix at most `r`. -/
def firstFit (r : Nat) : List Block → Option (Nat × Block)
  | [] => none
  | b :: rest =>
      if b.len ≤ r then some (0, b) else (firstFit r rest).map fun found => (found.1 + 1, found.2)

/-- What the scan finds: the first block of prefix at most `r`, and its index. -/
theorem firstFit_eq_some {r i : Nat} {blocks : List Block} {B : Block}
    (found : firstFit r blocks = some (i, B)) :
    ∃ index : i < blocks.length, blocks[i] = B ∧ B.len ≤ r ∧
      ∀ j (before : j < i), r < (blocks.get ⟨j, Nat.lt_trans before index⟩).len := by
  induction blocks generalizing i with
  | nil => simp [firstFit] at found
  | cons b rest ih =>
      unfold firstFit at found
      split at found
      · next fits =>
          cases found
          exact ⟨by simp, rfl, fits, fun j before => absurd before (Nat.not_lt_zero j)⟩
      · next tooSmall =>
          obtain ⟨⟨k, C⟩, later, same⟩ := Option.map_eq_some'.mp found
          cases same
          obtain ⟨index, atK, fits, earlier⟩ := ih later
          refine ⟨by simpa using index, by simpa using atK, fits, fun j before => ?_⟩
          cases j with
          | zero => simpa using tooSmall
          | succ j => simpa using earlier j (by omega)

/-- Every block before the one the scan finds has a longer prefix than `r`. -/
theorem lt_len_of_mem_take {r i : Nat} {blocks : List Block} {B : Block}
    (found : firstFit r blocks = some (i, B)) : ∀ z ∈ blocks.take i, r < z.len := by
  induction blocks generalizing i with
  | nil => simp [firstFit] at found
  | cons b rest ih =>
      unfold firstFit at found
      split at found
      · cases found
        simp
      · next tooSmall =>
          obtain ⟨⟨k, C⟩, later, same⟩ := Option.map_eq_some'.mp found
          cases same
          intro z member
          rcases List.mem_cons.mp member with rfl | inRest
          · omega
          · exact ih later z inRest

theorem firstFit_eq_none {r : Nat} {blocks : List Block} (missing : firstFit r blocks = none) :
    ∀ b ∈ blocks, r < b.len := by
  induction blocks with
  | nil => simp
  | cons b rest ih =>
      unfold firstFit at missing
      split at missing
      · cases missing
      · next tooSmall =>
          intro c member
          rcases List.mem_cons.mp member with rfl | later
          · omega
          · exact ih (Option.map_eq_none'.mp missing) c later

theorem firstFit_eq_none_of_lt {r : Nat} {blocks : List Block}
    (small : ∀ b ∈ blocks, r < b.len) : firstFit r blocks = none := by
  induction blocks with
  | nil => rfl
  | cons b rest ih =>
      have tooSmall := small b (List.mem_cons_self _ _)
      rw [firstFit, if_neg (by omega), ih fun c member => small c (List.mem_cons_of_mem _ member)]
      rfl

/-- The scan finds the first block of prefix at most `r`. -/
theorem firstFit_of_first {r i : Nat} {blocks : List Block} (index : i < blocks.length)
    (fits : blocks[i].len ≤ r)
    (earlier : ∀ j (before : j < i), r < (blocks.get ⟨j, Nat.lt_trans before index⟩).len) :
    firstFit r blocks = some (i, blocks[i]) := by
  induction blocks generalizing i with
  | nil => cases index
  | cons b rest ih =>
      cases i with
      | zero =>
          rw [List.getElem_cons_zero] at fits ⊢
          simp [firstFit, fits]
      | succ i =>
          have tooSmall : r < b.len := earlier 0 (Nat.zero_lt_succ _)
          rw [firstFit, if_neg (by omega), ih (by simpa using index) (by simpa using fits)
            fun j before => by simpa using earlier (j + 1) (by omega)]
          rfl

/-- The byte-level scan computes the scan on blocks. -/
theorem firstFit_toIPNet (r : Nat) (blocks : List Block) :
    SliceIpam.firstFit r (blocks.map Block.toIPNet) =
      (firstFit r blocks).map fun found => (found.1, found.2.toIPNet) := by
  induction blocks with
  | nil => rfl
  | cons b rest ih =>
      by_cases fits : b.len ≤ r
      · simp only [List.map_cons, SliceIpam.firstFit, Block.size_toIPNet_mask, Int.ofNat_le,
          fits, if_true, firstFit, copyIP_eq, Option.map_some']
      · simp only [List.map_cons, SliceIpam.firstFit, Block.size_toIPNet_mask, Int.ofNat_le,
          fits, if_false, firstFit, ih, Option.map_map]
        rfl

/-! ## The remainders of a split -/

/-- `B` does not reach past the end of the address space, so its remainders do not wrap. -/
def Fits (B : Block) : Prop :=
  B.addr + B.size ≤ 2 ^ 32

theorem Block.Canonical.fits {B : Block} (canonical : B.Canonical) : Fits B :=
  canonical.end_le

/-- The remainder of prefix `p` of a split of `B`: the block at `B.addr + 2^(32-p)`, modulo
`2^32` as `incIP` computes it. -/
def remainder (B : Block) {p : Nat} (bound : p ≤ 32) : Block :=
  ⟨(B.addr + 2 ^ (32 - p)) % 2 ^ 32, p, Nat.mod_lt _ (Nat.two_pow_pos _), bound⟩

@[simp] theorem remainder_len (B : Block) {p : Nat} (bound : p ≤ 32) :
    (remainder B bound).len = p := rfl

@[simp] theorem remainder_size (B : Block) {p : Nat} (bound : p ≤ 32) :
    (remainder B bound).size = 2 ^ (32 - p) := rfl

/-- A remainder of prefix `p` is the upper half of the block of prefix `p - 1` at `B`'s
address. -/
theorem remainder_addr {B : Block} {p : Nat} (bound : p ≤ 32) (fits : Fits B)
    (longer : B.len < p) : (remainder B bound).addr = B.addr + 2 ^ (32 - p) := by
  have smaller : 2 ^ (32 - p) < 2 ^ (32 - B.len) := Nat.pow_lt_pow_right (by decide) (by omega)
  unfold Fits Block.size at fits
  exact Nat.mod_eq_of_lt (by omega)

/-- The remainders of splitting `B` down to prefix `r`, for each prefix from `r` down to
`B.len + 1`. -/
def splitBlocks (B : Block) : (r : Nat) → r ≤ 32 → List Block
  | 0, _ => []
  | r + 1, bound => if B.len < r + 1 then remainder B bound :: splitBlocks B r (by omega) else []

theorem splitBlocks_of_le (B : Block) {r : Nat} (bound : r ≤ 32) (small : r ≤ B.len) :
    splitBlocks B r bound = [] := by
  cases r with
  | zero => rfl
  | succ r => simp [splitBlocks, Nat.not_lt.mpr small]

theorem splitBlocks_succ (B : Block) {r : Nat} (bound : r + 1 ≤ 32) (large : B.len < r + 1) :
    splitBlocks B (r + 1) bound = remainder B bound :: splitBlocks B r (by omega) := by
  simp [splitBlocks, large]

/-- The block of prefix `r` at `B`'s address: what a split hands out. -/
def low (B : Block) {r : Nat} (bound : r ≤ 32) : Block :=
  ⟨B.addr, r, B.addr_lt, bound⟩

@[simp] theorem low_addr (B : Block) {r : Nat} (bound : r ≤ 32) : (low B bound).addr = B.addr :=
  rfl

@[simp] theorem low_len (B : Block) {r : Nat} (bound : r ≤ 32) : (low B bound).len = r := rfl

/-- The IPv4 reading of `splitFirstFit`: the low block of prefix `r` is handed out, and the
remainders that `B` contains take its place. -/
def splitFirstFit (B : Block) (r : Nat) (bound : r ≤ 32) : Block × List Block :=
  if B.len < r then (low B bound, (splitBlocks B r bound).filter fun b => B.contains b.addr)
  else (B, [])

/-! ## The remainders tile the block -/

section Tiling

variable {B : Block}

theorem mem_splitBlocks {r : Nat} {bound : r ≤ 32} {q : Block}
    (member : q ∈ splitBlocks B r bound) :
    ∃ p, ∃ atMost : p ≤ r, B.len < p ∧ q = remainder B (Nat.le_trans atMost bound) := by
  induction r with
  | zero => simp [splitBlocks] at member
  | succ r ih =>
      unfold splitBlocks at member
      split at member
      · next large =>
          rcases List.mem_cons.mp member with rfl | later
          · exact ⟨r + 1, le_rfl, large, rfl⟩
          · obtain ⟨p, atMost, longer, same⟩ := ih later
            exact ⟨p, by omega, longer, same⟩
      · simp at member

/-- The remainders come in address order, each ending where the next one begins or before. -/
theorem splitBlocks_pairwise {r : Nat} (bound : r ≤ 32) (fits : Fits B) :
    (splitBlocks B r bound).Pairwise Block.Before := by
  induction r with
  | zero => exact List.Pairwise.nil
  | succ r ih =>
      unfold splitBlocks
      split
      · next large =>
          refine List.pairwise_cons.mpr ⟨fun q later => ?_, ih (by omega)⟩
          obtain ⟨p, atMost, longer, rfl⟩ := mem_splitBlocks later
          have grows : 2 ^ (32 - r) ≤ 2 ^ (32 - p) :=
            Nat.pow_le_pow_right (by decide) (by omega)
          have double : 2 ^ (32 - (r + 1)) + 2 ^ (32 - (r + 1)) = 2 ^ (32 - r) := by
            rw [show 32 - r = 32 - (r + 1) + 1 by omega, Nat.pow_succ]
            omega
          unfold Block.Before
          rw [remainder_addr _ fits large, remainder_addr _ fits longer, remainder_size]
          omega
      · exact List.Pairwise.nil

/-- The handed-out block ends where the first remainder begins. -/
theorem low_before_splitBlocks {r : Nat} (bound : r ≤ 32) (fits : Fits B) :
    ∀ q ∈ splitBlocks B r bound, (low B bound).Before q := by
  intro q member
  obtain ⟨p, atMost, longer, rfl⟩ := mem_splitBlocks member
  have grows : 2 ^ (32 - r) ≤ 2 ^ (32 - p) := Nat.pow_le_pow_right (by decide) (by omega)
  unfold Block.Before Block.size
  rw [remainder_addr _ fits longer, low_addr, low_len]
  omega

/-- The block of prefix `r + 1` at `B`'s address and the remainder of prefix `r + 1` are the two
halves of the block of prefix `r` at `B`'s address. -/
theorem cover_low_remainder {r : Nat} (bound : r + 1 ≤ 32) (fits : Fits B)
    (longer : B.len < r + 1) (x : Nat) :
    (if (low B bound).Mem x then 1 else 0) + (if (remainder B bound).Mem x then 1 else 0) =
      if (low B (Nat.le_of_succ_le bound)).Mem x then 1 else 0 := by
  have double : 2 ^ (32 - (r + 1)) + 2 ^ (32 - (r + 1)) = 2 ^ (32 - r) := by
    rw [show 32 - r = 32 - (r + 1) + 1 by omega, Nat.pow_succ]
    omega
  simp only [Block.Mem, Block.size, low_addr, low_len, remainder_addr bound fits longer,
    remainder_len]
  split_ifs <;> omega

/-- The handed-out block and the remainders count every address of `B` once, and no other. -/
theorem cover_low_splitBlocks {r : Nat} (bound : r ≤ 32) (longer : B.len ≤ r) (fits : Fits B)
    (x : Nat) : cover (low B bound :: splitBlocks B r bound) x = if B.Mem x then 1 else 0 := by
  induction r with
  | zero =>
      rw [splitBlocks_of_le B bound (Nat.zero_le _),
        show low B bound = B from Block.ext rfl (by simp; omega)]
      simp
  | succ r ih =>
      by_cases same : B.len = r + 1
      · rw [splitBlocks_of_le B bound (by omega),
          show low B bound = B from Block.ext rfl same.symm]
        simp
      · rw [splitBlocks_succ B bound (by omega), cover_cons, cover_cons, ← Nat.add_assoc,
          cover_low_remainder bound fits (by omega) x, ← cover_cons]
        exact ih (by omega) (by omega)

/-- On a canonical block every remainder is canonical and contained in the block. -/
theorem canonical_of_mem_splitBlocks {r : Nat} {bound : r ≤ 32} {q : Block}
    (canonical : B.Canonical) (member : q ∈ splitBlocks B r bound) :
    q.Canonical ∧ B.contains q.addr = true := by
  obtain ⟨p, atMost, longer, rfl⟩ := mem_splitBlocks member
  have divides : 2 ^ (32 - p) ∣ B.size := Nat.pow_dvd_pow 2 (by omega)
  have smaller : 2 ^ (32 - p) < B.size := Nat.pow_lt_pow_right (by decide) (by omega)
  rw [Block.Canonical, remainder_addr _ canonical.fits longer, canonical.contains_eq,
    remainder_size, Nat.add_mod_right,
    Nat.mod_eq_zero_of_dvd (Nat.dvd_trans divides (Nat.dvd_of_mod_eq_zero canonical))]
  exact ⟨rfl, decide_eq_true ⟨Nat.le_add_right _ _, by omega⟩⟩

/-- The remainders in closed form: the `k`-th has prefix `r - k` and starts `2^(32 - r + k)`
addresses after `B`. -/
theorem splitBlocks_closed {r : Nat} (bound : r ≤ 32) (longer : B.len ≤ r) (fits : Fits B) :
    (splitBlocks B r bound).map (fun q => (q.addr, q.len)) =
      (List.range (r - B.len)).map fun k => (B.addr + 2 ^ (32 - r + k), r - k) := by
  induction r with
  | zero => rw [splitBlocks_of_le B bound (Nat.zero_le _), show 0 - B.len = 0 by omega]; rfl
  | succ r ih =>
      by_cases same : B.len = r + 1
      · rw [splitBlocks_of_le B bound (by omega), same, Nat.sub_self]
        rfl
      · rw [splitBlocks_succ B bound (by omega), show r + 1 - B.len = r - B.len + 1 by omega,
          List.range_succ_eq_map, List.map_cons, List.map_cons, List.map_map,
          ih (by omega) (by omega), remainder_addr bound fits (by omega), remainder_len]
        congr 1
        refine List.map_congr_left fun k _ => ?_
        simp only [Function.comp_apply]
        rw [show 32 - (r + 1) + (k + 1) = 32 - r + k by omega,
          show r + 1 - (k + 1) = r - k by omega]

end Tiling

/-! ## What a split leaves -/

section Result

variable {B : Block} {r : Nat} (bound : r ≤ 32)

/-- The low block of a canonical block is canonical. -/
theorem low_canonical (canonical : B.Canonical) (longer : B.len ≤ r) :
    (low B bound).Canonical := by
  have divides : (low B bound).size ∣ B.size := Nat.pow_dvd_pow 2 (by simp only [low_len]; omega)
  exact Nat.mod_eq_zero_of_dvd (Nat.dvd_trans divides (Nat.dvd_of_mod_eq_zero canonical))

/-- The block a split hands out and the remainders it keeps count each address of `B` at most
once, and no other address. -/
theorem cover_splitFirstFit (longer : B.len ≤ r) (fits : Fits B) (x : Nat) :
    cover ((splitFirstFit B r bound).1 :: (splitFirstFit B r bound).2) x ≤
      if B.Mem x then 1 else 0 := by
  unfold splitFirstFit
  split
  · rw [← cover_low_splitBlocks bound longer fits x, cover_cons, cover_cons]
    exact Nat.add_le_add_left ((List.filter_sublist _).countP_le _) _
  · simp

/-- On a canonical block the split keeps every remainder. -/
theorem splitFirstFit_of_canonical (longer : B.len ≤ r) (canonical : B.Canonical) :
    splitFirstFit B r bound = (low B bound, splitBlocks B r bound) := by
  unfold splitFirstFit
  split
  · rw [List.filter_eq_self.mpr fun q member => (canonical_of_mem_splitBlocks canonical member).2]
  · rw [splitBlocks_of_le B bound (by omega),
      show low B bound = B from Block.ext rfl (by simp; omega)]

/-- On a canonical block the split keeps every remainder, so that it counts every address of
`B` exactly once. -/
theorem cover_splitFirstFit_of_canonical (longer : B.len ≤ r) (canonical : B.Canonical)
    (x : Nat) : cover ((splitFirstFit B r bound).1 :: (splitFirstFit B r bound).2) x =
      if B.Mem x then 1 else 0 := by
  rw [splitFirstFit_of_canonical bound longer canonical]
  exact cover_low_splitBlocks bound longer canonical.fits x

theorem splitFirstFit_pairwise (fits : Fits B) :
    ((splitFirstFit B r bound).1 :: (splitFirstFit B r bound).2).Pairwise Block.Before := by
  unfold splitFirstFit
  split
  · exact List.pairwise_cons.mpr
      ⟨fun q member => low_before_splitBlocks bound fits q (List.mem_filter.mp member).1,
        (splitBlocks_pairwise bound fits).filter _⟩
  · exact List.pairwise_singleton _ _

theorem canonical_splitFirstFit (longer : B.len ≤ r) (canonical : B.Canonical) :
    ∀ q ∈ (splitFirstFit B r bound).1 :: (splitFirstFit B r bound).2, q.Canonical := by
  rw [splitFirstFit_of_canonical bound longer canonical]
  intro q member
  rcases List.mem_cons.mp member with rfl | kept
  · exact low_canonical bound canonical longer
  · exact (canonical_of_mem_splitBlocks canonical kept).1

end Result

/-! ## The byte-level loop computes the remainders -/

theorem toIPNet_remainder (B : Block) {p : Nat} (bound : p ≤ 32) :
    (remainder B bound).toIPNet = ⟨ipv4 (B.addr + 2 ^ (32 - p)), cidrMask p 32⟩ := by
  simp only [Block.toIPNet, remainder, ipv4_mod]

theorem contains_remainder (B : Block) {p : Nat} (bound : p ≤ 32) :
    B.toIPNet.contains (ipv4 (B.addr + 2 ^ (32 - p))) = B.contains (remainder B bound).addr := by
  rw [← ipv4_mod, Block.contains_toIPNet _ (Nat.mod_lt _ (Nat.two_pow_pos _))]
  rfl

/-- One round of the split loop moves from the remainder of prefix `m + 2` to the address of
the remainder of prefix `m + 1`. -/
theorem incIP_remainder (B : Block) {m : Nat} (bound : m + 1 + 1 ≤ 32) :
    incIP (copyIP (ipv4 (B.addr + 2 ^ (32 - (m + 1 + 1)))))
        (shiftOne (32 - ((m + 1 + 1 : Nat) : Int))) =
      ipv4 (B.addr + 2 ^ (32 - (m + 1))) := by
  rw [copyIP_eq, shiftOne_of_le bound, incIP_ipv4, Nat.add_assoc]
  congr 2
  rw [show 32 - (m + 1) = 32 - (m + 1 + 1) + 1 by omega, Nat.pow_succ]
  omega

/-- The split loop, started at the first remainder, of prefix `j + 1`, emits the remainders of
prefix `j` down to `B.len + 1` that `B` contains. -/
theorem splitLoop_toIPNet (B : Block) (n j : Nat) (bound : j + 1 ≤ 32) (rounds : n + B.len = j) :
    SliceIpam.splitLoop B.toIPNet n ((j + 1 : Nat) : Int) (ipv4 (B.addr + 2 ^ (32 - (j + 1)))) =
      ((splitBlocks B j (by omega)).filter fun b => B.contains b.addr).map Block.toIPNet := by
  induction n generalizing j with
  | zero =>
      rw [splitBlocks_of_le _ _ (by omega)]
      rfl
  | succ n ih =>
      obtain ⟨m, rfl⟩ : ∃ m, j = m + 1 := ⟨j - 1, by omega⟩
      have below : ((m + 1 + 1 : Nat) : Int) - 1 = ((m + 1 : Nat) : Int) := by omega
      simp only [SliceIpam.splitLoop, incIP_remainder B bound, below, ih m (by omega) (by omega),
        splitBlocks_succ B (r := m) (by omega) (by omega), List.filter_cons,
        contains_remainder B (p := m + 1) (by omega)]
      split <;> simp only [List.singleton_append, List.nil_append, List.map_cons, toIPNet_remainder,
        copyIP_eq]

/-- The byte-level split computes the split on blocks. -/
theorem splitFirstFit_toIPNet (B : Block) (r : Nat) (bound : r ≤ 32) :
    SliceIpam.splitFirstFit B.toIPNet r =
      ((splitFirstFit B r bound).1.toIPNet,
        (splitFirstFit B r bound).2.map Block.toIPNet) := by
  unfold SliceIpam.splitFirstFit splitFirstFit
  simp only [Block.size_toIPNet_mask, Int.ofNat_lt, copyIP_eq]
  split
  · next large =>
      obtain ⟨k, rfl⟩ : ∃ k, r = k + 1 := ⟨r - 1, by omega⟩
      have rounds : ((k + 1 : Nat) : Int) - ((B.len : Int) + 1) = ((k - B.len : Nat) : Int) := by
        omega
      simp only [Block.toIPNet_ip, shiftOne_of_le bound, incIP_ipv4, contains_remainder B bound,
        rounds, Int.toNat_ofNat, splitLoop_toIPNet B (k - B.len) k bound (by omega),
        splitBlocks_succ B bound large, List.filter_cons]
      split <;> simp only [List.singleton_append, List.nil_append, List.map_cons, toIPNet_remainder]
      all_goals rfl
  · rfl

end V4
end SliceIpam
