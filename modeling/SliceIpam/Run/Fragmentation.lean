import SliceIpam.Run.Partition

/-!
# Free space the sweep leaves split

Two blocks are buddies when they are the two halves of one aligned block. On a partitioned pool
whose free list holds no two buddies, first fit is complete: `Allocate` finds a block for every
prefix of which some aligned block of the slice subnet is wholly free. The proof splits such a
block into halves until it reaches two free buddies.

`Reclaim` sweeps the sorted free list once, left to right, merging a block into the one before
it. A merged block whose buddy stands before it in the list is not merged again, so a
`Reclaim` can leave two buddies in a free list that had none, and a slice that is wholly free
can stay split over two free blocks that first fit does not see as one.
-/

namespace SliceIpam

open Net V4

namespace V4

namespace Block

/-- `a` and `b` are the two halves of one aligned block. -/
def Buddies (a b : Block) : Prop :=
  a.len = b.len ∧ 0 < a.len ∧ a.Canonical ∧ b.Canonical ∧ a.addr ≠ b.addr ∧
    a.addr / (2 * a.size) = b.addr / (2 * b.size)

instance (a b : Block) : Decidable (a.Buddies b) :=
  inferInstanceAs (Decidable (_ ∧ _))

/-- In a canonical block, division by the size sends every address to the block's. -/
theorem Canonical.div_size_eq {b : Block} (canonical : b.Canonical) {x : Nat} (inB : b.Mem x) :
    x / b.size = b.addr / b.size := by
  have aligned : b.addr / b.size * b.size = b.addr :=
    Nat.div_mul_cancel (Nat.dvd_of_mod_eq_zero canonical)
  rw [div_size_eq_iff, aligned]
  exact inB

/-- Two canonical blocks of one prefix that share an address are the same block. -/
theorem Canonical.eq_of_mem {a b : Block} (aCanonical : a.Canonical) (bCanonical : b.Canonical)
    (sameLen : a.len = b.len) {x : Nat} (inA : a.Mem x) (inB : b.Mem x) : a = b := by
  have sameSize : a.size = b.size := by rw [size, size, sameLen]
  refine ext ?_ sameLen
  calc a.addr = x / a.size * a.size := by
        rw [aCanonical.div_size_eq inA, Nat.div_mul_cancel (Nat.dvd_of_mod_eq_zero aCanonical)]
    _ = x / b.size * b.size := by rw [sameSize]
    _ = b.addr := by
        rw [bCanonical.div_size_eq inB, Nat.div_mul_cancel (Nat.dvd_of_mod_eq_zero bCanonical)]

end Block

/-- No two blocks of the list are buddies. -/
def NoBuddies (blocks : List Block) : Prop :=
  ∀ a ∈ blocks, ∀ b ∈ blocks, ¬ a.Buddies b

instance (blocks : List Block) : Decidable (NoBuddies blocks) :=
  inferInstanceAs (Decidable (∀ a ∈ blocks, ∀ b ∈ blocks, _))

/-! ## The halves of a block -/

section Halves

variable {X : Block} (bound : X.len + 1 ≤ 32)

/-- The two halves of a canonical block are its addresses, and are buddies. -/
theorem halves (canonical : X.Canonical) :
    (∀ x, X.Mem x ↔ (low X bound).Mem x ∨ (remainder X bound).Mem x) ∧
      (low X bound).Buddies (remainder X bound) := by
  have double : X.size = 2 * 2 ^ (32 - (X.len + 1)) := by
    rw [Block.size, show 32 - X.len = 32 - (X.len + 1) + 1 by omega, Nat.pow_succ, Nat.mul_comm]
  have upperAddr := remainder_addr bound canonical.fits (Nat.lt_succ_self _)
  have lowSize : (low X bound).size = 2 ^ (32 - (X.len + 1)) := rfl
  have positive := Nat.two_pow_pos (32 - (X.len + 1))
  have upperInX : X.Mem (remainder X bound).addr := by
    unfold Block.Mem
    omega
  refine ⟨fun x => ?_, rfl, by simp, low_canonical bound canonical (Nat.le_succ _), ?_,
    by simp only [low_addr, upperAddr]; omega, ?_⟩
  · unfold Block.Mem
    simp only [low_addr, lowSize, remainder_size, upperAddr]
    omega
  · exact (canonical_of_mem_splitBlocks canonical (by
      rw [splitBlocks_succ X bound (Nat.lt_succ_self _)]
      exact List.mem_cons_self _ _)).1
  · rw [lowSize, remainder_size, ← double, low_addr, canonical.div_size_eq upperInX]

end Halves

/-- A canonical block whose addresses are all in canonical blocks of a list, each with a longer
prefix than it, has two buddies among those blocks: one of its halves is not in the list, and
the blocks that meet that half have a longer prefix than it. -/
theorem not_noBuddies_of_covered {free : List Block} (canonical : ∀ b ∈ free, b.Canonical) :
    ∀ (n : Nat) (X : Block), 32 - X.len = n → X.Canonical →
      (∀ x, X.Mem x → ∃ b ∈ free, b.Mem x) →
      (∀ b ∈ free, ∀ x, b.Mem x → X.Mem x → X.len < b.len) → ¬ NoBuddies free := by
  intro n
  induction n with
  | zero =>
      intro X full _ covered longer _
      obtain ⟨b, member, inB⟩ := covered X.addr X.mem_addr
      have := longer b member X.addr inB X.mem_addr
      have := b.len_le
      omega
  | succ n ih =>
      intro X depth canonicalX covered longer coalesced
      have bound : X.len + 1 ≤ 32 := by omega
      obtain ⟨split, buddies⟩ := halves bound canonicalX
      have listed : ∀ H : Block, H.Canonical → H.len = X.len + 1 →
          (∀ x, H.Mem x → X.Mem x) → H ∈ free := by
        intro H canonicalH lenH inside
        by_contra absent
        refine ih H (by omega) canonicalH (fun x inH => covered x (inside x inH))
          (fun b member x inB inH => ?_) coalesced
        have := longer b member x inB (inside x inH)
        rcases Nat.lt_or_ge (X.len + 1) b.len with shorter | atMost
        · omega
        · exact absurd (canonicalH.eq_of_mem (canonical b member) (by omega) inH inB ▸ member)
            absent
      exact coalesced _
        (listed _ buddies.2.2.1 rfl fun x inLow => (split x).mpr (Or.inl inLow)) _
        (listed _ buddies.2.2.2.1 rfl fun x inHigh => (split x).mpr (Or.inr inHigh)) buddies

/-- On a partitioned pool whose free list holds no two buddies, first fit finds a block for the
prefix of every canonical block of the slice subnet that no allocation meets. -/
theorem Pool.Partitioned.firstFit_isSome {P : Pool} (part : P.Partitioned)
    (coalesced : NoBuddies P.free) {X : Block} (canonicalX : X.Canonical)
    (within : Within X P.slice) (unallocated : ∀ b ∈ blocksOf P.allocated, b.Disjoint X) :
    (firstFit X.len P.free).isSome := by
  cases fit : firstFit X.len P.free with
  | some _ => rfl
  | none =>
      refine absurd coalesced (not_noBuddies_of_covered
        (fun b member => part.canonical b (List.mem_append_right _ member)) _ X rfl canonicalX
        (fun x inX => ?_) (fun b member _ _ _ => firstFit_eq_none fit b member))
      have inSlice : P.slice.Mem x := by
        unfold Within at within
        unfold Block.Mem at *
        omega
      obtain ⟨b, member, inB⟩ := (part.coversSlice.2 x).mp inSlice
      rcases List.mem_append.mp member with inAllocated | inFree
      · exact absurd inX (unallocated b inAllocated x inB)
      · exact ⟨b, inFree, inB⟩

/-- An allocation from a pool of blocks hands out a block whenever the cluster has none and
first fit finds a free block. -/
theorem Pool.allocate_fst_isSome {P : Pool} {clusterName : String} {r : Nat} (bound : r ≤ 32)
    (fresh : P.allocated.lookup clusterName = none) (fit : (firstFit r P.free).isSome) :
    (P.allocate clusterName bound).1.isSome := by
  obtain ⟨⟨i, B⟩, found⟩ := Option.isSome_iff_exists.mp fit
  simp only [Pool.allocate, fresh, found, Option.isSome_some]

end V4

namespace DynamicIPAMAllocator

/-! ## First fit on a free list with no buddies -/

/-- Along a run in range whose merges are all aligned, when the free list of a slice holds no
two buddies, `Allocate` for a cluster without a network succeeds for the prefix of every
canonical block of the slice subnet that no allocation meets. -/
theorem allocate_ok_of_noBuddies (ops : List Op) (inRange : ∀ op ∈ ops, op.InRange)
    (aligned : alignedRun newDynamicIPAMAllocator ops) (sliceName clusterName : String) (P : Pool)
    (stored : (newDynamicIPAMAllocator.run ops).pools sliceName = some P.toPool)
    (coalesced : NoBuddies P.free) (fresh : P.allocated.lookup clusterName = none) {X : Block}
    (canonicalX : X.Canonical) (within : Within X P.slice)
    (unallocated : ∀ b ∈ blocksOf P.allocated, b.Disjoint X) :
    ∃ text,
      ((newDynamicIPAMAllocator.run ops).allocate sliceName clusterName X.len).1 = .ok text := by
  have part := (PoolsSatisfy.new.run_partitioned inRange aligned).pool stored
  obtain ⟨S, handed⟩ := Option.isSome_iff_exists.mp (Pool.allocate_fst_isSome X.len_le fresh
    (part.firstFit_isSome coalesced canonicalX within unallocated))
  have simulated := (allocateSubnetForPool_toPool P clusterName X.len_le).1
  rw [handed, Option.map_some'] at simulated
  cases result : (allocateSubnetForPool P.toPool clusterName X.len).1 with
  | error _ => simp [result, Except.toOption] at simulated
  | ok net => exact ⟨net.string, by simp only [allocate_fst, stored, result]⟩

/-- After the upper cluster is handed back first, the free list 10.0.1.0/24, 10.0.2.0/23 holds no
buddies, and `Allocate` of a /23 finds 10.0.2.0/23. -/
theorem reclaimUpperFirst_allocate_ok :
    ∃ text, ((newDynamicIPAMAllocator.run reclaimUpperFirst).allocate "s" "d" 23).1 = .ok text :=
  allocate_ok_of_noBuddies reclaimUpperFirst (by decide) (by decide) "s" "d"
    ⟨⟨0x0A000000, 22, by decide, by decide⟩,
      [(vpnClusterName, ⟨0x0A000000, 24, by decide, by decide⟩)],
      [⟨0x0A000100, 24, by decide, by decide⟩, ⟨0x0A000200, 23, by decide, by decide⟩]⟩
    (by decide) (by decide) (by decide) (X := ⟨0x0A000200, 23, by decide, by decide⟩)
    (by decide) (by decide) (by decide)

/-! ## Runs that leave a slice split -/

/-- A /22 slice whose four /24 blocks go to the VPN reservation and three clusters, all handed
back in address order but the last. -/
def reclaimAllButLast : List Op :=
  [.initializePool "s" "10.0.4.0/22", .allocate "s" "a" 24, .allocate "s" "b" 24,
    .allocate "s" "e" 24, .reclaim "s" "VPN_Subnet", .reclaim "s" "a", .reclaim "s" "b"]

/-- All four handed back. -/
def reclaimAll : List Op :=
  reclaimAllButLast ++ [.reclaim "s" "e"]

/-- Before the last `Reclaim` the free list 10.0.4.0/23, 10.0.6.0/24 holds no buddies. Handing
10.0.7.0/24 back merges it into 10.0.6.0/23, the buddy of 10.0.4.0/23, which the sweep has
already passed, and the two stay apart. -/
theorem reclaim_leaves_buddies :
    (∀ op ∈ reclaimAll, op.InRange) ∧ alignedRun newDynamicIPAMAllocator reclaimAll ∧
      ((newDynamicIPAMAllocator.run reclaimAllButLast).pools "s").map SliceIPPool.freeBlocks =
        some ([⟨0x0A000400, 23, by decide, by decide⟩,
          ⟨0x0A000600, 24, by decide, by decide⟩].map Block.toIPNet) ∧
      NoBuddies
        [⟨0x0A000400, 23, by decide, by decide⟩, ⟨0x0A000600, 24, by decide, by decide⟩] ∧
      ((newDynamicIPAMAllocator.run reclaimAllButLast).reclaim "s" "e").1 = .ok () ∧
      ((newDynamicIPAMAllocator.run reclaimAll).pools "s").map SliceIPPool.freeBlocks =
        some ([⟨0x0A000400, 23, by decide, by decide⟩,
          ⟨0x0A000600, 23, by decide, by decide⟩].map Block.toIPNet) ∧
      Block.Buddies ⟨0x0A000400, 23, by decide, by decide⟩
        ⟨0x0A000600, 23, by decide, by decide⟩ := by
  decide

/-- After all four are handed back, no cluster holds a block of the slice 10.0.4.0/22, yet it is
held as the two buddies 10.0.4.0/23 and 10.0.6.0/23, and `Allocate` of a /22 finds no free
block. -/
theorem reclaimAll_strands_slice :
    (∀ op ∈ reclaimAll, op.InRange) ∧ alignedRun newDynamicIPAMAllocator reclaimAll ∧
      ((newDynamicIPAMAllocator.run reclaimAll).pools "s").map SliceIPPool.sliceSubnet =
        some ⟨ipv4 0x0A000400, cidrMask 22 32⟩ ∧
      ((newDynamicIPAMAllocator.run reclaimAll).pools "s").map SliceIPPool.allocated = some [] ∧
      ((newDynamicIPAMAllocator.run reclaimAll).allocate "s" "c" 22).1 =
        .error "failed to allocate subnet for cluster c in slice s: no available subnet of size /22 in pool" := by
  decide

end DynamicIPAMAllocator

end SliceIpam
