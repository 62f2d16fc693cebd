import SliceIpam.V4.Split
import SliceIpam.Allocator.Registry

/-!
# Pools of IPv4 blocks

The pool of `allocateSubnetForPool` and `Reclaim` read on IPv4 blocks: the slice subnet, the
allocation of each cluster and the free list are blocks, and the steps of a pool (the
allocation of a prefix of at most 32 bits, and the sort and coalescing sweep of `Reclaim`) are
computed on blocks. Each is tied to the byte-level code by a theorem: the code, run on the
networks the blocks stand for, computes the networks of the result.
-/

namespace SliceIpam
namespace V4

open Net

/-- A pool whose networks are IPv4 blocks. -/
structure Pool where
  slice : Block
  allocated : List (String × Block)
  free : List Block
  deriving DecidableEq

/-- The networks of a map's blocks. -/
def toIPNets (m : List (String × Block)) : List (String × IPNet) :=
  m.map fun entry => (entry.1, entry.2.toIPNet)

namespace Pool

/-- The byte-level pool the blocks stand for. -/
def toPool (P : Pool) : SliceIPPool :=
  ⟨P.slice.toIPNet, toIPNets P.allocated, P.free.map Block.toIPNet⟩

/-- `allocateSubnetForPool` on blocks, for a prefix `r` of at most 32 bits: the block handed
out, if any, and the pool after the call. -/
def allocate (P : Pool) (clusterName : String) {r : Nat} (bound : r ≤ 32) : Option Block × Pool :=
  match P.allocated.lookup clusterName with
  | some b => (if b.len = r then some b else none, P)
  | none =>
      match firstFit r P.free with
      | none => (none, P)
      | some (i, B) =>
          let split := splitFirstFit B r bound
          (some split.1,
            { P with
              free := P.free.take i ++ split.2 ++ P.free.drop (i + 1)
              allocated := mapInsert P.allocated clusterName split.1 })

end Pool

/-- The sort of `Reclaim` on blocks. -/
def sortBlocks (blocks : List Block) : List Block :=
  blocks.insertionSort Block.Le

/-- The coalescing sweep on blocks, from the block `current`. -/
def coalesce (current : Block) : List Block → List Block
  | [] => [current]
  | next :: rest =>
      match current.tryMerge next with
      | some merged => coalesce merged rest
      | none => current :: coalesce next rest

/-- The sweep over a whole free list of blocks. -/
def coalesceBlocks : List Block → List Block
  | [] => []
  | first :: rest => coalesce first rest

namespace Pool

/-- `Reclaim` on a pool of blocks: the cluster's block goes back to the free list, which is
sorted and swept. A cluster without a block leaves the pool as it is. -/
def reclaim (P : Pool) (clusterName : String) : Pool :=
  match P.allocated.lookup clusterName with
  | none => P
  | some R =>
      { P with
        allocated := mapDelete P.allocated clusterName
        free := coalesceBlocks (sortBlocks (P.free ++ [R])) }

end Pool

/-! ## The byte-level pool computes the pool of blocks -/

theorem lookup_toIPNets (m : List (String × Block)) (k : String) :
    (toIPNets m).lookup k = (m.lookup k).map Block.toIPNet := by
  induction m with
  | nil => rfl
  | cons entry rest ih =>
      obtain ⟨key, b⟩ := entry
      simp only [toIPNets, List.map_cons, List.lookup_cons] at ih ⊢
      cases k == key <;> simp [ih]

theorem toIPNets_mapInsert (m : List (String × Block)) (k : String) (b : Block) :
    toIPNets (mapInsert m k b) = mapInsert (toIPNets m) k b.toIPNet := by
  simp [toIPNets, mapInsert, List.filter_map, Function.comp_def]

theorem toIPNets_mapDelete (m : List (String × Block)) (k : String) :
    toIPNets (mapDelete m k) = mapDelete (toIPNets m) k := by
  simp [toIPNets, mapDelete, List.filter_map, Function.comp_def]

/-- `allocateSubnetForPool` on the networks of a pool of blocks hands out the network of the
block `Pool.allocate` hands out, and leaves the networks of the pool it leaves. -/
theorem allocateSubnetForPool_toPool (P : Pool) (clusterName : String) {r : Nat}
    (bound : r ≤ 32) :
    (allocateSubnetForPool P.toPool clusterName r).1.toOption =
        (P.allocate clusterName bound).1.map Block.toIPNet ∧
      (allocateSubnetForPool P.toPool clusterName r).2 =
        (P.allocate clusterName bound).2.toPool := by
  unfold allocateSubnetForPool Pool.allocate
  simp only [Pool.toPool, lookup_toIPNets]
  cases P.allocated.lookup clusterName with
  | some b =>
      simp only [Option.map_some', Block.size_toIPNet_mask]
      by_cases same : b.len = r
      · rw [if_pos (show (b.len : Int) = r by omega), if_pos same]
        exact ⟨rfl, rfl⟩
      · rw [if_neg (show ¬(b.len : Int) = r by omega), if_neg same]
        exact ⟨rfl, rfl⟩
  | none =>
      simp only [Option.map_none', firstFit_toIPNet]
      cases firstFit r P.free with
      | none => simp [Except.toOption]
      | some found =>
          simp [splitFirstFit_toIPNet found.2 r bound, Except.toOption, toIPNets_mapInsert,
            List.map_take, List.map_drop]

theorem sortFreeBlocks_map (blocks : List Block) :
    sortFreeBlocks (blocks.map Block.toIPNet) = (sortBlocks blocks).map Block.toIPNet :=
  (List.map_insertionSort _ _ _ _ fun a _ b _ => by
    rw [Block.compareIPNets_toIPNet, Block.compare_nonpos_iff]).symm

theorem coalesce_map (current : Block) (blocks : List Block) :
    SliceIpam.coalesce current.toIPNet (blocks.map Block.toIPNet) =
      (coalesce current blocks).map Block.toIPNet := by
  induction blocks generalizing current with
  | nil => rfl
  | cons next rest ih =>
      simp only [List.map_cons, SliceIpam.coalesce, Block.tryMerge_toIPNet, coalesce]
      cases current.tryMerge next <;> simp [ih]

/-- `Reclaim`'s new free list, computed on the networks of blocks, is the networks of the free
list computed on the blocks. -/
theorem reclaimedFreeBlocks_map (blocks : List Block) (R : Block) :
    DynamicIPAMAllocator.reclaimedFreeBlocks (blocks.map Block.toIPNet) R.toIPNet =
      (coalesceBlocks (sortBlocks (blocks ++ [R]))).map Block.toIPNet := by
  rw [DynamicIPAMAllocator.reclaimedFreeBlocks, ← List.map_singleton, ← List.map_append,
    sortFreeBlocks_map]
  cases sortBlocks (blocks ++ [R]) with
  | nil => rfl
  | cons first rest => exact coalesce_map first rest

/-! ## A split in full -/

/-- `allocateSubnetForPool` for a cluster without a network, on a pool whose free list is the
networks of canonical blocks: the first block `B` of prefix at most `r` gives its low block of
prefix `r` to the cluster and is replaced, at its index, by the remainders. The `k`-th remainder
starts `2^(32 - r + k)` addresses after `B` and has prefix `r - k`; the remainders are canonical,
lie after the handed-out block and after each other, and with it cover `B`. -/
theorem allocateSubnetForPool_split (pool : SliceIPPool) (blocks : List Block)
    (free : pool.freeBlocks = blocks.map Block.toIPNet) (canonical : ∀ b ∈ blocks, b.Canonical)
    (clusterName : String) (fresh : pool.allocated.lookup clusterName = none) {r : Nat}
    (bound : r ≤ 32) {i : Nat} (index : i < blocks.length) {B : Block} (found : blocks[i] = B)
    (fits : B.len ≤ r)
    (earlier : ∀ j (before : j < i), r < (blocks.get ⟨j, Nat.lt_trans before index⟩).len) :
    allocateSubnetForPool pool clusterName r =
        (.ok (low B bound).toIPNet,
          { pool with
            freeBlocks :=
              (blocks.take i ++ splitBlocks B r bound ++ blocks.drop (i + 1)).map Block.toIPNet
            allocated := (clusterName, (low B bound).toIPNet) :: pool.allocated }) ∧
      (splitBlocks B r bound).map (fun q => (q.addr, q.len)) =
        (List.range (r - B.len)).map (fun k => (B.addr + 2 ^ (32 - r + k), r - k)) ∧
      (∀ q ∈ splitBlocks B r bound, q.Canonical) ∧
      (low B bound :: splitBlocks B r bound).Pairwise Block.Before ∧
      ∀ x, cover (low B bound :: splitBlocks B r bound) x = if B.Mem x then 1 else 0 := by
  have canonicalB : B.Canonical := canonical B (found ▸ List.getElem_mem index)
  have fit : firstFit r blocks = some (i, B) := by
    rw [← found]
    exact firstFit_of_first index (found ▸ fits) earlier
  refine ⟨?_, splitBlocks_closed bound fits canonicalB.fits,
    fun q member => (canonical_of_mem_splitBlocks canonicalB member).1,
    List.pairwise_cons.mpr ⟨low_before_splitBlocks bound canonicalB.fits,
      splitBlocks_pairwise bound canonicalB.fits⟩,
    cover_low_splitBlocks bound fits canonicalB.fits⟩
  unfold allocateSubnetForPool
  rw [fresh, free, firstFit_toIPNet, fit]
  simp [splitFirstFit_toIPNet B r bound, splitFirstFit_of_canonical bound fits canonicalB,
    mapInsert_of_lookup_eq_none _ fresh, List.map_take, List.map_drop]

/-- Allocating a /24 from a pool whose only free block is 10.0.0.0/22 hands out 10.0.0.0/24 and
leaves 10.0.1.0/24 and 10.0.2.0/23 in its place. -/
theorem allocateSubnetForPool_split_22 :
    allocateSubnetForPool
        ⟨⟨ipv4 0x0A000000, cidrMask 22 32⟩, [], [⟨ipv4 0x0A000000, cidrMask 22 32⟩]⟩ "c"
        (24 : Nat) =
      (.ok ⟨ipv4 0x0A000000, cidrMask 24 32⟩,
        ⟨⟨ipv4 0x0A000000, cidrMask 22 32⟩, [("c", ⟨ipv4 0x0A000000, cidrMask 24 32⟩)],
          [⟨ipv4 0x0A000100, cidrMask 24 32⟩, ⟨ipv4 0x0A000200, cidrMask 23 32⟩]⟩) := by
  rw [(allocateSubnetForPool_split
    ⟨⟨ipv4 0x0A000000, cidrMask 22 32⟩, [], [⟨ipv4 0x0A000000, cidrMask 22 32⟩]⟩
    [⟨0x0A000000, 22, by decide, by decide⟩] rfl (by decide) "c" rfl (by decide) (i := 0)
    (by decide) rfl (by decide) (by decide)).1]
  decide

end V4
end SliceIpam
