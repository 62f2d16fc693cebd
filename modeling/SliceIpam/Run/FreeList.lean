import SliceIpam.Run.Partition

/-!
# The order of the free list and the order of reclaims

Along a run in range every free list is strictly increasing under `compareIPNets`: the blocks
are in address order and apart. So the splice of an allocation, which puts the remainders in
the place of the block it splits without sorting, gives the list a sort of the other free
blocks and the remainders would give.

Two `Reclaim`s on one slice commute on the map of allocations. Read as intervals, the two
free lists hold the same addresses; `Contains` reads them so only when every merge of the two
orders is aligned, since a merge with host bits moves its block onto the aligned slot of its
prefix. Neither order fixes the free list itself: the sweep of the second call sees the blocks
the first one merged, and which blocks the two sweeps merge depends on the order.
-/

namespace SliceIpam

open Net V4

namespace DynamicIPAMAllocator

/-! ## The free list in order -/

/-- Along a run in range every free list is strictly increasing under `compareIPNets`, and the
free list of an allocation for a cluster without a network is the sorted list of the other free
blocks and the remainders of the split. -/
theorem run_freeBlocks_sorted (ops : List Op) (inRange : ∀ op ∈ ops, op.InRange)
    (sliceName : String) (pool : SliceIPPool)
    (stored : (newDynamicIPAMAllocator.run ops).pools sliceName = some pool) :
    pool.freeBlocks.Pairwise (fun a b => compareIPNets a b < 0) ∧
      ∀ (clusterName : String) (r i : Nat) (firstFitNet : IPNet), r ≤ 32 →
        pool.allocated.lookup clusterName = none →
        firstFit r pool.freeBlocks = some (i, firstFitNet) →
        (allocateSubnetForPool pool clusterName r).2.freeBlocks =
          sortFreeBlocks (pool.freeBlocks.eraseIdx i ++ (splitFirstFit firstFitNet r).2) := by
  obtain ⟨P, rfl, tiled⟩ := PoolsSatisfy.new.run_tiled inRange sliceName pool stored
  refine ⟨List.pairwise_map.mpr (tiled.freeApart.imp fun before => ?_),
    fun clusterName r i firstFitNet bound fresh fit => ?_⟩
  · rw [Block.compareIPNets_toIPNet, (Block.compare_eq_neg_one_iff _ _).mpr before.lt]
    decide
  · have fresh' : P.allocated.lookup clusterName = none := by
      simpa [Pool.toPool, lookup_toIPNets] using fresh
    rw [show P.toPool.freeBlocks = P.free.map Block.toIPNet from rfl, firstFit_toIPNet] at fit
    obtain ⟨⟨j, B⟩, found, same⟩ := Option.map_eq_some'.mp fit
    simp only [Prod.mk.injEq] at same
    obtain ⟨rfl, rfl⟩ := same
    have apart := (tiled.allocate_fresh bound found).2.2.2
    have perm : (P.free.take j ++ P.free.drop (j + 1) ++ (V4.splitFirstFit B r bound).2).Perm
        (P.free.take j ++ (V4.splitFirstFit B r bound).2 ++ P.free.drop (j + 1)) := by
      rw [List.append_assoc, List.append_assoc]
      exact List.perm_append_comm.append_left _
    rw [(allocateSubnetForPool_toPool P clusterName bound).2,
      Pool.allocate_of_fit bound fresh' found,
      show P.toPool.freeBlocks = P.free.map Block.toIPNet from rfl, splitFirstFit_toIPNet B r bound,
      List.eraseIdx_eq_take_drop_succ, ← List.map_take, ← List.map_drop, ← List.map_append,
      ← List.map_append, sortFreeBlocks_map, sortBlocks_eq_of_perm apart perm]
    rfl

/-- After the upper cluster is handed back first, the free list of the slice is in order. -/
theorem reclaimUpperFirst_freeBlocks_sorted :
    ∃ pool, (newDynamicIPAMAllocator.run reclaimUpperFirst).pools "s" = some pool ∧
      pool.freeBlocks.Pairwise (fun a b => compareIPNets a b < 0) ∧
      ∀ (clusterName : String) (r i : Nat) (firstFitNet : IPNet), r ≤ 32 →
        pool.allocated.lookup clusterName = none →
        firstFit r pool.freeBlocks = some (i, firstFitNet) →
        (allocateSubnetForPool pool clusterName r).2.freeBlocks =
          sortFreeBlocks (pool.freeBlocks.eraseIdx i ++ (splitFirstFit firstFitNet r).2) :=
  let ⟨pool, stored⟩ := Option.isSome_iff_exists.mp
    (by decide : ((newDynamicIPAMAllocator.run reclaimUpperFirst).pools "s").isSome)
  ⟨pool, stored, run_freeBlocks_sorted reclaimUpperFirst (by decide) "s" pool stored⟩

/-! ## The sort of `Reclaim` -/

/-- Along a run in range, `Reclaim` computes the sweep of every order `sort.Slice` may give the
free list and the reclaimed network, with `compareIPNets(x, y) < 0` as its `less`: no two of them
compare equal, so every such order is the one the model's sort gives. -/
theorem run_reclaim_any_sort (ops : List Op) (inRange : ∀ op ∈ ops, op.InRange)
    (sliceName clusterName : String) (pool : SliceIPPool)
    (stored : (newDynamicIPAMAllocator.run ops).pools sliceName = some pool)
    (subnetToReclaim : IPNet) (held : pool.allocated.lookup clusterName = some subnetToReclaim)
    (L : List IPNet) (perm : L.Perm (pool.freeBlocks ++ [subnetToReclaim]))
    (ordered : L.Pairwise fun x y => ¬ compareIPNets y x < 0) :
    ((newDynamicIPAMAllocator.run ops).reclaim sliceName clusterName).2.pools sliceName =
      some { pool with
        allocated := mapDelete pool.allocated clusterName
        freeBlocks := coalesceFreeBlocks L } := by
  obtain ⟨P, rfl, -⟩ := PoolsSatisfy.new.run_tiled inRange sliceName pool stored
  have found := held
  rw [Pool.toPool, lookup_toIPNets] at found
  obtain ⟨R, -, rfl⟩ := Option.map_eq_some'.mp found
  have networks : P.toPool.freeBlocks ++ [R.toIPNet] = (P.free ++ [R]).map Block.toIPNet := by
    rw [List.map_append, List.map_singleton]
    rfl
  rw [eq_sortFreeBlocks_of_ordered (networks ▸ perm) ordered]
  simp only [reclaim, stored, held, setPool_pools_self, reclaimedFreeBlocks, networks]

/-- After the upper cluster is handed back first, handing back the VPN subnet sorts 10.0.0.0/24
in front of the free list 10.0.1.0/24, 10.0.2.0/23, and the sweep of that order is the pool's new
free list. -/
theorem reclaimUpperFirst_any_sort :
    ∃ (pool : SliceIPPool) (subnetToReclaim : IPNet) (L : List IPNet),
      (newDynamicIPAMAllocator.run reclaimUpperFirst).pools "s" = some pool ∧
      pool.allocated.lookup "VPN_Subnet" = some subnetToReclaim ∧
      L.Perm (pool.freeBlocks ++ [subnetToReclaim]) ∧
      L.Pairwise (fun x y => ¬ compareIPNets y x < 0) ∧
      ((newDynamicIPAMAllocator.run reclaimUpperFirst).reclaim "s" "VPN_Subnet").2.pools "s" =
        some { pool with
          allocated := mapDelete pool.allocated "VPN_Subnet"
          freeBlocks := coalesceFreeBlocks L } :=
  have held : upperFirstPool.allocated.lookup "VPN_Subnet" =
      some ⟨ipv4 0x0A000000, cidrMask 24 32⟩ := by
    decide
  ⟨upperFirstPool, _,
    [⟨ipv4 0x0A000000, cidrMask 24 32⟩, ⟨ipv4 0x0A000100, cidrMask 24 32⟩,
      ⟨ipv4 0x0A000200, cidrMask 23 32⟩],
    run_reclaimUpperFirst, held, by decide, by decide,
    run_reclaim_any_sort reclaimUpperFirst (by decide) "s" "VPN_Subnet" _ run_reclaimUpperFirst _
      held _ (by decide) (by decide)⟩

end DynamicIPAMAllocator

/-! ## Two reclaims in either order -/

namespace V4

end V4

namespace DynamicIPAMAllocator

/-- The pool of a slice after `Reclaim`, read on blocks. -/
theorem reclaim_pools_self {a : DynamicIPAMAllocator} {sliceName : String} {P : Pool}
    (stored : a.pools sliceName = some P.toPool) (clusterName : String) :
    (a.reclaim sliceName clusterName).2.pools sliceName = some (P.reclaim clusterName).toPool := by
  have found : P.toPool.allocated.lookup clusterName =
      (P.allocated.lookup clusterName).map Block.toIPNet := lookup_toIPNets _ _
  unfold reclaim Pool.reclaim
  rw [stored]
  dsimp only
  rw [found]
  cases P.allocated.lookup clusterName with
  | none => exact stored
  | some R =>
      simp only [Option.map_some', setPool_pools_self, Pool.toPool, toIPNets_mapDelete,
        reclaimedFreeBlocks_map]

/-- In a state whose pools are partitions, `Reclaim` right after a successful `Allocate` of a
prefix of at most 32 bits, for a cluster without a network, gives the state back when no free
network of the slice merges with the next one. -/
theorem PoolsSatisfy.reclaim_allocate {a : DynamicIPAMAllocator}
    (holds : PoolsSatisfy Pool.Partitioned a) {sliceName clusterName : String}
    {pool : SliceIPPool} (stored : a.pools sliceName = some pool)
    (fresh : pool.allocated.lookup clusterName = none)
    (stable : pool.freeBlocks.Chain' fun x y => tryMerge x y = none)
    {requiredCIDRSize : Int} (atMost : requiredCIDRSize ≤ 32) {text : String}
    (returned : (a.allocate sliceName clusterName requiredCIDRSize).1 = .ok text) :
    ((a.allocate sliceName clusterName requiredCIDRSize).2.reclaim sliceName clusterName).2 =
      a := by
  obtain ⟨P, rfl, part⟩ := holds sliceName pool stored
  obtain ⟨pool', net, stored', handed, -⟩ := allocate_fst_eq_ok returned
  cases stored.symm.trans stored'
  rcases Int.lt_or_le requiredCIDRSize 0 with negative | nonnegative
  · obtain ⟨_, failed⟩ := allocateSubnetForPool_of_neg P.toPool clusterName negative
    rw [failed] at handed
    cases handed
  obtain ⟨r, rfl⟩ := Int.eq_ofNat_of_zero_le nonnegative
  have bound : r ≤ 32 := by omega
  obtain ⟨simulated, after⟩ := allocateSubnetForPool_toPool P clusterName bound
  have blockFresh : P.allocated.lookup clusterName = none := by
    simpa [Pool.toPool, lookup_toIPNets] using fresh
  have blockHanded : (P.allocate clusterName bound).1 ≠ none := fun missing => by
    rw [handed, missing] at simulated
    cases simulated
  have blockStable : P.free.Chain' fun a b => a.tryMerge b = none :=
    (List.chain'_map _).mp stable |>.imp fun a b apart => by
      rwa [Block.tryMerge_toIPNet, Option.map_eq_none'] at apart
  have allocated : (a.allocate sliceName clusterName r).2.pools sliceName =
      some (P.allocate clusterName bound).2.toPool := by
    simp only [allocate_snd, stored, after, setPool_pools_self]
  refine ext fun other => ?_
  by_cases same : other = sliceName
  · subst same
    rw [reclaim_pools_self allocated,
      part.reclaim_allocate bound blockFresh blockHanded blockStable, stored]
  · exact (@apply_pools_of_ne _ (.reclaim sliceName clusterName) _ same).trans
      (@apply_pools_of_ne _ (.allocate sliceName clusterName r) _ same)

/-- Along a run in range whose merges are all aligned, `Reclaim` right after a successful
`Allocate` of a prefix of at most 32 bits, for a cluster without a network, gives back the
state the run reached, when no free network of the slice merges with the next one. -/
theorem run_reclaim_allocate (ops : List Op) (inRange : ∀ op ∈ ops, op.InRange)
    (aligned : alignedRun newDynamicIPAMAllocator ops) (sliceName clusterName : String)
    (pool : SliceIPPool) (stored : (newDynamicIPAMAllocator.run ops).pools sliceName = some pool)
    (fresh : pool.allocated.lookup clusterName = none)
    (stable : pool.freeBlocks.Chain' fun x y => tryMerge x y = none)
    {requiredCIDRSize : Int} (atMost : requiredCIDRSize ≤ 32) {text : String}
    (returned :
      ((newDynamicIPAMAllocator.run ops).allocate sliceName clusterName requiredCIDRSize).1 =
        .ok text) :
    (((newDynamicIPAMAllocator.run ops).allocate sliceName clusterName requiredCIDRSize).2.reclaim
        sliceName clusterName).2 = newDynamicIPAMAllocator.run ops :=
  (PoolsSatisfy.new.run_partitioned inRange aligned).reclaim_allocate stored fresh stable atMost
    returned

/-- After the upper cluster is handed back first, a /25 allocated to a new cluster is
10.0.1.0/25, and handing it back gives the state back. -/
theorem reclaimUpperFirst_reclaim_allocate :
    ∃ pool : SliceIPPool,
      (newDynamicIPAMAllocator.run reclaimUpperFirst).pools "s" = some pool ∧
      pool.allocated.lookup "d" = none ∧
      pool.freeBlocks.Chain' (fun x y => tryMerge x y = none) ∧
      ((newDynamicIPAMAllocator.run reclaimUpperFirst).allocate "s" "d" 25).1 =
        .ok "10.0.1.0/25" ∧
      (((newDynamicIPAMAllocator.run reclaimUpperFirst).allocate "s" "d" 25).2.reclaim "s"
          "d").2 = newDynamicIPAMAllocator.run reclaimUpperFirst :=
  have stored : (newDynamicIPAMAllocator.run reclaimUpperFirst).pools "s" =
      some ⟨⟨ipv4 0x0A000000, cidrMask 22 32⟩,
        [(vpnClusterName, ⟨ipv4 0x0A000000, cidrMask 24 32⟩)],
        [⟨ipv4 0x0A000100, cidrMask 24 32⟩, ⟨ipv4 0x0A000200, cidrMask 23 32⟩]⟩ := by
    decide
  ⟨_, stored, by decide, List.chain'_pair.mpr (by decide), by decide,
    run_reclaim_allocate reclaimUpperFirst (by decide) (by decide) "s" "d" _ stored (by decide)
      (List.chain'_pair.mpr (by decide)) (by decide)
      (by decide : _ = Except.ok "10.0.1.0/25")⟩

end DynamicIPAMAllocator

end SliceIpam
