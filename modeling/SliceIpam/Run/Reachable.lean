import SliceIpam.V4.Invariant
import SliceIpam.V4.Text

/-!
# The pools of every reachable state

Runs of the allocator that initialize only IPv4 slices and ask only for prefixes of at most 32
bits. Along such a run every pool is the network form of a pool of blocks (`PoolsSatisfy`),
and the pool of blocks is `Tiled`. When, in addition, every merge of every `Reclaim` sweep of
the run gives a network with no host bits (`alignedRun`), every pool is `Partitioned`.
-/

namespace SliceIpam

open Net V4

namespace Op

/-- The calls of the runs the invariants are about: an `InitializePool` whose subnet `ParseCIDR`
reads as an IPv4 network or rejects, an `Allocate` of a prefix of at most 32 bits, and any
`Reclaim`. -/
def InRange : Op → Bool
  | .initializePool _ sliceSubnetStr =>
      match parseCIDR sliceSubnetStr with
      | .ok sliceNet => sliceNet.mask.length == IPv4len
      | .error _ => true
  | .allocate _ _ requiredCIDRSize => decide (requiredCIDRSize ≤ 32)
  | .reclaim _ _ => true

end Op

/-! ## Pools of blocks and their networks -/

theorem toIPNets_injective {m m' : List (String × Block)} (same : toIPNets m = toIPNets m') :
    m = m' :=
  List.map_injective_iff.mpr (fun a b same => by
    simp only [Prod.mk.injEq] at same
    exact Prod.ext same.1 (Block.toIPNet_injective same.2)) same

theorem Pool.toPool_injective {P Q : Pool} (same : P.toPool = Q.toPool) : P = Q := by
  obtain ⟨slice, allocated, free⟩ := P
  obtain ⟨slice', allocated', free'⟩ := Q
  simp only [Pool.toPool, SliceIPPool.mk.injEq] at same
  obtain ⟨sameSlice, sameAllocated, sameFree⟩ := same
  rw [Block.toIPNet_injective sameSlice, toIPNets_injective sameAllocated,
    List.map_injective_iff.mpr (fun _ _ => Block.toIPNet_injective) sameFree]

/-- A negative prefix length fits no block: `allocateSubnetForPool` fails and changes nothing. -/
theorem allocateSubnetForPool_of_neg (pool : SliceIPPool) (clusterName : String)
    {requiredCIDRSize : Int} (negative : requiredCIDRSize < 0) :
    ∃ err, allocateSubnetForPool pool clusterName requiredCIDRSize = (.error err, pool) := by
  have none : ∀ blocks, firstFit requiredCIDRSize blocks = none := by
    intro blocks
    induction blocks with
    | nil => rfl
    | cons b rest ih =>
        rw [firstFit, if_neg (by omega), ih]
        rfl
  unfold allocateSubnetForPool
  split
  · dsimp only
    rw [if_neg (by omega)]
    exact ⟨_, rfl⟩
  · rw [none]
    exact ⟨_, rfl⟩

namespace DynamicIPAMAllocator

/-- Every pool of the allocator is the network form of a pool of blocks that satisfies `Inv`. -/
def PoolsSatisfy (Inv : Pool → Prop) (a : DynamicIPAMAllocator) : Prop :=
  ∀ sliceName pool, a.pools sliceName = some pool → ∃ P : Pool, P.toPool = pool ∧ Inv P

section Steps

variable {Inv : Pool → Prop} {a : DynamicIPAMAllocator}

theorem PoolsSatisfy.new : PoolsSatisfy Inv newDynamicIPAMAllocator :=
  fun _ _ none => by cases none

theorem PoolsSatisfy.setPool (holds : PoolsSatisfy Inv a) (sliceName : String) {P : Pool}
    (inv : Inv P) : PoolsSatisfy Inv (a.setPool sliceName P.toPool) := by
  intro other pool stored
  by_cases same : other = sliceName
  · subst same
    rw [setPool_pools_self] at stored
    exact ⟨P, Option.some.inj stored, inv⟩
  · rw [setPool_pools_of_ne _ _ same] at stored
    exact holds other pool stored

/-- The pool of blocks behind a pool of the allocator. -/
theorem PoolsSatisfy.pool (holds : PoolsSatisfy Inv a) {sliceName : String} {P : Pool}
    (stored : a.pools sliceName = some P.toPool) : Inv P := by
  obtain ⟨Q, same, inv⟩ := holds sliceName _ stored
  exact Pool.toPool_injective same ▸ inv

/-- The prefix length of the VPN reservation. -/
theorem vpnBound : (24 : Nat) ≤ 32 := by decide

/-- What `InitializePool` of an IPv4 subnet can do: nothing, or register the pool of blocks of
a canonical subnet after its VPN reservation. -/
theorem initializePool_cases (a : DynamicIPAMAllocator) (sliceName sliceSubnetStr : String)
    (inRange : (Op.initializePool sliceName sliceSubnetStr).InRange) :
    (a.initializePool sliceName sliceSubnetStr).2 = a ∨
      ∃ S : Block, S.Canonical ∧ (a.initializePool sliceName sliceSubnetStr).2 =
        a.setPool sliceName ((Pool.init S).allocate vpnClusterName vpnBound).2.toPool := by
  rw [initializePool_snd]
  split
  · exact Or.inl rfl
  · exact Or.inl rfl
  · next sliceNet parsed =>
      simp only [Op.InRange, parsed, beq_iff_eq] at inRange
      obtain ⟨S, canonical, rfl⟩ := parseCIDR_block parsed inRange
      exact Or.inr ⟨S, canonical,
        congrArg _ (allocateSubnetForPool_toPool (Pool.init S) vpnClusterName vpnBound).2⟩

/-- What `Allocate` of a prefix of at most 32 bits can do: nothing, or allocate in the pool of
blocks of the slice. -/
theorem allocate_cases (holds : PoolsSatisfy (fun _ => True) a) (sliceName clusterName : String)
    {requiredCIDRSize : Int} (inRange : requiredCIDRSize ≤ 32) :
    (a.allocate sliceName clusterName requiredCIDRSize).2 = a ∨
      ∃ (P : Pool) (r : Nat) (bound : r ≤ 32), requiredCIDRSize = r ∧
        a.pools sliceName = some P.toPool ∧
        (a.allocate sliceName clusterName requiredCIDRSize).2 =
          a.setPool sliceName (P.allocate clusterName bound).2.toPool := by
  rw [allocate_snd]
  split
  · exact Or.inl rfl
  · next pool stored =>
      obtain ⟨P, rfl, -⟩ := holds sliceName pool stored
      rcases Int.lt_or_le requiredCIDRSize 0 with negative | nonnegative
      · obtain ⟨_, failed⟩ := allocateSubnetForPool_of_neg P.toPool clusterName negative
        rw [failed, setPool_of_pools_eq stored]
        exact Or.inl rfl
      · obtain ⟨r, rfl⟩ := Int.eq_ofNat_of_zero_le nonnegative
        have bound : r ≤ 32 := by omega
        exact Or.inr ⟨P, r, bound, rfl, stored,
          congrArg _ (allocateSubnetForPool_toPool P clusterName bound).2⟩

/-- What `Reclaim` can do: nothing, or reclaim in the pool of blocks of the slice. -/
theorem reclaim_cases (holds : PoolsSatisfy (fun _ => True) a) (sliceName clusterName : String) :
    (a.reclaim sliceName clusterName).2 = a ∨
      ∃ P : Pool, a.pools sliceName = some P.toPool ∧
        (a.reclaim sliceName clusterName).2 =
          a.setPool sliceName (P.reclaim clusterName).toPool := by
  unfold reclaim
  split
  · exact Or.inl rfl
  · next pool stored =>
      obtain ⟨P, rfl, -⟩ := holds sliceName pool stored
      split
      · exact Or.inl rfl
      · next R found =>
          refine Or.inr ⟨P, stored, ?_⟩
          simp only [Pool.toPool, lookup_toIPNets, Option.map_eq_some'] at found
          obtain ⟨R, found, rfl⟩ := found
          simp only [Pool.reclaim, found, Pool.toPool, toIPNets_mapDelete, reclaimedFreeBlocks_map]

theorem PoolsSatisfy.trivial (holds : PoolsSatisfy Inv a) : PoolsSatisfy (fun _ => True) a :=
  fun s pool stored => (holds s pool stored).imp fun _ ⟨same, _⟩ => ⟨same, True.intro⟩

/-- A call in range keeps every pool `Tiled`. -/
theorem PoolsSatisfy.apply_tiled (holds : PoolsSatisfy Pool.Tiled a) {op : Op}
    (inRange : op.InRange) : PoolsSatisfy Pool.Tiled (a.apply op) := by
  cases op with
  | initializePool sliceName sliceSubnetStr =>
      show PoolsSatisfy _ (a.initializePool sliceName sliceSubnetStr).2
      rcases initializePool_cases a sliceName sliceSubnetStr inRange with
        same | ⟨S, canonical, step⟩
      · rw [same]
        exact holds
      · rw [step]
        exact holds.setPool sliceName ((Pool.init_partitioned canonical).toTiled.allocate _)
  | allocate sliceName clusterName requiredCIDRSize =>
      show PoolsSatisfy _ (a.allocate sliceName clusterName requiredCIDRSize).2
      rcases allocate_cases holds.trivial sliceName clusterName (of_decide_eq_true inRange) with
        same | ⟨P, r, bound, -, stored, step⟩
      · rw [same]
        exact holds
      · rw [step]
        exact holds.setPool sliceName ((holds.pool stored).allocate bound)
  | reclaim sliceName clusterName =>
      show PoolsSatisfy _ (a.reclaim sliceName clusterName).2
      rcases reclaim_cases holds.trivial sliceName clusterName with same | ⟨P, stored, step⟩
      · rw [same]
        exact holds
      · rw [step]
        exact holds.setPool sliceName (holds.pool stored).reclaim

/-- Every run of calls in range keeps every pool `Tiled`. -/
theorem PoolsSatisfy.run_tiled (holds : PoolsSatisfy Pool.Tiled a) {ops : List Op}
    (inRange : ∀ op ∈ ops, op.InRange) : PoolsSatisfy Pool.Tiled (a.run ops) := by
  induction ops generalizing a with
  | nil => exact holds
  | cons op ops ih =>
      exact ih (holds.apply_tiled (inRange op (List.mem_cons_self _ _)))
        fun op member => inRange op (List.mem_cons_of_mem _ member)

end Steps

end DynamicIPAMAllocator

/-! ## Runs whose merges are aligned -/

/-- The network has no host bits, `IP.Mask(Mask).Equal(IP)`. -/
def hostBitsZero (n : IPNet) : Bool :=
  (n.ip.mask n.mask).equal n.ip

theorem hostBitsZero_toIPNet (b : Block) : hostBitsZero b.toIPNet = decide b.Canonical := by
  rw [hostBitsZero, Block.toIPNet_ip, Block.toIPNet_mask, mask_ipv4 _ b.len_le, equal_ipv4,
    Nat.mod_eq_of_lt (div_mul_lt_two_pow _ _), Nat.mod_eq_of_lt b.addr_lt]
  refine decide_eq_decide.mpr ⟨fun aligned => ?_, fun canonical => Nat.div_mul_cancel
    (Nat.dvd_of_mod_eq_zero canonical)⟩
  exact Nat.mod_eq_zero_of_dvd ⟨_, (Nat.mul_comm _ _).trans aligned |>.symm⟩

/-- Every merge of `Reclaim`'s sweep from `current` gives a network with no host bits. -/
def mergesHostBitsZero (current : IPNet) : List IPNet → Bool
  | [] => true
  | next :: rest =>
      match tryMerge current next with
      | some merged => hostBitsZero merged && mergesHostBitsZero merged rest
      | none => mergesHostBitsZero next rest

/-- Every merge of `Reclaim`'s sweep over a whole free list gives a network with no host bits. -/
def sweepMergesHostBitsZero : List IPNet → Bool
  | [] => true
  | first :: rest => mergesHostBitsZero first rest

theorem mergesHostBitsZero_map (current : Block) (blocks : List Block) :
    mergesHostBitsZero current.toIPNet (blocks.map Block.toIPNet) =
      mergesCanonical current blocks := by
  induction blocks generalizing current with
  | nil => rfl
  | cons next rest ih =>
      simp only [List.map_cons, mergesHostBitsZero, Block.tryMerge_toIPNet, mergesCanonical]
      cases current.tryMerge next <;> simp [ih, hostBitsZero_toIPNet]

theorem sweepMergesHostBitsZero_map (blocks : List Block) :
    sweepMergesHostBitsZero (blocks.map Block.toIPNet) = mergesCanonicalBlocks blocks := by
  cases blocks with
  | nil => rfl
  | cons first rest => exact mergesHostBitsZero_map first rest

namespace Op

/-- The call, made in the state `a`, is not a `Reclaim` whose sweep merges two networks into one
with host bits. -/
def mergesAligned (a : DynamicIPAMAllocator) : Op → Bool
  | .reclaim sliceName clusterName =>
      match a.pools sliceName with
      | none => true
      | some pool =>
          match pool.allocated.lookup clusterName with
          | none => true
          | some subnetToReclaim =>
              sweepMergesHostBitsZero (sortFreeBlocks (pool.freeBlocks ++ [subnetToReclaim]))
  | _ => true

end Op

namespace DynamicIPAMAllocator

/-- Every call of the run, made in the state the run has reached, merges only aligned pairs. -/
def alignedRun : DynamicIPAMAllocator → List Op → Bool
  | _, [] => true
  | a, op :: ops => op.mergesAligned a && alignedRun (a.apply op) ops

section Aligned

variable {a : DynamicIPAMAllocator}

/-- A call in range that merges only aligned pairs keeps every pool `Partitioned`. -/
theorem PoolsSatisfy.apply_partitioned (holds : PoolsSatisfy Pool.Partitioned a) {op : Op}
    (inRange : op.InRange) (aligned : op.mergesAligned a) :
    PoolsSatisfy Pool.Partitioned (a.apply op) := by
  cases op with
  | initializePool sliceName sliceSubnetStr =>
      show PoolsSatisfy _ (a.initializePool sliceName sliceSubnetStr).2
      rcases initializePool_cases a sliceName sliceSubnetStr inRange with
        same | ⟨S, canonical, step⟩
      · rw [same]
        exact holds
      · rw [step]
        exact holds.setPool sliceName ((Pool.init_partitioned canonical).allocate _)
  | allocate sliceName clusterName requiredCIDRSize =>
      show PoolsSatisfy _ (a.allocate sliceName clusterName requiredCIDRSize).2
      rcases allocate_cases holds.trivial sliceName clusterName (of_decide_eq_true inRange) with
        same | ⟨P, r, bound, -, stored, step⟩
      · rw [same]
        exact holds
      · rw [step]
        exact holds.setPool sliceName ((holds.pool stored).allocate bound)
  | reclaim sliceName clusterName =>
      show PoolsSatisfy _ (a.reclaim sliceName clusterName).2
      rcases reclaim_cases holds.trivial sliceName clusterName with same | ⟨P, stored, step⟩
      · rw [same]
        exact holds
      · rw [step]
        refine holds.setPool sliceName ((holds.pool stored).reclaim fun R found => ?_)
        simp only [Op.mergesAligned, stored, Pool.toPool, lookup_toIPNets, found,
          Option.map_some'] at aligned
        rwa [← List.map_singleton, ← List.map_append, sortFreeBlocks_map,
          sweepMergesHostBitsZero_map] at aligned

/-- Every run of calls in range that merges only aligned pairs keeps every pool
`Partitioned`. -/
theorem PoolsSatisfy.run_partitioned (holds : PoolsSatisfy Pool.Partitioned a) {ops : List Op}
    (inRange : ∀ op ∈ ops, op.InRange) (aligned : alignedRun a ops) :
    PoolsSatisfy Pool.Partitioned (a.run ops) := by
  induction ops generalizing a with
  | nil => exact holds
  | cons op ops ih =>
      rw [alignedRun, Bool.and_eq_true] at aligned
      exact ih (holds.apply_partitioned (inRange op (List.mem_cons_self _ _)) aligned.1)
        (fun op member => inRange op (List.mem_cons_of_mem _ member)) aligned.2

end Aligned

end DynamicIPAMAllocator

end SliceIpam
