import SliceIpam.Run.Reachable

/-!
# One cluster's network across calls

Once `Allocate(s, c, r)` with `0 ≤ r ≤ 32` has returned a network, no call but `Reclaim(s, c)`
touches the entry it reads: every later `Allocate(s, c, r)` returns the same text and every
`Allocate(s, c, r')` with `r' ≠ r` fails, neither changing the state. On a reachable pool, a
prefix shorter than the slice's fails without a change, and so does a prefix above 32 for a
cluster that has a network, or on an empty free list. For a cluster without a network, nothing
else bounds the prefix above: `Allocate` of a /33 splits the first free block with the nil mask
of `net.CIDRMask(33, 32)` and returns "<nil>".

`InitializePool` registers the pool before it reserves the VPN subnet and keeps it when the
reservation fails, so that a second `InitializePool` of the slice succeeds on a pool without
the reservation.
-/

namespace SliceIpam

open Net V4

/-! ## The network an allocation hands out -/

/-- The network a split hands out has the prefix asked for, when that is 0 to 32 bits and the
first fit has at most as many. -/
theorem splitFirstFit_fst_size {firstFitNet : IPNet} {requiredCIDRSize : Int}
    (fits : (firstFitNet.mask.size.1 : Int) ≤ requiredCIDRSize)
    (nonnegative : 0 ≤ requiredCIDRSize) (atMost : requiredCIDRSize ≤ 32) :
    ((splitFirstFit firstFitNet requiredCIDRSize).1.mask.size.1 : Int) = requiredCIDRSize := by
  unfold splitFirstFit
  dsimp only
  split
  · obtain ⟨n, rfl⟩ := Int.eq_ofNat_of_zero_le nonnegative
    simp only [size_cidrMask (show n ≤ 32 by omega)]
  · show (firstFitNet.mask.size.1 : Int) = requiredCIDRSize
    omega

/-- A network `allocateSubnetForPool` hands out for a prefix of 0 to 32 bits has that prefix,
and is the cluster's entry afterwards. -/
theorem allocateSubnetForPool_ok {pool : SliceIPPool} {clusterName : String}
    {requiredCIDRSize : Int} {net : IPNet}
    (handed : (allocateSubnetForPool pool clusterName requiredCIDRSize).1 = .ok net)
    (nonnegative : 0 ≤ requiredCIDRSize) (atMost : requiredCIDRSize ≤ 32) :
    (allocateSubnetForPool pool clusterName requiredCIDRSize).2.allocated.lookup clusterName =
        some net ∧ (net.mask.size.1 : Int) = requiredCIDRSize := by
  cases found : pool.allocated.lookup clusterName with
  | some allocatedNet =>
      rw [allocateSubnetForPool_of_lookup found] at handed ⊢
      split at handed
      · next same =>
          cases handed
          rw [if_pos same]
          exact ⟨found, same⟩
      · cases handed
  | none =>
      cases fit : firstFit requiredCIDRSize pool.freeBlocks with
      | none =>
          rw [allocateSubnetForPool_of_no_fit found fit] at handed
          cases handed
      | some entry =>
          rw [allocateSubnetForPool_of_fit found fit] at handed ⊢
          cases handed
          exact ⟨lookup_mapInsert_self _ _ _,
            splitFirstFit_fst_size (firstFit_fits fit) nonnegative atMost⟩

/-! ## Prefixes out of range on one pool -/

namespace DynamicIPAMAllocator

/-! ## The window between an allocation and its reclaim -/

/-- In the slice's pool the cluster has a network of `requiredCIDRSize` bits whose text is
`text`. -/
def HoldsNetwork (sliceName clusterName : String) (requiredCIDRSize : Int) (text : String)
    (a : DynamicIPAMAllocator) : Prop :=
  ∃ pool net, a.pools sliceName = some pool ∧ pool.allocated.lookup clusterName = some net ∧
    (net.mask.size.1 : Int) = requiredCIDRSize ∧ net.string = text

section Window

variable {sliceName clusterName : String} {requiredCIDRSize : Int} {text : String}
  {a : DynamicIPAMAllocator}

/-- A successful `Allocate` of 0 to 32 bits leaves the cluster holding the network it returned. -/
theorem holdsNetwork_of_allocate (nonnegative : 0 ≤ requiredCIDRSize)
    (atMost : requiredCIDRSize ≤ 32)
    (returned : (a.allocate sliceName clusterName requiredCIDRSize).1 = .ok text) :
    HoldsNetwork sliceName clusterName requiredCIDRSize text
      (a.allocate sliceName clusterName requiredCIDRSize).2 := by
  obtain ⟨pool, net, stored, handed, named⟩ := allocate_fst_eq_ok returned
  obtain ⟨held, size⟩ := allocateSubnetForPool_ok handed nonnegative atMost
  refine ⟨_, net, ?_, held, size, named⟩
  rw [allocate_snd, stored]
  exact setPool_pools_self _ _ _

/-- No call but `Reclaim(s, c)` changes the slice subnet of the pool of `s` or the network of `c`
in it. -/
theorem apply_keeps_entry {pool : SliceIPPool} {net : IPNet}
    (stored : a.pools sliceName = some pool) (held : pool.allocated.lookup clusterName = some net)
    {op : Op} (other : op ≠ .reclaim sliceName clusterName) :
    ∃ pool', (a.apply op).pools sliceName = some pool' ∧
      pool'.sliceSubnet = pool.sliceSubnet ∧ pool'.allocated.lookup clusterName = some net := by
  by_cases different : sliceName ≠ op.sliceName
  · exact ⟨pool, (a.apply_pools_of_ne different).trans stored, rfl, held⟩
  cases op with
  | initializePool s sliceSubnetStr =>
      obtain rfl : sliceName = s := not_not.mp different
      refine ⟨pool, ?_, rfl, held⟩
      show (a.initializePool sliceName sliceSubnetStr).2.pools sliceName = _
      rw [initializePool_snd, stored]
      exact stored
  | allocate s c r =>
      obtain rfl : sliceName = s := not_not.mp different
      show ∃ pool', (a.allocate sliceName c r).2.pools sliceName = some pool' ∧ _
      simp only [allocate_snd, stored]
      exact ⟨_, setPool_pools_self _ _ _, sliceSubnet_allocateSubnetForPool _ _ _,
        lookup_allocateSubnetForPool held c r⟩
  | reclaim s c =>
      obtain rfl : sliceName = s := not_not.mp different
      have otherCluster : clusterName ≠ c := fun same => other (by rw [same])
      show ∃ pool', (a.reclaim sliceName c).2.pools sliceName = some pool' ∧ _
      simp only [reclaim, stored]
      split
      · exact ⟨pool, stored, rfl, held⟩
      · exact ⟨_, setPool_pools_self _ _ _, rfl,
          (lookup_mapDelete_of_ne _ otherCluster).trans held⟩

/-- A run with no `Reclaim(s, c)` keeps the slice subnet of the pool of `s` and the network of `c`
in it. -/
theorem run_keeps_entry {pool : SliceIPPool} {net : IPNet}
    (stored : a.pools sliceName = some pool) (held : pool.allocated.lookup clusterName = some net)
    {ops : List Op} (kept : Op.reclaim sliceName clusterName ∉ ops) :
    ∃ pool', (a.run ops).pools sliceName = some pool' ∧
      pool'.sliceSubnet = pool.sliceSubnet ∧ pool'.allocated.lookup clusterName = some net := by
  induction ops generalizing a pool with
  | nil => exact ⟨pool, stored, rfl, held⟩
  | cons op ops ih =>
      simp only [List.mem_cons, not_or] at kept
      obtain ⟨pool', stored', sameSlice, held'⟩ :=
        apply_keeps_entry stored held (Ne.symm kept.1)
      obtain ⟨pool'', stored'', sameSlice', held''⟩ := ih stored' held' kept.2
      exact ⟨pool'', stored'', sameSlice'.trans sameSlice, held''⟩

/-- A run with no `Reclaim(s, c)` keeps the cluster's network. -/
theorem HoldsNetwork.run (holds : HoldsNetwork sliceName clusterName requiredCIDRSize text a)
    {ops : List Op} (kept : Op.reclaim sliceName clusterName ∉ ops) :
    HoldsNetwork sliceName clusterName requiredCIDRSize text (a.run ops) := by
  obtain ⟨pool, net, stored, held, size, named⟩ := holds
  obtain ⟨pool', stored', -, held'⟩ := run_keeps_entry stored held kept
  exact ⟨pool', net, stored', held', size, named⟩

/-- While the cluster holds its network, `Allocate` of its size returns the network's text. -/
theorem HoldsNetwork.allocate_self
    (holds : HoldsNetwork sliceName clusterName requiredCIDRSize text a) :
    a.allocate sliceName clusterName requiredCIDRSize = (.ok text, a) := by
  obtain ⟨pool, net, stored, held, size, rfl⟩ := holds
  exact allocate_of_ok stored (by rw [allocateSubnetForPool_of_lookup held, if_pos size])

/-- While the cluster holds its network, `Allocate` of any other size fails. -/
theorem HoldsNetwork.allocate_other
    (holds : HoldsNetwork sliceName clusterName requiredCIDRSize text a) {other : Int}
    (different : other ≠ requiredCIDRSize) :
    ∃ err, a.allocate sliceName clusterName other = (.error err, a) := by
  obtain ⟨pool, net, stored, held, size, -⟩ := holds
  exact ⟨_, allocate_of_error stored
    (by rw [allocateSubnetForPool_of_lookup held, if_neg (by omega)])⟩

end Window

/-- Once `Allocate(s, c, r)` with `0 ≤ r ≤ 32` has returned a text, after any calls but
`Reclaim(s, c)`, `Allocate(s, c, r)` returns the same text and `Allocate(s, c, r')` with
`r' ≠ r` fails, neither changing the state. -/
theorem allocate_repeat (a : DynamicIPAMAllocator) (sliceName clusterName : String)
    {requiredCIDRSize : Int} (nonnegative : 0 ≤ requiredCIDRSize)
    (atMost : requiredCIDRSize ≤ 32) {text : String}
    (returned : (a.allocate sliceName clusterName requiredCIDRSize).1 = .ok text)
    (ops : List Op) (kept : Op.reclaim sliceName clusterName ∉ ops) :
    ((a.allocate sliceName clusterName requiredCIDRSize).2.run ops).allocate sliceName clusterName
        requiredCIDRSize =
      (.ok text, (a.allocate sliceName clusterName requiredCIDRSize).2.run ops) ∧
      ∀ other : Int, other ≠ requiredCIDRSize →
        ∃ err, ((a.allocate sliceName clusterName requiredCIDRSize).2.run ops).allocate sliceName
          clusterName other =
            (.error err, (a.allocate sliceName clusterName requiredCIDRSize).2.run ops) := by
  have holds := (holdsNetwork_of_allocate nonnegative atMost returned).run kept
  exact ⟨holds.allocate_self, fun _ different => holds.allocate_other different⟩

/-- The /24 of cluster `c` in 10.0.0.0/22 stays its network through the allocation of another
cluster, the reclaim of the VPN reservation and a second slice. -/
theorem allocate_repeat_interleaved :
    (((newDynamicIPAMAllocator.initializePool "s" "10.0.0.0/22").2.allocate "s" "c" 24).2.run
        [.allocate "s" "d" 24, .reclaim "s" "VPN_Subnet",
          .initializePool "t" "10.1.0.0/16"]).allocate "s" "c" 24 =
      (.ok "10.0.1.0/24",
        ((newDynamicIPAMAllocator.initializePool "s" "10.0.0.0/22").2.allocate "s" "c" 24).2.run
          [.allocate "s" "d" 24, .reclaim "s" "VPN_Subnet", .initializePool "t" "10.1.0.0/16"]) ∧
      ∀ other : Int, other ≠ 24 →
        ∃ err, (((newDynamicIPAMAllocator.initializePool "s" "10.0.0.0/22").2.allocate "s" "c"
          24).2.run [.allocate "s" "d" 24, .reclaim "s" "VPN_Subnet",
            .initializePool "t" "10.1.0.0/16"]).allocate "s" "c" other =
          (.error err, ((newDynamicIPAMAllocator.initializePool "s" "10.0.0.0/22").2.allocate "s"
            "c" 24).2.run [.allocate "s" "d" 24, .reclaim "s" "VPN_Subnet",
              .initializePool "t" "10.1.0.0/16"]) :=
  allocate_repeat _ "s" "c" (by decide) (by decide) (by decide) _ (by decide)

/-! ## Prefixes out of range -/

/-- An `InitializePool` of an IPv4 subnet on a slice without a pool that returns nil leaves the
VPN reservation, a canonical /24 inside the slice subnet, and no call but
`Reclaim(s, VPN_Subnet)` changes the slice subnet or the reservation. -/
theorem initializePool_reserves_vpn (a : DynamicIPAMAllocator) (sliceName sliceSubnetStr : String)
    (fresh : a.pools sliceName = none)
    (inRange : (Op.initializePool sliceName sliceSubnetStr).InRange)
    (succeeded : (a.initializePool sliceName sliceSubnetStr).1 = .ok ()) :
    ∃ S B : Block, B.Canonical ∧ B.len = 24 ∧ Within B S ∧
      ∀ ops : List Op, Op.reclaim sliceName vpnClusterName ∉ ops →
        ∃ pool,
          ((a.initializePool sliceName sliceSubnetStr).2.run ops).pools sliceName = some pool ∧
            pool.sliceSubnet = S.toIPNet ∧
            pool.allocated.lookup vpnClusterName = some B.toIPNet := by
  obtain ⟨sliceNet, net, parsed, handed⟩ := initializePool_fst_eq_ok fresh succeeded
  simp only [Op.InRange, parsed, beq_iff_eq] at inRange
  obtain ⟨S, canonical, rfl⟩ := parseCIDR_block parsed inRange
  have simulated := allocateSubnetForPool_toPool (Pool.init S) vpnClusterName vpnBound
  rw [show (allocateSubnetForPool (Pool.init S).toPool vpnClusterName (24 : Nat)).1 = .ok net
    from handed] at simulated
  obtain ⟨B, handedB, rfl⟩ := Option.map_eq_some'.mp simulated.1.symm
  obtain ⟨len, entry⟩ := Pool.allocate_fst_eq_some vpnBound handedB
  have part : ((Pool.init S).allocate vpnClusterName vpnBound).2.Partitioned :=
    (Pool.init_partitioned canonical).allocate vpnBound
  have member : B ∈ ((Pool.init S).allocate vpnClusterName vpnBound).2.blocks :=
    List.mem_append_left _ (mem_blocksOf_of_lookup entry)
  have within := part.toTiled.within member
  rw [Pool.allocate_slice] at within
  refine ⟨S, B, part.canonical B member, len, within, fun ops kept => ?_⟩
  have stored : (a.initializePool sliceName sliceSubnetStr).2.pools sliceName =
      some ((Pool.init S).allocate vpnClusterName vpnBound).2.toPool := by
    rw [initializePool_snd, fresh, parsed, ← simulated.2]
    exact setPool_pools_self _ _ _
  obtain ⟨pool, stored', sameSlice, held⟩ := run_keeps_entry stored
    (by rw [Pool.toPool, lookup_toIPNets, entry]; rfl) kept
  exact ⟨pool, stored', sameSlice.trans (by rw [Pool.toPool, Pool.allocate_slice]; rfl), held⟩

/-- 10.0.0.0/22 reserves 10.0.0.0/24 for the VPN, kept by every run without its reclaim. -/
theorem initializePool_reserves_vpn_22 :
    ∃ S B : Block, B.Canonical ∧ B.len = 24 ∧ Within B S ∧
      ∀ ops : List Op, Op.reclaim "s" vpnClusterName ∉ ops →
        ∃ pool, ((newDynamicIPAMAllocator.initializePool "s" "10.0.0.0/22").2.run ops).pools "s" =
            some pool ∧
          pool.sliceSubnet = S.toIPNet ∧ pool.allocated.lookup vpnClusterName = some B.toIPNet :=
  initializePool_reserves_vpn _ "s" "10.0.0.0/22" rfl (by decide) (by decide)

/-! ## A retried initialization -/

/-- A /25 slice has no room for the VPN /24: the first `InitializePool` fails but registers the
pool, and the second succeeds on a pool where no cluster, the VPN reservation included, has a
network. -/
theorem initializePool_retry_without_vpn :
    (newDynamicIPAMAllocator.initializePool "s" "10.0.0.0/25").1 =
        .error "failed to reserve VPN subnet for slice s: no available subnet of size /24 in pool" ∧
      ((newDynamicIPAMAllocator.initializePool "s" "10.0.0.0/25").2.initializePool "s"
        "10.0.0.0/25").1 = .ok () ∧
      (((newDynamicIPAMAllocator.initializePool "s" "10.0.0.0/25").2.initializePool "s"
        "10.0.0.0/25").2.pools "s").map SliceIPPool.allocated = some [] := by
  decide

end DynamicIPAMAllocator

end SliceIpam
