import SliceIpam.Spec.Slice
import SliceIpam.Run.FreeList

/-!
# The allocator refines what a slice is for

`Pool.toSlice` reads a pool of blocks as the spec's slice: its subnet and its cluster map, with
the free list forgotten. Read so, every call in a state whose pools are partitions is a step of
`Spec.Step` on the pool of every slice: `Allocate(s, c, r)` grants `c` the block it splits off or
refuses, `Reclaim(s, c)` releases the block of `c`, and every other call leaves the pool of `s`
as it is. The pool `InitializePool` creates is the empty slice after the `Allocate` of the VPN
reservation. So along every run in range whose merges are aligned, every pool is a slice the
spec reaches, and has what the spec guarantees.
-/

namespace SliceIpam

open Net V4 Spec

namespace V4.Pool

/-- The spec's view of a pool of blocks: the slice subnet and the cluster map. -/
def toSlice (P : Pool) : Slice :=
  ⟨P.slice, fun clusterName => P.allocated.lookup clusterName⟩

theorem lookup_cons_eq_update (m : List (String × Block)) (k : String) (b : Block) :
    (fun c => ((k, b) :: m).lookup c) = Function.update (fun c => m.lookup c) k (some b) := by
  funext c
  by_cases same : c = k
  · rw [same, Function.update_same]
    simp only [List.lookup_cons, beq_self_eq_true]
  · rw [Function.update_noteq same]
    simp only [List.lookup_cons, beq_false_of_ne same]

theorem lookup_mapDelete_eq_update (m : List (String × Block)) (k : String) :
    (fun c => (mapDelete m k).lookup c) = Function.update (fun c => m.lookup c) k none := by
  funext c
  by_cases same : c = k
  · rw [same, Function.update_same, lookup_mapDelete_self]
  · rw [Function.update_noteq same, lookup_mapDelete_of_ne _ same]

/-- An allocation in a partition is a step of the spec: the grant of the block split off for a
cluster without one, or a refusal. -/
theorem Partitioned.allocate_step {P : Pool} (part : P.Partitioned) (clusterName : String)
    {r : Nat} (bound : r ≤ 32) :
    Step P.toSlice (.allocate clusterName r) (P.allocate clusterName bound).2.toSlice := by
  rcases allocate_cases bound P clusterName with same | ⟨i, B, absent, fit, result⟩
  · rw [same]
    exact Step.refuse
  · have after : (P.allocate clusterName bound).2.Partitioned := part.allocate bound
    obtain ⟨len, held⟩ := allocate_fst_eq_some bound (congrArg Prod.fst result)
    have label : ((r : Nat) : Int) = ((splitFirstFit B r bound).1.len : Int) := by rw [len]
    have member : (splitFirstFit B r bound).1 ∈ (P.allocate clusterName bound).2.blocks := by
      rw [result]
      exact List.mem_cons_self _ _
    have canonical := after.canonical _ member
    have within := after.toTiled.within member
    rw [result] at after held within
    rw [result, label]
    show Step P.toSlice (.allocate clusterName (splitFirstFit B r bound).1.len)
      ⟨P.slice, fun c => ((clusterName, (splitFirstFit B r bound).1) :: P.allocated).lookup c⟩
    rw [lookup_cons_eq_update]
    refine Step.grant absent canonical (fun x inS => within.mem inS)
      fun other b' found' x inS inB' => ?_
    have found'' : P.allocated.lookup other = some b' := found'
    have different : other ≠ clusterName := fun same => by
      rw [same, absent] at found''
      cases found''
    refine after.toTiled.disjoint_of_lookup different held ?_ x inS inB'
    simpa only [List.lookup_cons, beq_false_of_ne different] using found''

/-- A reclaim is a step of the spec: the release of the cluster's block. -/
theorem reclaim_step (P : Pool) (clusterName : String) :
    Step P.toSlice (.reclaim clusterName) (P.reclaim clusterName).toSlice := by
  have slice : (P.reclaim clusterName).slice = P.slice := by
    rcases reclaim_cases P clusterName with same | ⟨R, -, result⟩
    · rw [same]
    · rw [result]
  rw [toSlice, toSlice, slice, reclaim_allocated, lookup_mapDelete_eq_update]
  exact Step.release

end V4.Pool

namespace Op

/-- The call the operation makes on the slice `sliceName`, if it makes one. -/
def callOn (sliceName : String) : Op → Option Call
  | .initializePool _ _ => none
  | .allocate s clusterName requiredCIDRSize =>
      if s = sliceName then some (.allocate clusterName requiredCIDRSize) else none
  | .reclaim s clusterName => if s = sliceName then some (.reclaim clusterName) else none

/-- `Q`, the pool of the slice after the operation, is a step of the spec from `P` on the call
the operation makes on the slice, and `P` itself when it makes none. -/
def Refines (op : Op) (sliceName : String) (P Q : Pool) : Prop :=
  match op.callOn sliceName with
  | some call => Step P.toSlice call Q.toSlice
  | none => Q = P

theorem callOn_allocate {s sliceName clusterName : String} {requiredCIDRSize : Int}
    (same : s = sliceName) :
    (Op.allocate s clusterName requiredCIDRSize).callOn sliceName =
      some (.allocate clusterName requiredCIDRSize) :=
  if_pos same

theorem callOn_reclaim {s sliceName clusterName : String} (same : s = sliceName) :
    (Op.reclaim s clusterName).callOn sliceName = some (.reclaim clusterName) :=
  if_pos same

/-- A call on another slice makes no call on this one. -/
theorem callOn_of_ne {op : Op} {sliceName : String} (other : op.sliceName ≠ sliceName) :
    op.callOn sliceName = none := by
  cases op with
  | initializePool => rfl
  | allocate => exact if_neg other
  | reclaim => exact if_neg other

theorem refines_iff_step {op : Op} {sliceName : String} {call : Call}
    (calls : op.callOn sliceName = some call) {P Q : Pool} :
    op.Refines sliceName P Q ↔ Step P.toSlice call Q.toSlice := by
  rw [Refines, calls]

theorem refines_iff_eq {op : Op} {sliceName : String} (calls : op.callOn sliceName = none)
    {P Q : Pool} : op.Refines sliceName P Q ↔ Q = P := by
  rw [Refines, calls]

end Op

namespace DynamicIPAMAllocator

variable {a : DynamicIPAMAllocator}

/-! ## One call -/

/-- In a state whose pools are partitions, every call in range is, on the pool of every slice
that has one, a step of the spec on the call it makes there, and leaves the pool as it is when
it makes none. -/
theorem PoolsSatisfy.apply_refines (holds : PoolsSatisfy Pool.Partitioned a) {op : Op}
    (inRange : op.InRange) {sliceName : String} {P : Pool}
    (stored : a.pools sliceName = some P.toPool) :
    ∃ Q : Pool, (a.apply op).pools sliceName = some Q.toPool ∧ op.Refines sliceName P Q := by
  by_cases different : op.sliceName ≠ sliceName
  · exact ⟨P, by rw [a.apply_pools_of_ne (Ne.symm different), stored],
      (Op.refines_iff_eq (Op.callOn_of_ne different)).mpr rfl⟩
  cases op with
  | initializePool s sliceSubnetStr =>
      obtain rfl : s = sliceName := not_not.mp different
      refine ⟨P, ?_, rfl⟩
      show (a.initializePool _ sliceSubnetStr).2.pools _ = _
      rw [initializePool_snd, stored]
      exact stored
  | allocate s clusterName requiredCIDRSize =>
      obtain rfl : s = sliceName := not_not.mp different
      show ∃ Q : Pool, (a.allocate _ clusterName requiredCIDRSize).2.pools _ = some Q.toPool ∧ _
      rcases allocate_cases holds.trivial _ clusterName (of_decide_eq_true inRange) with
        unchanged | ⟨P', r, bound, rfl, stored', step⟩
      · exact ⟨P, by rw [unchanged, stored],
          (Op.refines_iff_step (Op.callOn_allocate rfl)).mpr Step.refuse⟩
      · obtain rfl := Pool.toPool_injective (Option.some.inj (stored'.symm.trans stored))
        exact ⟨_, by rw [step, setPool_pools_self],
          (Op.refines_iff_step (Op.callOn_allocate rfl)).mpr
            ((holds.pool stored).allocate_step _ bound)⟩
  | reclaim s clusterName =>
      obtain rfl : s = sliceName := not_not.mp different
      exact ⟨_, reclaim_pools_self stored clusterName,
        (Op.refines_iff_step (Op.callOn_reclaim rfl)).mpr (Pool.reclaim_step P clusterName)⟩

/-- A pool that a call in range creates is the pool of a canonical subnet after the `Allocate`
of the VPN reservation. -/
theorem apply_creates {op : Op} (inRange : op.InRange) {sliceName : String}
    (absent : a.pools sliceName = none) {Q : Pool}
    (stored : (a.apply op).pools sliceName = some Q.toPool) :
    ∃ S : Block, S.Canonical ∧ Q = ((Pool.init S).allocate vpnClusterName vpnBound).2 := by
  by_cases different : sliceName ≠ op.sliceName
  · rw [a.apply_pools_of_ne different, absent] at stored
    cases stored
  cases op with
  | initializePool s sliceSubnetStr =>
      obtain rfl : sliceName = s := not_not.mp different
      change (a.initializePool sliceName sliceSubnetStr).2.pools sliceName = _ at stored
      rcases initializePool_cases a sliceName sliceSubnetStr inRange with
        unchanged | ⟨S, canonical, step⟩
      · rw [unchanged, absent] at stored
        cases stored
      · rw [step, setPool_pools_self] at stored
        exact ⟨S, canonical, Pool.toPool_injective (Option.some.inj stored).symm⟩
  | allocate s clusterName requiredCIDRSize =>
      obtain rfl : sliceName = s := not_not.mp different
      change (a.allocate sliceName clusterName requiredCIDRSize).2.pools sliceName = _ at stored
      simp [allocate_snd, absent] at stored
  | reclaim s clusterName =>
      obtain rfl : sliceName = s := not_not.mp different
      change (a.reclaim sliceName clusterName).2.pools sliceName = _ at stored
      simp [reclaim, absent] at stored

/-! ## Whole runs -/

/-- Every pool is a partition of its subnet that the spec reaches. -/
def SpecReachable (P : Pool) : Prop :=
  P.Partitioned ∧ Reachable P.toSlice

/-- A call in range that merges only aligned pairs keeps every pool a partition the spec
reaches. -/
theorem PoolsSatisfy.apply_reachable (holds : PoolsSatisfy SpecReachable a) {op : Op}
    (inRange : op.InRange) (aligned : op.mergesAligned a) :
    PoolsSatisfy SpecReachable (a.apply op) := by
  have parts : PoolsSatisfy Pool.Partitioned a := fun s pool stored =>
    (holds s pool stored).imp fun _ ⟨same, part, _⟩ => ⟨same, part⟩
  intro sliceName pool stored
  obtain ⟨Q, rfl, partQ⟩ := parts.apply_partitioned inRange aligned sliceName pool stored
  refine ⟨Q, rfl, partQ, ?_⟩
  cases before : a.pools sliceName with
  | none =>
      obtain ⟨S, canonical, rfl⟩ := apply_creates inRange before stored
      exact Reachable.step (Reachable.empty canonical)
        ((Pool.init_partitioned canonical).allocate_step vpnClusterName vpnBound)
  | some poolP =>
      obtain ⟨P, rfl, -, reached⟩ := holds sliceName poolP before
      obtain ⟨Q', stored', refines⟩ := parts.apply_refines inRange before
      obtain rfl := Pool.toPool_injective (Option.some.inj (stored'.symm.trans stored))
      cases calls : op.callOn sliceName with
      | none => exact (Op.refines_iff_eq calls).mp refines ▸ reached
      | some call => exact reached.step ((Op.refines_iff_step calls).mp refines)

theorem PoolsSatisfy.run_reachable (holds : PoolsSatisfy SpecReachable a) {ops : List Op}
    (inRange : ∀ op ∈ ops, op.InRange) (aligned : alignedRun a ops) :
    PoolsSatisfy SpecReachable (a.run ops) := by
  induction ops generalizing a with
  | nil => exact holds
  | cons op ops ih =>
      rw [alignedRun, Bool.and_eq_true] at aligned
      exact ih (holds.apply_reachable (inRange op (List.mem_cons_self _ _)) aligned.1)
        (fun op member => inRange op (List.mem_cons_of_mem _ member)) aligned.2

/-- Along every run in range whose merges are aligned, the next call in range is, on the pool of
every slice that has one, a step of the spec on the call it makes there, from a slice the spec
reaches; and it leaves the pool as it is when it makes no call there. -/
theorem run_refines (ops : List Op) (inRange : ∀ op ∈ ops, op.InRange)
    (aligned : alignedRun newDynamicIPAMAllocator ops) (op : Op) (opInRange : op.InRange)
    (sliceName : String) (pool : SliceIPPool)
    (stored : (newDynamicIPAMAllocator.run ops).pools sliceName = some pool) :
    ∃ P Q : Pool, P.toPool = pool ∧ Reachable P.toSlice ∧
      ((newDynamicIPAMAllocator.run ops).apply op).pools sliceName = some Q.toPool ∧
      op.Refines sliceName P Q := by
  have holds := PoolsSatisfy.new.run_reachable inRange aligned
  obtain ⟨P, rfl, part, reached⟩ := holds sliceName pool stored
  have parts : PoolsSatisfy Pool.Partitioned (newDynamicIPAMAllocator.run ops) :=
    fun s pool stored => (holds s pool stored).imp fun _ ⟨same, part, _⟩ => ⟨same, part⟩
  obtain ⟨Q, stepped, refines⟩ := parts.apply_refines opInRange stored
  exact ⟨P, Q, rfl, reached, stepped, refines⟩

/-- After the upper cluster is handed back first, the pool of the slice is one the spec
reaches, and `Allocate(s, d, 23)` is a step of the spec on it. -/
theorem reclaimUpperFirst_refines :
    ∃ (pool : SliceIPPool) (P Q : Pool),
      (newDynamicIPAMAllocator.run reclaimUpperFirst).pools "s" = some pool ∧
      P.toPool = pool ∧ Reachable P.toSlice ∧
      ((newDynamicIPAMAllocator.run reclaimUpperFirst).apply (.allocate "s" "d" 23)).pools "s" =
        some Q.toPool ∧
      (Op.allocate "s" "d" 23).Refines "s" P Q :=
  let ⟨pool, stored⟩ := Option.isSome_iff_exists.mp
    (by decide : ((newDynamicIPAMAllocator.run reclaimUpperFirst).pools "s").isSome)
  let ⟨P, Q, same, reached, stepped, refines⟩ := run_refines reclaimUpperFirst (by decide)
    (by decide) (.allocate "s" "d" 23) (by decide) "s" pool stored
  ⟨pool, P, Q, stored, same, reached, stepped, refines⟩

end DynamicIPAMAllocator

end SliceIpam
