import SliceIpam.Allocator.Registry

/-!
# Slices are isolated

Every call names one slice and reads and writes the pool of that slice alone: what it returns,
and the pool it leaves there, depend on that pool only, and every other pool stays as it is
(`apply_pools_of_ne`). So after any sequence of calls the pool of a slice, and what each call on
it returned, are what the calls on that slice alone give, made in their order from the same
state: what a slice sees does not depend on the calls made on other slices, nor on how they are
interleaved with its own.
-/

namespace SliceIpam

namespace DynamicIPAMAllocator

variable {a b : DynamicIPAMAllocator}

/-! ## One call reads one pool -/

section Congr

variable {sliceName : String}

theorem initializePool_congr (sliceSubnetStr : String)
    (same : a.pools sliceName = b.pools sliceName) :
    (a.initializePool sliceName sliceSubnetStr).1 =
        (b.initializePool sliceName sliceSubnetStr).1 ∧
      (a.initializePool sliceName sliceSubnetStr).2.pools sliceName =
        (b.initializePool sliceName sliceSubnetStr).2.pools sliceName := by
  unfold initializePool
  rw [same]
  split
  · exact ⟨rfl, same⟩
  · split
    · exact ⟨rfl, same⟩
    · dsimp only
      generalize allocateSubnetForPool _ vpnClusterName vpnSubnetRequiredSize = step
      obtain ⟨result, pool⟩ := step
      cases result <;> simp only [setPool_pools_self, and_self]

theorem allocate_congr (clusterName : String) (requiredCIDRSize : Int)
    (same : a.pools sliceName = b.pools sliceName) :
    (a.allocate sliceName clusterName requiredCIDRSize).1 =
        (b.allocate sliceName clusterName requiredCIDRSize).1 ∧
      (a.allocate sliceName clusterName requiredCIDRSize).2.pools sliceName =
        (b.allocate sliceName clusterName requiredCIDRSize).2.pools sliceName := by
  rw [allocate_fst, allocate_fst, allocate_snd, allocate_snd, same]
  split
  · exact ⟨rfl, same⟩
  · simp only [setPool_pools_self, and_self]

theorem reclaim_congr (clusterName : String) (same : a.pools sliceName = b.pools sliceName) :
    (a.reclaim sliceName clusterName).1 = (b.reclaim sliceName clusterName).1 ∧
      (a.reclaim sliceName clusterName).2.pools sliceName =
        (b.reclaim sliceName clusterName).2.pools sliceName := by
  unfold reclaim
  rw [same]
  split
  · exact ⟨rfl, same⟩
  · split
    · exact ⟨rfl, same⟩
    · simp only [setPool_pools_self, and_self]

end Congr

/-- A call returns the same, and leaves the same pool for its slice, from two states with the
same pool for its slice. -/
theorem call_congr {op : Op} (same : a.pools op.sliceName = b.pools op.sliceName) :
    a.returns op = b.returns op ∧
      (a.apply op).pools op.sliceName = (b.apply op).pools op.sliceName := by
  cases op with
  | initializePool sliceName sliceSubnetStr =>
      obtain ⟨returned, kept⟩ := initializePool_congr sliceSubnetStr same
      exact ⟨congrArg (Except.map fun _ => "") returned, kept⟩
  | allocate sliceName clusterName requiredCIDRSize =>
      exact allocate_congr clusterName requiredCIDRSize same
  | reclaim sliceName clusterName =>
      obtain ⟨returned, kept⟩ := reclaim_congr clusterName same
      exact ⟨congrArg (Except.map fun _ => "") returned, kept⟩

/-! ## Runs -/

/-- Calls that all name the slice `s` return the same, and leave the same pool for `s`, from two
states with the same pool for `s`. -/
theorem run_congr {s : String} {ops : List Op} (onSlice : ∀ op ∈ ops, op.sliceName = s)
    (same : a.pools s = b.pools s) :
    a.runReturns ops = b.runReturns ops ∧ (a.run ops).pools s = (b.run ops).pools s := by
  induction ops generalizing a b with
  | nil => exact ⟨rfl, same⟩
  | cons op ops ih =>
      have named := onSlice op (List.mem_cons_self _ _)
      obtain ⟨returned, kept⟩ := @call_congr _ _ op (named ▸ same)
      obtain ⟨rest, pools⟩ :=
        ih (fun op member => onSlice op (List.mem_cons_of_mem _ member)) (named ▸ kept)
      exact ⟨by rw [runReturns, runReturns, returned, rest], pools⟩

/-- After any sequence of calls, the pool of a slice and what each call on it returned are what
the calls on that slice alone give, in their order, from the same state. -/
theorem run_isolated (a : DynamicIPAMAllocator) (ops : List Op) (s : String) :
    (a.run ops).pools s = (a.run (ops.filter fun op => op.sliceName = s)).pools s ∧
      ((ops.zip (a.runReturns ops)).filter fun call => call.1.sliceName = s).map Prod.snd =
        a.runReturns (ops.filter fun op => op.sliceName = s) := by
  induction ops generalizing a with
  | nil => exact ⟨rfl, rfl⟩
  | cons op ops ih =>
      obtain ⟨pools, returned⟩ := ih (a.apply op)
      by_cases named : op.sliceName = s
      · simp only [List.filter_cons, named, decide_True, if_true, run_cons, runReturns,
          List.zip_cons_cons, List.map_cons]
        exact ⟨pools, congrArg _ returned⟩
      · have kept : (a.apply op).pools s = a.pools s := a.apply_pools_of_ne (Ne.symm named)
        obtain ⟨returnedAlone, poolsAlone⟩ :=
          @run_congr _ _ s (ops.filter fun op => op.sliceName = s)
            (fun op member => of_decide_eq_true (List.mem_filter.mp member).2) kept
        simp only [List.filter_cons, named, decide_False, run_cons, runReturns,
          List.zip_cons_cons]
        exact ⟨pools.trans poolsAlone, returned.trans returnedAlone⟩

end DynamicIPAMAllocator

end SliceIpam
