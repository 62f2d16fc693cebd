import SliceIpam.Allocator.Pool

/-!
# The allocator and its three operations

`DynamicIPAMAllocator` with `InitializePool`, `Allocate` and `Reclaim`. The registry lock is
held for the whole of every operation, so the allocator is a state machine whose steps are the
three calls; a run is a list of calls applied in order. The `ctx` argument of `Allocate` and
`Reclaim` is never read by the code and is left out, as is the log line of `InitializePool`.
-/

namespace SliceIpam

open Net

/-- `DynamicIPAMAllocator`: the pool of each initialized slice. -/
structure DynamicIPAMAllocator where
  pools : String → Option SliceIPPool

/-- `NewDynamicIPAMAllocator`: no pools. -/
def newDynamicIPAMAllocator : DynamicIPAMAllocator :=
  ⟨fun _ => none⟩

namespace DynamicIPAMAllocator

/-- Store the pool of a slice, Go's `a.pools[sliceName] = pool`. -/
def setPool (a : DynamicIPAMAllocator) (sliceName : String) (pool : SliceIPPool) :
    DynamicIPAMAllocator :=
  ⟨Function.update a.pools sliceName (some pool)⟩

@[simp] theorem setPool_pools_self (a : DynamicIPAMAllocator) (sliceName : String)
    (pool : SliceIPPool) : (a.setPool sliceName pool).pools sliceName = some pool :=
  Function.update_same _ _ _

theorem setPool_pools_of_ne (a : DynamicIPAMAllocator) {sliceName other : String}
    (pool : SliceIPPool) (different : other ≠ sliceName) :
    (a.setPool sliceName pool).pools other = a.pools other :=
  Function.update_noteq different _ _

/-- Two allocators with the same pool for every slice are the same. -/
theorem ext {a b : DynamicIPAMAllocator}
    (same : ∀ sliceName, a.pools sliceName = b.pools sliceName) : a = b := by
  cases a
  cases b
  exact congrArg _ (funext same)

/-- Storing the pool a slice already has leaves the allocator as it is. -/
theorem setPool_of_pools_eq {a : DynamicIPAMAllocator} {sliceName : String} {pool : SliceIPPool}
    (stored : a.pools sliceName = some pool) : a.setPool sliceName pool = a := by
  cases a
  simp only [setPool, ← stored, Function.update_eq_self]

/-- The cluster name of the VPN reservation. -/
def vpnClusterName : String := "VPN_Subnet"

/-- The prefix length of the VPN reservation. -/
def vpnSubnetRequiredSize : Int := 24

/-- `InitializePool`: register a pool for a new slice, its whole subnet free, then reserve the
VPN subnet in it. A slice that has a pool is left as it is. The pool stays registered when the
VPN reservation fails. -/
def initializePool (a : DynamicIPAMAllocator) (sliceName sliceSubnetStr : String) :
    Except String Unit × DynamicIPAMAllocator :=
  match a.pools sliceName with
  | some _ => (.ok (), a)
  | none =>
      match parseCIDR sliceSubnetStr with
      | .error err => (.error ("invalid slice subnet CIDR: " ++ err), a)
      | .ok sliceNet =>
          let pool : SliceIPPool := ⟨sliceNet, [], [sliceNet]⟩
          let (result, pool) := allocateSubnetForPool pool vpnClusterName vpnSubnetRequiredSize
          let a := a.setPool sliceName pool
          match result with
          | .error err =>
              (.error ("failed to reserve VPN subnet for slice " ++ sliceName ++ ": " ++ err), a)
          | .ok _ => (.ok (), a)

/-- The state after `InitializePool`, whatever it returns. -/
theorem initializePool_snd (a : DynamicIPAMAllocator) (sliceName sliceSubnetStr : String) :
    (a.initializePool sliceName sliceSubnetStr).2 =
      match a.pools sliceName, parseCIDR sliceSubnetStr with
      | some _, _ => a
      | none, .error _ => a
      | none, .ok sliceNet =>
          a.setPool sliceName (allocateSubnetForPool ⟨sliceNet, [], [sliceNet]⟩ vpnClusterName
            vpnSubnetRequiredSize).2 := by
  unfold initializePool
  cases a.pools sliceName with
  | some _ => rfl
  | none =>
      cases parseCIDR sliceSubnetStr with
      | error _ => rfl
      | ok sliceNet =>
          dsimp only
          rcases allocateSubnetForPool ⟨sliceNet, [], [sliceNet]⟩ vpnClusterName
            vpnSubnetRequiredSize with ⟨result, pool⟩
          cases result <;> rfl

/-- A successful `InitializePool` on a slice without a pool parsed the subnet and reserved the
VPN subnet in the new pool. -/
theorem initializePool_fst_eq_ok {a : DynamicIPAMAllocator} {sliceName sliceSubnetStr : String}
    (fresh : a.pools sliceName = none)
    (succeeded : (a.initializePool sliceName sliceSubnetStr).1 = .ok ()) :
    ∃ sliceNet net, parseCIDR sliceSubnetStr = .ok sliceNet ∧
      (allocateSubnetForPool ⟨sliceNet, [], [sliceNet]⟩ vpnClusterName
        vpnSubnetRequiredSize).1 = .ok net := by
  unfold initializePool at succeeded
  rw [fresh] at succeeded
  cases parsed : parseCIDR sliceSubnetStr with
  | error err =>
      rw [parsed] at succeeded
      cases succeeded
  | ok sliceNet =>
      rw [parsed] at succeeded
      dsimp only at succeeded
      rcases reserved : allocateSubnetForPool ⟨sliceNet, [], [sliceNet]⟩ vpnClusterName
        vpnSubnetRequiredSize with ⟨result, pool⟩
      rw [reserved] at succeeded
      cases result with
      | error err => cases succeeded
      | ok net => exact ⟨sliceNet, net, rfl, by rw [reserved]⟩

/-- The error of an operation on a slice without a pool. -/
def notInitializedError (sliceName : String) : String :=
  "ipam pool for slice " ++ sliceName ++ " is not initialized"

/-- `Allocate`: the text of the cluster's network in the slice's pool. -/
def allocate (a : DynamicIPAMAllocator) (sliceName clusterName : String) (requiredCIDRSize : Int) :
    Except String String × DynamicIPAMAllocator :=
  match a.pools sliceName with
  | none => (.error (notInitializedError sliceName), a)
  | some pool =>
      let (result, pool) := allocateSubnetForPool pool clusterName requiredCIDRSize
      let a := a.setPool sliceName pool
      match result with
      | .error err =>
          (.error ("failed to allocate subnet for cluster " ++ clusterName ++ " in slice " ++
            sliceName ++ ": " ++ err), a)
      | .ok allocatedNet => (.ok allocatedNet.string, a)

/-- The state after `Allocate`, whatever it returns. -/
theorem allocate_snd (a : DynamicIPAMAllocator) (sliceName clusterName : String)
    (requiredCIDRSize : Int) :
    (a.allocate sliceName clusterName requiredCIDRSize).2 =
      match a.pools sliceName with
      | none => a
      | some pool =>
          a.setPool sliceName (allocateSubnetForPool pool clusterName requiredCIDRSize).2 := by
  unfold allocate
  cases a.pools sliceName with
  | none => rfl
  | some pool =>
      dsimp only
      rcases allocateSubnetForPool pool clusterName requiredCIDRSize with ⟨result, pool⟩
      cases result <;> rfl

/-- What `Allocate` returns: the text of the network `allocateSubnetForPool` hands out, or its
error with the cluster and the slice in front. -/
theorem allocate_fst (a : DynamicIPAMAllocator) (sliceName clusterName : String)
    (requiredCIDRSize : Int) :
    (a.allocate sliceName clusterName requiredCIDRSize).1 =
      match a.pools sliceName with
      | none => .error (notInitializedError sliceName)
      | some pool =>
          match (allocateSubnetForPool pool clusterName requiredCIDRSize).1 with
          | .error err =>
              .error ("failed to allocate subnet for cluster " ++ clusterName ++ " in slice " ++
                sliceName ++ ": " ++ err)
          | .ok allocatedNet => .ok allocatedNet.string := by
  unfold allocate
  cases a.pools sliceName with
  | none => rfl
  | some pool =>
      dsimp only
      rcases allocateSubnetForPool pool clusterName requiredCIDRSize with ⟨result, pool⟩
      cases result <;> rfl

/-- A text `Allocate` returns is the text of the network `allocateSubnetForPool` hands out from
the slice's pool. -/
theorem allocate_fst_eq_ok {a : DynamicIPAMAllocator} {sliceName clusterName : String}
    {requiredCIDRSize : Int} {text : String}
    (returned : (a.allocate sliceName clusterName requiredCIDRSize).1 = .ok text) :
    ∃ pool net, a.pools sliceName = some pool ∧
      (allocateSubnetForPool pool clusterName requiredCIDRSize).1 = .ok net ∧
        net.string = text := by
  rw [allocate_fst] at returned
  split at returned
  · cases returned
  · next pool stored =>
      split at returned
      · cases returned
      · next net handed => exact ⟨pool, net, stored, handed, Except.ok.inj returned⟩

/-- `Allocate` on a slice whose pool `allocateSubnetForPool` leaves as it is, handing out a
network: its text, and no change of state. -/
theorem allocate_of_ok {a : DynamicIPAMAllocator} {sliceName clusterName : String}
    {pool : SliceIPPool} {requiredCIDRSize : Int} {net : IPNet}
    (stored : a.pools sliceName = some pool)
    (handed : allocateSubnetForPool pool clusterName requiredCIDRSize = (.ok net, pool)) :
    a.allocate sliceName clusterName requiredCIDRSize = (.ok net.string, a) := by
  refine Prod.ext ?_ ?_
  · rw [allocate_fst, stored]
    simp only [handed]
  · rw [allocate_snd, stored]
    simp only [handed, setPool_of_pools_eq stored]

/-- `Allocate` on a slice whose pool `allocateSubnetForPool` leaves as it is, failing: an error,
and no change of state. -/
theorem allocate_of_error {a : DynamicIPAMAllocator} {sliceName clusterName : String}
    {pool : SliceIPPool} {requiredCIDRSize : Int} {err : String}
    (stored : a.pools sliceName = some pool)
    (failed : allocateSubnetForPool pool clusterName requiredCIDRSize = (.error err, pool)) :
    a.allocate sliceName clusterName requiredCIDRSize =
      (.error ("failed to allocate subnet for cluster " ++ clusterName ++ " in slice " ++
        sliceName ++ ": " ++ err), a) := by
  refine Prod.ext ?_ ?_
  · rw [allocate_fst, stored]
    simp only [failed]
  · rw [allocate_snd, stored]
    simp only [failed, setPool_of_pools_eq stored]

/-- A failed `Allocate` changes nothing, and its error names the slice, or the cluster and the
slice. -/
theorem allocate_of_fst_error {a : DynamicIPAMAllocator} {sliceName clusterName : String}
    {requiredCIDRSize : Int} {err : String}
    (failed : (a.allocate sliceName clusterName requiredCIDRSize).1 = .error err) :
    (a.allocate sliceName clusterName requiredCIDRSize).2 = a ∧
      (err = notInitializedError sliceName ∨ ∃ reason, err =
        "failed to allocate subnet for cluster " ++ clusterName ++ " in slice " ++ sliceName ++
          ": " ++ reason) := by
  rw [allocate_fst] at failed
  rw [allocate_snd]
  cases stored : a.pools sliceName with
  | none =>
      rw [stored] at failed
      exact ⟨rfl, Or.inl (Except.error.inj failed).symm⟩
  | some pool =>
      rw [stored] at failed
      dsimp only at failed ⊢
      cases handed : (allocateSubnetForPool pool clusterName requiredCIDRSize).1 with
      | error reason =>
          rw [handed] at failed
          exact ⟨by rw [allocateSubnetForPool_error handed, setPool_of_pools_eq stored],
            Or.inr ⟨reason, (Except.error.inj failed).symm⟩⟩
      | ok net =>
          rw [handed] at failed
          cases failed

/-- The free list after `Reclaim` hands `subnetToReclaim` back: appended, sorted, and swept
once to merge neighbours. -/
def reclaimedFreeBlocks (freeBlocks : List IPNet) (subnetToReclaim : IPNet) : List IPNet :=
  coalesceFreeBlocks (sortFreeBlocks (freeBlocks ++ [subnetToReclaim]))

/-- `Reclaim`: return the cluster's network to the free list of the slice's pool. -/
def reclaim (a : DynamicIPAMAllocator) (sliceName clusterName : String) :
    Except String Unit × DynamicIPAMAllocator :=
  match a.pools sliceName with
  | none => (.error (notInitializedError sliceName), a)
  | some pool =>
      match pool.allocated.lookup clusterName with
      | none =>
          (.error ("cluster " ++ clusterName ++ " has no allocated subnet in slice " ++
            sliceName ++ " to reclaim"), a)
      | some subnetToReclaim =>
          (.ok (), a.setPool sliceName
            { pool with
              allocated := mapDelete pool.allocated clusterName
              freeBlocks := reclaimedFreeBlocks pool.freeBlocks subnetToReclaim })

/-- A failed `Reclaim` changes nothing, and its error names the slice, or the cluster and the
slice. -/
theorem reclaim_of_fst_error {a : DynamicIPAMAllocator} {sliceName clusterName : String}
    {err : String} (failed : (a.reclaim sliceName clusterName).1 = .error err) :
    (a.reclaim sliceName clusterName).2 = a ∧
      (err = notInitializedError sliceName ∨
        err = "cluster " ++ clusterName ++ " has no allocated subnet in slice " ++ sliceName ++
          " to reclaim") := by
  cases stored : a.pools sliceName with
  | none =>
      simp only [reclaim, stored, Except.error.injEq] at failed ⊢
      exact ⟨trivial, Or.inl failed.symm⟩
  | some pool =>
      cases found : pool.allocated.lookup clusterName with
      | none =>
          simp only [reclaim, stored, found, Except.error.injEq] at failed ⊢
          exact ⟨trivial, Or.inr failed.symm⟩
      | some subnetToReclaim => simp [reclaim, stored, found] at failed

end DynamicIPAMAllocator

/-- A call of the allocator's interface. -/
inductive Op
  | initializePool (sliceName sliceSubnetStr : String)
  | allocate (sliceName clusterName : String) (requiredCIDRSize : Int)
  | reclaim (sliceName clusterName : String)
  deriving DecidableEq, Repr

/-- The slice a call names. -/
def Op.sliceName : Op → String
  | .initializePool sliceName _ => sliceName
  | .allocate sliceName _ _ => sliceName
  | .reclaim sliceName _ => sliceName

namespace DynamicIPAMAllocator

/-- The state after one call, successful or not. -/
def apply (a : DynamicIPAMAllocator) : Op → DynamicIPAMAllocator
  | .initializePool sliceName sliceSubnetStr => (a.initializePool sliceName sliceSubnetStr).2
  | .allocate sliceName clusterName requiredCIDRSize =>
      (a.allocate sliceName clusterName requiredCIDRSize).2
  | .reclaim sliceName clusterName => (a.reclaim sliceName clusterName).2

/-- The state after a sequence of calls. -/
def run (a : DynamicIPAMAllocator) (ops : List Op) : DynamicIPAMAllocator :=
  ops.foldl apply a

@[simp] theorem run_nil (a : DynamicIPAMAllocator) : a.run [] = a := rfl

@[simp] theorem run_cons (a : DynamicIPAMAllocator) (op : Op) (ops : List Op) :
    a.run (op :: ops) = (a.apply op).run ops := rfl

/-- What a call returns: the text `Allocate` returns, or the error of the call. `InitializePool`
and `Reclaim` return an `error` alone, read here as the empty text when it is `nil`. -/
def returns (a : DynamicIPAMAllocator) : Op → Except String String
  | .initializePool sliceName sliceSubnetStr =>
      (a.initializePool sliceName sliceSubnetStr).1.map fun _ => ""
  | .allocate sliceName clusterName requiredCIDRSize =>
      (a.allocate sliceName clusterName requiredCIDRSize).1
  | .reclaim sliceName clusterName => (a.reclaim sliceName clusterName).1.map fun _ => ""

/-- What each call of a sequence returns, in order. -/
def runReturns (a : DynamicIPAMAllocator) : List Op → List (Except String String)
  | [] => []
  | op :: ops => a.returns op :: (a.apply op).runReturns ops

/-- A call changes no pool but the one of the slice it names. -/
theorem apply_pools_of_ne (a : DynamicIPAMAllocator) {op : Op} {other : String}
    (different : other ≠ op.sliceName) : (a.apply op).pools other = a.pools other := by
  cases op with
  | initializePool sliceName sliceSubnetStr =>
      show (a.initializePool sliceName sliceSubnetStr).2.pools other = _
      rw [initializePool_snd]
      split <;> first | rfl | exact setPool_pools_of_ne _ _ different
  | allocate sliceName clusterName requiredCIDRSize =>
      show (a.allocate sliceName clusterName requiredCIDRSize).2.pools other = _
      rw [allocate_snd]
      split <;> first | rfl | exact setPool_pools_of_ne _ _ different
  | reclaim sliceName clusterName =>
      show (a.reclaim sliceName clusterName).2.pools other = _
      unfold reclaim
      split <;> (try split) <;> first | rfl | exact setPool_pools_of_ne _ _ different

end DynamicIPAMAllocator

end SliceIpam
