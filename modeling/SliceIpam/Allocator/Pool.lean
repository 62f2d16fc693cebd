import SliceIpam.Allocator.Helpers
import SliceIpam.Net.Text
import Mathlib.Data.List.Sort

/-!
# One slice's pool

`sliceIPPool` and `allocateSubnetForPool` of `service_ipam_allocation.go`, with the sort and
the coalescing sweep that `Reclaim` runs over a pool's free list. The pool's mutex is not part
of the state: every public operation holds the registry lock from start to end, so operations
on the allocator are atomic and run one after another.
-/

namespace SliceIpam

open Net

/-- `sliceIPPool`: the slice subnet, the allocation of each cluster, and the free blocks. The Go
map `Allocated` is a list of entries with distinct keys; the allocator never iterates over
it, so the order of the entries carries no meaning. -/
structure SliceIPPool where
  sliceSubnet : IPNet
  allocated : List (String × IPNet)
  freeBlocks : List IPNet
  deriving DecidableEq, Repr

/-- Go's map assignment `m[k] = v`. -/
def mapInsert {α : Type} (m : List (String × α)) (k : String) (v : α) : List (String × α) :=
  (k, v) :: m.filter (·.1 ≠ k)

/-- Go's `delete(m, k)`. -/
def mapDelete {α : Type} (m : List (String × α)) (k : String) : List (String × α) :=
  m.filter (·.1 ≠ k)

section Maps

variable {α : Type}

theorem lookup_filter_ne (m : List (String × α)) {k k' : String} (other : k' ≠ k) :
    (m.filter (·.1 ≠ k)).lookup k' = m.lookup k' := by
  induction m with
  | nil => rfl
  | cons entry rest ih =>
      obtain ⟨key, v⟩ := entry
      rw [List.filter_cons]
      by_cases same : key = k
      · subst same
        rw [if_neg (by simp), ih]
        simp only [List.lookup_cons, beq_false_of_ne other]
      · rw [if_pos (by simpa using same)]
        simp only [List.lookup_cons, ih]

@[simp] theorem lookup_mapInsert_self (m : List (String × α)) (k : String) (v : α) :
    (mapInsert m k v).lookup k = some v := by
  simp [mapInsert, List.lookup_cons]

theorem lookup_mapInsert_of_ne (m : List (String × α)) {k k' : String} (v : α)
    (other : k' ≠ k) : (mapInsert m k v).lookup k' = m.lookup k' := by
  rw [mapInsert]
  simp only [List.lookup_cons, beq_false_of_ne other]
  exact lookup_filter_ne m other

@[simp] theorem lookup_mapDelete_self (m : List (String × α)) (k : String) :
    (mapDelete m k).lookup k = none :=
  List.lookup_eq_none_iff.mpr fun entry member => by
    have other := (List.mem_filter.mp member).2
    exact bne_iff_ne.mpr (Ne.symm (of_decide_eq_true other))

theorem lookup_mapDelete_of_ne (m : List (String × α)) {k k' : String} (other : k' ≠ k) :
    (mapDelete m k).lookup k' = m.lookup k' :=
  lookup_filter_ne m other

/-- Deleting a key that the map does not hold leaves it as it is. -/
theorem mapDelete_of_lookup_eq_none {m : List (String × α)} {k : String}
    (absent : m.lookup k = none) : mapDelete m k = m :=
  List.filter_eq_self.mpr fun entry member =>
    decide_eq_true (Ne.symm (bne_iff_ne.mp (List.lookup_eq_none_iff.mp absent entry member)))

/-- Assigning a key that the map does not hold adds one entry in front. -/
theorem mapInsert_of_lookup_eq_none {m : List (String × α)} {k : String} (v : α)
    (absent : m.lookup k = none) : mapInsert m k v = (k, v) :: m :=
  congrArg ((k, v) :: ·) (mapDelete_of_lookup_eq_none absent)

/-- Deleting a key just assigned leaves what deleting it alone leaves. -/
theorem mapDelete_mapInsert (m : List (String × α)) (k : String) (v : α) :
    mapDelete (mapInsert m k v) k = mapDelete m k := by
  simp [mapDelete, mapInsert, List.filter_cons, List.filter_filter]

theorem nodup_mapDelete {m : List (String × α)} (k : String) (nodup : (m.map Prod.fst).Nodup) :
    ((mapDelete m k).map Prod.fst).Nodup :=
  (List.Sublist.map _ (List.filter_sublist _)).nodup nodup

theorem nodup_mapInsert {m : List (String × α)} (k : String) (v : α)
    (nodup : (m.map Prod.fst).Nodup) : ((mapInsert m k v).map Prod.fst).Nodup := by
  refine List.nodup_cons.mpr ⟨fun member => ?_, nodup_mapDelete k nodup⟩
  obtain ⟨entry, kept, same⟩ := List.mem_map.mp member
  exact of_decide_eq_true (List.mem_filter.mp kept).2 same

end Maps

/-! ## Allocation -/

/-- The first-fit scan of `allocateSubnetForPool`: the index of the first free block with at
most `requiredCIDRSize` leading mask bits, and that block. -/
def firstFit (requiredCIDRSize : Int) : List IPNet → Option (Nat × IPNet)
  | [] => none
  | freeNet :: rest =>
      if (freeNet.mask.size.1 : Int) ≤ requiredCIDRSize then
        some (0, ⟨copyIP freeNet.ip, freeNet.mask⟩)
      else (firstFit requiredCIDRSize rest).map fun found => (found.1 + 1, found.2)

/-- The split loop `for i := requiredCIDRSize; i > firstFitBits+1; i--`, `n` rounds from `i`:
each round advances `nextIP` by `1 << uint(32-i)` and keeps a block of prefix `i-1` there when
the first fit contains it. -/
def splitLoop (firstFitNet : IPNet) : Nat → Int → IP → List IPNet
  | 0, _, _ => []
  | n + 1, i, nextIP =>
      let nextTonextIP := incIP (copyIP nextIP) (shiftOne (32 - i))
      (if firstFitNet.contains nextTonextIP then [⟨copyIP nextTonextIP, cidrMask (i - 1) 32⟩]
        else []) ++
        splitLoop firstFitNet n (i - 1) nextTonextIP

/-- The network handed out from a first fit, and the remainder blocks put in its place. The
first fit has at most `requiredCIDRSize` bits, so the branch that is not a split is the exact
fit. -/
def splitFirstFit (firstFitNet : IPNet) (requiredCIDRSize : Int) : IPNet × List IPNet :=
  let firstFitBits : Int := firstFitNet.mask.size.1
  if firstFitBits < requiredCIDRSize then
    let startIP := copyIP firstFitNet.ip
    let allocatedNet : IPNet := ⟨startIP, cidrMask requiredCIDRSize 32⟩
    let nextIP := incIP (copyIP startIP) (shiftOne (32 - requiredCIDRSize))
    let first : List IPNet :=
      if firstFitNet.contains nextIP then [⟨copyIP nextIP, cidrMask requiredCIDRSize 32⟩] else []
    (allocatedNet,
      first ++ splitLoop firstFitNet (requiredCIDRSize - (firstFitBits + 1)).toNat
        requiredCIDRSize nextIP)
  else (⟨copyIP firstFitNet.ip, firstFitNet.mask⟩, [])

/-- The error of a cluster that asks for a second size. -/
def reallocationError (clusterName : String) (allocatedNet : IPNet) (existingBits : Nat)
    (requiredCIDRSize : Int) : String :=
  "cluster " ++ clusterName ++ " already has subnet " ++ allocatedNet.string ++ " (/" ++
    toString existingBits ++ "), but requested /" ++ toString requiredCIDRSize ++
    ". Re-allocation not supported in this version."

/-- The error of a pool with no free block large enough. -/
def noAvailableSubnetError (requiredCIDRSize : Int) : String :=
  "no available subnet of size /" ++ toString requiredCIDRSize ++ " in pool"

/-- `allocateSubnetForPool`: the cluster's network and the pool after the call. A cluster that
has a network keeps it; otherwise the first free block large enough is split, the low end
handed out and the remainders put in its place in the free list. -/
def allocateSubnetForPool (pool : SliceIPPool) (clusterName : String) (requiredCIDRSize : Int) :
    Except String IPNet × SliceIPPool :=
  match pool.allocated.lookup clusterName with
  | some allocatedNet =>
      let existingBits := allocatedNet.mask.size.1
      if (existingBits : Int) = requiredCIDRSize then (.ok allocatedNet, pool)
      else (.error (reallocationError clusterName allocatedNet existingBits requiredCIDRSize), pool)
  | none =>
      match firstFit requiredCIDRSize pool.freeBlocks with
      | none => (.error (noAvailableSubnetError requiredCIDRSize), pool)
      | some (firstFitIndex, firstFitNet) =>
          let (allocatedNet, remainderNets) := splitFirstFit firstFitNet requiredCIDRSize
          let before := pool.freeBlocks.take firstFitIndex
          let after := pool.freeBlocks.drop (firstFitIndex + 1)
          (.ok allocatedNet,
            { pool with
              freeBlocks := before ++ remainderNets ++ after
              allocated := mapInsert pool.allocated clusterName allocatedNet })

/-- The block first fit finds has at most `requiredCIDRSize` leading mask bits. -/
theorem firstFit_fits {requiredCIDRSize : Int} {blocks : List IPNet} {i : Nat} {net : IPNet}
    (found : firstFit requiredCIDRSize blocks = some (i, net)) :
    (net.mask.size.1 : Int) ≤ requiredCIDRSize := by
  induction blocks generalizing i with
  | nil => cases found
  | cons freeNet rest ih =>
      unfold firstFit at found
      split at found
      · next fits =>
          cases found
          exact fits
      · obtain ⟨⟨k, other⟩, later, same⟩ := Option.map_eq_some'.mp found
        cases same
        exact ih later

/-- A cluster that has a network gets it back for its own size and an error for any other, and
the pool does not change. -/
theorem allocateSubnetForPool_of_lookup {pool : SliceIPPool} {clusterName : String}
    {allocatedNet : IPNet} (held : pool.allocated.lookup clusterName = some allocatedNet)
    (requiredCIDRSize : Int) :
    allocateSubnetForPool pool clusterName requiredCIDRSize =
      if (allocatedNet.mask.size.1 : Int) = requiredCIDRSize then (.ok allocatedNet, pool)
      else (.error (reallocationError clusterName allocatedNet allocatedNet.mask.size.1
        requiredCIDRSize), pool) := by
  rw [allocateSubnetForPool, held]

/-- A cluster without a network, and no free block large enough: an error, and no change. -/
theorem allocateSubnetForPool_of_no_fit {pool : SliceIPPool} {clusterName : String}
    {requiredCIDRSize : Int} (fresh : pool.allocated.lookup clusterName = none)
    (missing : firstFit requiredCIDRSize pool.freeBlocks = none) :
    allocateSubnetForPool pool clusterName requiredCIDRSize =
      (.error (noAvailableSubnetError requiredCIDRSize), pool) := by
  rw [allocateSubnetForPool, fresh, missing]

/-- A cluster without a network gets the low end of the first fit, whose remainders take its
place in the free list. -/
theorem allocateSubnetForPool_of_fit {pool : SliceIPPool} {clusterName : String}
    {requiredCIDRSize : Int} {i : Nat} {firstFitNet : IPNet}
    (fresh : pool.allocated.lookup clusterName = none)
    (fit : firstFit requiredCIDRSize pool.freeBlocks = some (i, firstFitNet)) :
    allocateSubnetForPool pool clusterName requiredCIDRSize =
      (.ok (splitFirstFit firstFitNet requiredCIDRSize).1,
        { pool with
          freeBlocks := pool.freeBlocks.take i ++ (splitFirstFit firstFitNet requiredCIDRSize).2 ++
            pool.freeBlocks.drop (i + 1)
          allocated := mapInsert pool.allocated clusterName
            (splitFirstFit firstFitNet requiredCIDRSize).1 }) := by
  rw [allocateSubnetForPool, fresh, fit]

/-- An allocation keeps the network of every cluster that has one. -/
theorem lookup_allocateSubnetForPool {pool : SliceIPPool} {k : String} {net : IPNet}
    (held : pool.allocated.lookup k = some net) (clusterName : String) (requiredCIDRSize : Int) :
    (allocateSubnetForPool pool clusterName requiredCIDRSize).2.allocated.lookup k = some net := by
  cases found : pool.allocated.lookup clusterName with
  | some allocatedNet =>
      rw [allocateSubnetForPool_of_lookup found]
      split <;> exact held
  | none =>
      have other : k ≠ clusterName := fun same => by rw [same, found] at held; cases held
      cases fit : firstFit requiredCIDRSize pool.freeBlocks with
      | none => rw [allocateSubnetForPool_of_no_fit found fit]; exact held
      | some entry =>
          rw [allocateSubnetForPool_of_fit found fit, lookup_mapInsert_of_ne _ _ other]
          exact held

/-- A failed allocation leaves the pool as it is. -/
theorem allocateSubnetForPool_error {pool : SliceIPPool} {clusterName : String}
    {requiredCIDRSize : Int} {err : String}
    (failed : (allocateSubnetForPool pool clusterName requiredCIDRSize).1 = .error err) :
    (allocateSubnetForPool pool clusterName requiredCIDRSize).2 = pool := by
  cases found : pool.allocated.lookup clusterName with
  | some allocatedNet =>
      rw [allocateSubnetForPool_of_lookup found]
      split <;> rfl
  | none =>
      cases fit : firstFit requiredCIDRSize pool.freeBlocks with
      | none => rw [allocateSubnetForPool_of_no_fit found fit]
      | some entry =>
          rw [allocateSubnetForPool_of_fit found fit] at failed
          cases failed

/-- An allocation keeps the slice subnet. -/
@[simp] theorem sliceSubnet_allocateSubnetForPool (pool : SliceIPPool) (clusterName : String)
    (requiredCIDRSize : Int) :
    (allocateSubnetForPool pool clusterName requiredCIDRSize).2.sliceSubnet = pool.sliceSubnet := by
  cases found : pool.allocated.lookup clusterName with
  | some allocatedNet =>
      rw [allocateSubnetForPool_of_lookup found]
      split <;> rfl
  | none =>
      cases fit : firstFit requiredCIDRSize pool.freeBlocks with
      | none => rw [allocateSubnetForPool_of_no_fit found fit]
      | some entry => rw [allocateSubnetForPool_of_fit found fit]

/-! ## Reclaim's sort and sweep -/

/-- The order `sort.Slice` uses, `compareIPNets(a, b) < 0`, as the `≤` of an insertion sort. Go's
`sort.Slice` is not stable; on a list with no two blocks that compare equal every sort gives the
same result. -/
def sortFreeBlocks (blocks : List IPNet) : List IPNet :=
  blocks.insertionSort fun a b => compareIPNets a b ≤ 0

/-- The coalescing sweep of `Reclaim` from the block `current`: merge the next block into it
while `tryMerge` succeeds, else emit it and go on from the next block. -/
def coalesce (current : IPNet) : List IPNet → List IPNet
  | [] => [current]
  | next :: rest =>
      match tryMerge current next with
      | some merged => coalesce merged rest
      | none => current :: coalesce next rest

/-- The sweep over a whole free list. -/
def coalesceFreeBlocks : List IPNet → List IPNet
  | [] => []
  | first :: rest => coalesce first rest

end SliceIpam
