import SliceIpam.Run.Fragmentation
import SliceIpam.Run.Refinement

/-!
# A free list without buddies is fixed by the allocations

On a partitioned pool the free addresses are the addresses of the slice subnet that no cluster
holds, so two pools with one subnet and the same block for every cluster, that is with one
`Pool.toSlice`, free the same addresses. When neither free list holds two buddies, the two lists
are the same. A free block of one list meets a block of the other at its address; were the two
of different prefixes, the larger one would be covered by smaller free blocks of its own list,
and those hold two buddies (`not_noBuddies_of_covered`). So a free list that holds no buddies
does not depend on the calls that reached it, only on what the clusters hold.
-/

namespace SliceIpam

open Net V4

namespace V4

/-- Canonical blocks nest: a canonical block holds the whole of every canonical block of a
prefix no shorter that shares an address with it. -/
theorem Block.Canonical.mem_of_mem {a b : Block} (aCanonical : a.Canonical)
    (bCanonical : b.Canonical) (shorter : a.len ≤ b.len) {x : Nat} (inA : a.Mem x)
    (inB : b.Mem x) {y : Nat} (inBy : b.Mem y) : a.Mem y :=
  aCanonical.mem_of_contains shorter inA ((bCanonical.contains_eq x).trans (decide_eq_true inB))
    ((bCanonical.contains_eq y).trans (decide_eq_true inBy))

/-- Every block of a map whose keys are distinct is the block of some key. -/
theorem exists_lookup_of_mem_blocksOf {m : List (String × Block)}
    (nodup : (m.map Prod.fst).Nodup) {b : Block} (member : b ∈ blocksOf m) :
    ∃ k, m.lookup k = some b := by
  induction m with
  | nil => cases member
  | cons entry rest ih =>
      obtain ⟨key, v⟩ := entry
      obtain ⟨fresh, restNodup⟩ := List.nodup_cons.mp nodup
      rcases List.mem_cons.mp member with rfl | later
      · exact ⟨key, by simp [List.lookup_cons]⟩
      · obtain ⟨k, found⟩ := ih restNodup later
        have listed : k ∈ rest.map Prod.fst := by
          obtain ⟨p, inRest, same⟩ := List.lookup_isSome_iff.mp (by rw [found]; rfl)
          exact List.mem_map.mpr ⟨p, inRest, (beq_iff_eq.mp same).symm⟩
        have different : k ≠ key := fun same => fresh (same ▸ listed)
        exact ⟨k, by simp only [List.lookup_cons, beq_false_of_ne different, found]⟩

namespace Pool

section Free

variable {P Q : Pool}

/-- Two free blocks that share an address are the same block. -/
theorem Tiled.eq_of_mem_free (tiled : P.Tiled) {a b : Block} (inA : a ∈ P.free)
    (inB : b ∈ P.free) {x : Nat} (xInA : a.Mem x) (xInB : b.Mem x) : a = b := by
  by_contra different
  have apart : P.free.Pairwise Block.Disjoint :=
    tiled.freeApart.imp fun before => (Block.disjoint_iff _ _).mpr (Or.inl before)
  have symmetric : Symmetric Block.Disjoint := fun _ _ disjoint y inB inA => disjoint y inA inB
  exact apart.forall symmetric inA inB different x xInA xInB

/-- The free addresses of a partitioned pool are the addresses of the slice subnet that no
cluster holds. -/
theorem Partitioned.mem_free_iff (part : P.Partitioned) (x : Nat) :
    (∃ b ∈ P.free, b.Mem x) ↔
      P.slice.Mem x ∧ ∀ c b, P.allocated.lookup c = some b → ¬ b.Mem x := by
  constructor
  · rintro ⟨f, inFree, inF⟩
    refine ⟨(part.coversSlice.2 x).mpr ⟨f, List.mem_append_right _ inFree, inF⟩,
      fun c b held inB => ?_⟩
    have once : cover P.blocks x ≤ 1 := (part.covers x).trans_le (by split <;> omega)
    have inAllocated := cover_pos (mem_blocksOf_of_lookup held) inB
    have inFreeList := cover_pos inFree inF
    rw [blocks, cover_append] at once
    omega
  · rintro ⟨inSlice, unheld⟩
    obtain ⟨b, member, inB⟩ := (part.coversSlice.2 x).mp inSlice
    rcases List.mem_append.mp member with inAllocated | inFree
    · obtain ⟨c, held⟩ := exists_lookup_of_mem_blocksOf part.keysNodup inAllocated
      exact absurd inB (unheld c b held)
    · exact ⟨b, inFree, inB⟩

/-- Every free block of a partitioned pool is canonical. -/
theorem Partitioned.canonical_of_mem_free (part : P.Partitioned) {f : Block}
    (inFree : f ∈ P.free) : f.Canonical :=
  part.canonical f (List.mem_append_right _ inFree)

/-- Of two partitioned pools that free the same addresses, when a free block `g` of the second
holds the address of a smaller free block `b` of the first, the first free list holds two
buddies: the addresses of `g` are free in the first pool, in blocks inside `g`. -/
theorem Partitioned.not_noBuddies_of_larger (part : P.Partitioned) (part' : Q.Partitioned)
    (sameFree : ∀ x, (∃ b ∈ P.free, b.Mem x) ↔ ∃ b ∈ Q.free, b.Mem x) {b g : Block}
    (member : b ∈ P.free) (inG : g ∈ Q.free) (gAtB : g.Mem b.addr) (larger : g.len < b.len) :
    ¬ NoBuddies P.free := by
  refine not_noBuddies_of_covered (fun f => part.canonical_of_mem_free) _ g rfl
    (part'.canonical_of_mem_free inG) (fun x inGx => (sameFree x).mpr ⟨g, inG, inGx⟩)
    fun f inF x inFx inGx => Nat.lt_of_not_le fun atMost => ?_
  have fAtB := (part.canonical_of_mem_free inF).mem_of_mem (part'.canonical_of_mem_free inG)
    atMost inFx inGx gAtB
  rw [part.toTiled.eq_of_mem_free inF member fAtB b.mem_addr] at atMost
  omega

/-- Between two partitioned pools that free the same addresses and whose free lists hold no
buddies, every free block of the first is a free block of the second. -/
theorem Partitioned.mem_free_of_free_iff (part : P.Partitioned) (part' : Q.Partitioned)
    (sameFree : ∀ x, (∃ b ∈ P.free, b.Mem x) ↔ ∃ b ∈ Q.free, b.Mem x)
    (coalesced : NoBuddies P.free) (coalesced' : NoBuddies Q.free) {b : Block}
    (member : b ∈ P.free) : b ∈ Q.free := by
  have bCanonical := part.canonical_of_mem_free member
  obtain ⟨g, inG, gAtB⟩ := (sameFree b.addr).mp ⟨b, member, b.mem_addr⟩
  have gCanonical := part'.canonical_of_mem_free inG
  rcases Nat.lt_trichotomy g.len b.len with larger | sameLen | smaller
  · exact absurd coalesced (part.not_noBuddies_of_larger part' sameFree member inG gAtB larger)
  · rw [bCanonical.eq_of_mem gCanonical sameLen.symm b.mem_addr gAtB]
    exact inG
  · have bAtG := bCanonical.mem_of_mem gCanonical smaller.le b.mem_addr gAtB g.mem_addr
    exact absurd coalesced'
      (part'.not_noBuddies_of_larger part (fun x => (sameFree x).symm) inG member bAtG smaller)

/-- Two partitioned pools with one subnet and the same block for every cluster, whose free lists
hold no buddies, have the same free list. -/
theorem Partitioned.free_eq_of_toSlice_eq (part : P.Partitioned) (part' : Q.Partitioned)
    (same : P.toSlice = Q.toSlice) (coalesced : NoBuddies P.free)
    (coalesced' : NoBuddies Q.free) : P.free = Q.free := by
  have sameSlice : P.slice = Q.slice := congrArg Spec.Slice.subnet same
  have sameHeld (c : String) : P.allocated.lookup c = Q.allocated.lookup c :=
    congrFun (congrArg Spec.Slice.held same) c
  have sameFree (x : Nat) : (∃ b ∈ P.free, b.Mem x) ↔ ∃ b ∈ Q.free, b.Mem x := by
    simp only [part.mem_free_iff, part'.mem_free_iff, sameSlice, sameHeld]
  have nodup {R : Pool} (tiled : R.Tiled) : R.free.Nodup :=
    tiled.freeApart.imp fun {a _} before same => by
      subst same
      have := a.size_pos
      unfold Block.Before at before
      omega
  refine List.eq_of_perm_of_sorted ((List.perm_ext_iff_of_nodup (nodup part.toTiled)
    (nodup part'.toTiled)).mpr fun b => ⟨fun member => ?_, fun member => ?_⟩)
    (part.freeApart.imp (·.lt.le)) (part'.freeApart.imp (·.lt.le))
  · exact part.mem_free_of_free_iff part' sameFree coalesced coalesced' member
  · exact part'.mem_free_of_free_iff part (fun x => (sameFree x).symm) coalesced' coalesced member

end Free

end Pool

end V4

namespace DynamicIPAMAllocator

/-- Along two runs in range whose merges are all aligned, two pools with one subnet and the same
network for every cluster, whose free lists hold no buddies, have the same free list, whatever
calls reached them. -/
theorem run_freeBlocks_eq_of_toSlice_eq (ops ops' : List Op) (inRange : ∀ op ∈ ops, op.InRange)
    (inRange' : ∀ op ∈ ops', op.InRange) (aligned : alignedRun newDynamicIPAMAllocator ops)
    (aligned' : alignedRun newDynamicIPAMAllocator ops') (sliceName sliceName' : String)
    (P Q : Pool) (stored : (newDynamicIPAMAllocator.run ops).pools sliceName = some P.toPool)
    (stored' : (newDynamicIPAMAllocator.run ops').pools sliceName' = some Q.toPool)
    (same : P.toSlice = Q.toSlice) (coalesced : NoBuddies P.free)
    (coalesced' : NoBuddies Q.free) : P.toPool.freeBlocks = Q.toPool.freeBlocks :=
  congrArg (List.map Block.toIPNet)
    (((PoolsSatisfy.new.run_partitioned inRange aligned).pool stored).free_eq_of_toSlice_eq
      ((PoolsSatisfy.new.run_partitioned inRange' aligned').pool stored') same coalesced
      coalesced')

/-- A fresh /22 slice and the slice after `reclaimUpperFirst` hold the VPN reservation alone, and
both free lists are 10.0.1.0/24, 10.0.2.0/23, which hold no buddies. -/
theorem reclaimUpperFirst_freeBlocks :
    ∃ P Q : Pool,
      (newDynamicIPAMAllocator.run [.initializePool "s" "10.0.0.0/22"]).pools "s" =
        some P.toPool ∧
      (newDynamicIPAMAllocator.run reclaimUpperFirst).pools "s" = some Q.toPool ∧
      P.toPool.freeBlocks = Q.toPool.freeBlocks :=
  let P : Pool := ⟨⟨0x0A000000, 22, by decide, by decide⟩,
    [(vpnClusterName, ⟨0x0A000000, 24, by decide, by decide⟩)],
    [⟨0x0A000100, 24, by decide, by decide⟩, ⟨0x0A000200, 23, by decide, by decide⟩]⟩
  ⟨P, P, by decide, by decide,
    run_freeBlocks_eq_of_toSlice_eq [.initializePool "s" "10.0.0.0/22"] reclaimUpperFirst
      (by decide) (by decide) (by decide) (by decide) "s" "s" P P (by decide) (by decide) rfl
      (by decide) (by decide)⟩

end DynamicIPAMAllocator

end SliceIpam
