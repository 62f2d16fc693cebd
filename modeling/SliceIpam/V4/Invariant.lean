import SliceIpam.V4.Coalesce

/-!
# The invariants of a pool of blocks

Two invariants of a pool. `Tiled`: every block of the allocations and of the free list lies
in the slice subnet and no address is in two blocks, the free list is in address order, and
no cluster has two entries. `Partitioned` adds that every block is canonical and that every
address of the slice is in exactly one block. Allocation keeps both. `Reclaim` keeps `Tiled`,
and keeps `Partitioned` when every merge of its sweep gives a canonical block.
-/

namespace SliceIpam
namespace V4

/-- The blocks of a map. -/
def blocksOf (m : List (String × Block)) : List Block :=
  m.map Prod.snd

@[simp] theorem blocksOf_nil : blocksOf [] = [] := rfl

@[simp] theorem blocksOf_cons (entry : String × Block) (m : List (String × Block)) :
    blocksOf (entry :: m) = entry.2 :: blocksOf m := rfl

/-- Handing back the block of a cluster that has one entry takes that block out of the map. -/
theorem blocksOf_perm_mapDelete {m : List (String × Block)} {k : String} {R : Block}
    (nodup : (m.map Prod.fst).Nodup) (found : m.lookup k = some R) :
    (blocksOf m).Perm (R :: blocksOf (mapDelete m k)) := by
  induction m with
  | nil => cases found
  | cons entry rest ih =>
      obtain ⟨key, v⟩ := entry
      obtain ⟨fresh, restNodup⟩ := List.nodup_cons.mp nodup
      by_cases same : key = k
      · subst same
        simp only [List.lookup_cons, beq_self_eq_true, Option.some.injEq] at found
        subst found
        have kept : mapDelete rest key = rest :=
          List.filter_eq_self.mpr fun entry member => decide_eq_true fun clash => by
            have listed := List.mem_map_of_mem Prod.fst member
            rw [clash] at listed
            exact fresh listed
        have deleted : mapDelete ((key, v) :: rest) key = rest := by
          rw [mapDelete, List.filter_cons, if_neg (by simp)]
          exact kept
        rw [deleted]
        exact List.Perm.refl _
      · simp only [List.lookup_cons, beq_false_of_ne (Ne.symm same)] at found
        have deleted : mapDelete ((key, v) :: rest) k = (key, v) :: mapDelete rest k := by
          simp [mapDelete, List.filter_cons, same]
        rw [deleted]
        exact ((ih restNodup found).cons v).trans (List.Perm.swap R v _)

theorem mem_blocksOf_of_lookup {m : List (String × Block)} {k : String} {b : Block}
    (found : m.lookup k = some b) : b ∈ blocksOf m := by
  induction m with
  | nil => cases found
  | cons entry rest ih =>
      obtain ⟨key, v⟩ := entry
      by_cases same : k = key
      · simp only [List.lookup_cons, same, beq_self_eq_true, Option.some.injEq] at found
        exact found ▸ List.mem_cons_self _ _
      · simp only [List.lookup_cons, beq_false_of_ne same] at found
        exact List.mem_cons_of_mem _ (ih found)

/-! ## Blocks inside a block -/

/-- `q` lies inside `B`. -/
def Within (q B : Block) : Prop :=
  B.addr ≤ q.addr ∧ q.addr + q.size ≤ B.addr + B.size

instance (q B : Block) : Decidable (Within q B) :=
  inferInstanceAs (Decidable (_ ∧ _))

/-- A list that counts only addresses of `B` holds only blocks inside `B`. -/
theorem within_of_cover_le {l : List Block} {B : Block}
    (bounded : ∀ x, cover l x ≤ if B.Mem x then 1 else 0) {q : Block} (member : q ∈ l) :
    Within q B := by
  have positive := q.size_pos
  have first := bounded q.addr
  have last := bounded (q.addr + q.size - 1)
  have inFirst := cover_pos member q.mem_addr
  have inLast := cover_pos member (x := q.addr + q.size - 1) ⟨by omega, by omega⟩
  unfold Block.Mem at first last
  unfold Within
  split_ifs at first last <;> omega

theorem Within.fits {q B : Block} (within : Within q B) (fits : Fits B) : Fits q := by
  unfold Within Fits at *
  omega

theorem Within.mem {q B : Block} (within : Within q B) {x : Nat} (inQ : q.Mem x) : B.Mem x := by
  unfold Within Block.Mem at *
  omega

theorem Within.len_le {q B : Block} (within : Within q B) : B.len ≤ q.len := by
  have : q.size ≤ B.size := by unfold Within at within; omega
  by_contra longer
  have : B.size < q.size := Nat.pow_lt_pow_right (by decide) (by have := B.len_le; omega)
  omega

theorem Block.Before.within_left {x B q : Block} (before : x.Before B) (within : Within q B) :
    x.Before q := by
  unfold Block.Before Within at *
  omega

theorem Within.before_right {q B y : Block} (within : Within q B) (before : B.Before y) :
    q.Before y := by
  unfold Block.Before Within at *
  omega

/-- Blocks inside `B` may take `B`'s place in a list in address order and apart. -/
theorem pairwise_splice {pre post mid : List Block} {B : Block}
    (apart : (pre ++ B :: post).Pairwise Block.Before) (midApart : mid.Pairwise Block.Before)
    (within : ∀ q ∈ mid, Within q B) : (pre ++ mid ++ post).Pairwise Block.Before := by
  obtain ⟨preApart, tailApart, preBefore⟩ := List.pairwise_append.mp apart
  obtain ⟨beforePost, postApart⟩ := List.pairwise_cons.mp tailApart
  rw [List.append_assoc]
  refine List.pairwise_append.mpr ⟨preApart, List.pairwise_append.mpr
    ⟨midApart, postApart,
      fun q inMid y inPost => (within q inMid).before_right (beforePost y inPost)⟩,
    fun x inPre q inTail => ?_⟩
  rcases List.mem_append.mp inTail with inMid | inPost
  · exact (preBefore x inPre B (List.mem_cons_self _ _)).within_left (within q inMid)
  · exact preBefore x inPre q (List.mem_cons_of_mem _ inPost)

namespace Pool

/-- The blocks of a pool: the allocations, then the free list. -/
def blocks (P : Pool) : List Block :=
  blocksOf P.allocated ++ P.free

/-- The invariant of every reachable pool. -/
structure Tiled (P : Pool) : Prop where
  /-- The slice subnet is canonical, as `ParseCIDR` returns it. -/
  sliceCanonical : P.slice.Canonical
  /-- Every block lies in the slice subnet, and no address is in two blocks. -/
  inSlice : ∀ x, cover P.blocks x ≤ if P.slice.Mem x then 1 else 0
  /-- The free list is in address order and its blocks are apart. -/
  freeApart : P.free.Pairwise Block.Before
  /-- No cluster has two entries. -/
  keysNodup : (P.allocated.map Prod.fst).Nodup

/-- The pool is a partition of the slice subnet into canonical blocks. -/
structure Partitioned (P : Pool) extends P.Tiled : Prop where
  /-- Every block has no host bits. -/
  canonical : ∀ b ∈ P.blocks, b.Canonical
  /-- Every address of the slice subnet is in exactly one block. -/
  covers : ∀ x, cover P.blocks x = if P.slice.Mem x then 1 else 0

theorem Tiled.within {P : Pool} (tiled : P.Tiled) {b : Block} (member : b ∈ P.blocks) :
    Within b P.slice :=
  within_of_cover_le tiled.inSlice member

theorem Tiled.fits {P : Pool} (tiled : P.Tiled) {b : Block} (member : b ∈ P.blocks) : Fits b :=
  (tiled.within member).fits tiled.sliceCanonical.fits

/-! ## The pool `InitializePool` starts from -/

/-- The pool of a new slice, its whole subnet free. -/
def init (S : Block) : Pool :=
  ⟨S, [], [S]⟩

theorem init_partitioned {S : Block} (canonical : S.Canonical) : (init S).Partitioned where
  sliceCanonical := canonical
  inSlice x := by simp [init, blocks]
  freeApart := List.pairwise_singleton _ _
  keysNodup := List.nodup_nil
  canonical b member := by
    simp only [init, blocks, blocksOf_nil, List.nil_append, List.mem_singleton] at member
    exact member ▸ canonical
  covers x := by simp [init, blocks]

/-! ## Allocation -/

section Allocate

variable {P : Pool} {clusterName : String} {r : Nat} (bound : r ≤ 32)

/-- What an allocation can do: leave the pool as it is, or split the first free block large
enough for a cluster without an entry. -/
theorem allocate_cases (P : Pool) (clusterName : String) :
    (P.allocate clusterName bound).2 = P ∨
      ∃ i B, P.allocated.lookup clusterName = none ∧ firstFit r P.free = some (i, B) ∧
        P.allocate clusterName bound =
          (some (splitFirstFit B r bound).1,
            { P with
              free := P.free.take i ++ (splitFirstFit B r bound).2 ++ P.free.drop (i + 1)
              allocated := (clusterName, (splitFirstFit B r bound).1) :: P.allocated }) := by
  unfold allocate
  cases found : P.allocated.lookup clusterName with
  | some b => exact Or.inl rfl
  | none =>
      cases fit : firstFit r P.free with
      | none => exact Or.inl rfl
      | some entry =>
          obtain ⟨i, B⟩ := entry
          refine Or.inr ⟨i, B, rfl, rfl, ?_⟩
          simp only [mapInsert_of_lookup_eq_none _ found]

/-- An allocation for a cluster without an entry splits the block first fit finds. -/
theorem allocate_of_fit {i : Nat} {B : Block} (fresh : P.allocated.lookup clusterName = none)
    (fit : firstFit r P.free = some (i, B)) :
    (P.allocate clusterName bound).2 =
      { P with
        free := P.free.take i ++ (splitFirstFit B r bound).2 ++ P.free.drop (i + 1)
        allocated := (clusterName, (splitFirstFit B r bound).1) :: P.allocated } := by
  simp only [allocate, fresh, fit, mapInsert_of_lookup_eq_none _ fresh]

/-- The split block stands in the free list at the index the scan found. -/
theorem free_eq_splice {free : List Block} {i : Nat} {B : Block}
    (fit : firstFit r free = some (i, B)) : free = free.take i ++ B :: free.drop (i + 1) := by
  obtain ⟨index, atI, -⟩ := firstFit_eq_some fit
  rw [← atI, ← List.drop_eq_getElem_cons index, List.take_append_drop]

theorem cover_splice (alloc pre mid post : List Block) (first B : Block) (x : Nat) :
    cover (first :: alloc ++ (pre ++ mid ++ post)) x + (if B.Mem x then 1 else 0) =
      cover (alloc ++ (pre ++ B :: post)) x + cover (first :: mid) x := by
  simp only [List.cons_append, cover_cons, cover_append]
  omega

/-- The facts about a fresh allocation that both invariants use. -/
theorem Tiled.allocate_fresh (tiled : P.Tiled) {i : Nat} {B : Block}
    (fit : firstFit r P.free = some (i, B)) :
    B.len ≤ r ∧ Fits B ∧ P.free = P.free.take i ++ B :: P.free.drop (i + 1) ∧
      (P.free.take i ++ (splitFirstFit B r bound).2 ++ P.free.drop (i + 1)).Pairwise
        Block.Before := by
  obtain ⟨index, atI, longer, -⟩ := firstFit_eq_some fit
  have inFree : B ∈ P.free := atI ▸ List.getElem_mem index
  have fits := tiled.fits (List.mem_append_right _ inFree)
  have splice := free_eq_splice fit
  refine ⟨longer, fits, splice, pairwise_splice (splice ▸ tiled.freeApart)
    (List.pairwise_cons.mp (splitFirstFit_pairwise bound fits)).2 fun q member => ?_⟩
  exact within_of_cover_le (cover_splitFirstFit bound longer fits) (List.mem_cons_of_mem _ member)

@[simp] theorem allocate_slice (P : Pool) (clusterName : String) :
    (P.allocate clusterName bound).2.slice = P.slice := by
  rcases allocate_cases bound P clusterName with same | ⟨i, B, -, -, result⟩
  · rw [same]
  · rw [result]

/-- The block an allocation hands out has the prefix asked for, and is the cluster's entry
afterwards. -/
theorem allocate_fst_eq_some {S : Block} (handed : (P.allocate clusterName bound).1 = some S) :
    S.len = r ∧ (P.allocate clusterName bound).2.allocated.lookup clusterName = some S := by
  unfold allocate at handed ⊢
  cases found : P.allocated.lookup clusterName with
  | some b =>
      simp only [found] at handed ⊢
      split at handed
      · next same => exact ⟨Option.some.inj handed ▸ same, handed⟩
      · cases handed
  | none =>
      simp only [found] at handed ⊢
      cases fit : firstFit r P.free with
      | none => simp only [fit] at handed; cases handed
      | some entry =>
          obtain ⟨i, B⟩ := entry
          simp only [fit, Option.some.injEq] at handed ⊢
          refine ⟨?_, handed ▸ lookup_mapInsert_self _ _ _⟩
          obtain ⟨-, -, longer, -⟩ := firstFit_eq_some fit
          rw [← handed]
          unfold splitFirstFit
          split
          · rfl
          · show B.len = r
            omega

theorem Tiled.allocate (tiled : P.Tiled) : (P.allocate clusterName bound).2.Tiled := by
  rcases allocate_cases bound P clusterName with same | ⟨i, B, absent, fit, result⟩
  · rw [same]
    exact tiled
  · obtain ⟨longer, fits, splice, apart⟩ := tiled.allocate_fresh bound fit
    rw [result]
    refine ⟨tiled.sliceCanonical, fun x => ?_, apart, ?_⟩
    · have before := tiled.inSlice x
      have split := cover_splitFirstFit bound longer fits x
      have moved := cover_splice (blocksOf P.allocated) (P.free.take i) (splitFirstFit B r bound).2
        (P.free.drop (i + 1)) (splitFirstFit B r bound).1 B x
      rw [blocks, splice] at before
      simp only [blocks, blocksOf_cons]
      omega
    · simpa [mapInsert_of_lookup_eq_none _ absent] using
        nodup_mapInsert clusterName (splitFirstFit B r bound).1 tiled.keysNodup

theorem Partitioned.allocate (part : P.Partitioned) :
    (P.allocate clusterName bound).2.Partitioned := by
  have tiled : (P.allocate clusterName bound).2.Tiled := part.toTiled.allocate bound
  rcases allocate_cases bound P clusterName with same | ⟨i, B, absent, fit, result⟩
  · rw [same]
    exact part
  · obtain ⟨longer, -, splice, -⟩ := part.toTiled.allocate_fresh bound fit
    have canonicalB : B.Canonical :=
      part.canonical B (List.mem_append_right _ (splice ▸ List.mem_append_right _
        (List.mem_cons_self _ _)))
    rw [result] at tiled ⊢
    refine ⟨tiled, fun b member => ?_, fun x => ?_⟩
    · have old := part.canonical
      have new := canonical_splitFirstFit bound longer canonicalB
      rw [blocks, splice] at old
      simp only [blocks, blocksOf_cons, List.cons_append, List.mem_cons, List.mem_append]
        at member old new
      rcases member with rfl | inAlloc | (inPre | inMid) | inPost
      · exact new _ (Or.inl rfl)
      · exact old b (Or.inl inAlloc)
      · exact old b (Or.inr (Or.inl inPre))
      · exact new b (Or.inr inMid)
      · exact old b (Or.inr (Or.inr (Or.inr inPost)))
    · have before := part.covers x
      have split := cover_splitFirstFit_of_canonical bound longer canonicalB x
      have moved := cover_splice (blocksOf P.allocated) (P.free.take i) (splitFirstFit B r bound).2
        (P.free.drop (i + 1)) (splitFirstFit B r bound).1 B x
      rw [blocks, splice] at before
      simp only [blocks, blocksOf_cons]
      omega

end Allocate

/-! ## Reclaim -/

section Reclaim

variable {P : Pool} {clusterName : String}

/-- What a reclaim can do: leave the pool as it is, or hand the cluster's block back. -/
theorem reclaim_cases (P : Pool) (clusterName : String) :
    P.reclaim clusterName = P ∨
      ∃ R, P.allocated.lookup clusterName = some R ∧
        P.reclaim clusterName =
          { P with
            allocated := mapDelete P.allocated clusterName
            free := coalesceBlocks (sortBlocks (P.free ++ [R])) } := by
  unfold reclaim
  cases found : P.allocated.lookup clusterName with
  | none => exact Or.inl rfl
  | some R => exact Or.inr ⟨R, rfl, rfl⟩

/-- The facts about a reclaim that both invariants use: the sweep runs over blocks in address
order and apart, and the pool counts every address as often as before. -/
theorem Tiled.reclaim_found (tiled : P.Tiled) {R : Block}
    (found : P.allocated.lookup clusterName = some R) :
    (sortBlocks (P.free ++ [R])).Pairwise Block.Before ∧
      ∀ x, cover (blocksOf (mapDelete P.allocated clusterName) ++
        coalesceBlocks (sortBlocks (P.free ++ [R]))) x = cover P.blocks x := by
  have moved := blocksOf_perm_mapDelete tiled.keysNodup found
  have counts : ∀ x, cover P.blocks x =
      cover (blocksOf (mapDelete P.allocated clusterName)) x + cover (P.free ++ [R]) x := by
    intro x
    rw [blocks, cover_append, cover_perm moved, cover_cons, cover_append, cover_cons, cover_nil]
    omega
  have apart : (sortBlocks (P.free ++ [R])).Pairwise Block.Before :=
    sortBlocks_pairwise fun x => by
      have := tiled.inSlice x
      rw [counts] at this
      split_ifs at this <;> omega
  refine ⟨apart, fun x => ?_⟩
  rw [cover_append, cover_coalesceBlocks apart, cover_sortBlocks, counts]

theorem Tiled.reclaim (tiled : P.Tiled) : (P.reclaim clusterName).Tiled := by
  rcases reclaim_cases P clusterName with same | ⟨R, found, result⟩
  · rw [same]
    exact tiled
  · obtain ⟨apart, counts⟩ := tiled.reclaim_found found
    rw [result]
    exact ⟨tiled.sliceCanonical, fun x => (counts x).trans_le (tiled.inSlice x),
      coalesceBlocks_pairwise apart, nodup_mapDelete clusterName tiled.keysNodup⟩

theorem reclaim_allocated (P : Pool) (clusterName : String) :
    (P.reclaim clusterName).allocated = mapDelete P.allocated clusterName := by
  unfold reclaim
  cases found : P.allocated.lookup clusterName with
  | none => exact (mapDelete_of_lookup_eq_none found).symm
  | some R => rfl

/-- `Reclaim` keeps the partition when every merge of its sweep gives a canonical block. -/
theorem Partitioned.reclaim (part : P.Partitioned)
    (aligned : ∀ R, P.allocated.lookup clusterName = some R →
      mergesCanonicalBlocks (sortBlocks (P.free ++ [R])) = true) :
    (P.reclaim clusterName).Partitioned := by
  have tiled : (P.reclaim clusterName).Tiled := part.toTiled.reclaim
  rcases reclaim_cases P clusterName with same | ⟨R, found, result⟩
  · rw [same]
    exact part
  · obtain ⟨-, counts⟩ := part.toTiled.reclaim_found found
    have moved := blocksOf_perm_mapDelete part.keysNodup found
    rw [result] at tiled ⊢
    refine ⟨tiled, fun b member => ?_, fun x => (counts x).trans (part.covers x)⟩
    have old := part.canonical
    simp only [blocks, List.mem_append] at member old
    rcases member with inAlloc | inFree
    · exact old b (Or.inl (moved.mem_iff.mpr (List.mem_cons_of_mem _ inAlloc)))
    · refine canonical_of_mem_coalesceBlocks (fun q member => ?_) (aligned R found) inFree
      rcases List.mem_append.mp ((sortBlocks_perm _).mem_iff.mp member) with inOld | isR
      · exact old q (Or.inr inOld)
      · exact old q
          (Or.inl (moved.mem_iff.mpr (List.mem_singleton.mp isR ▸ List.mem_cons_self _ _)))

end Reclaim

/-! ## Reclaim after allocation -/

section Undo

variable {P : Pool} {clusterName : String} {r : Nat} (bound : r ≤ 32)

/-- In a partitioned pool whose free list the sweep leaves as it is, reclaiming the block just
allocated to a cluster without an entry gives the pool back: the sort puts the block back in
front of the remainders of its split, and the sweep joins them into the block that was split. -/
theorem Partitioned.reclaim_allocate (part : P.Partitioned)
    (fresh : P.allocated.lookup clusterName = none)
    (handed : (P.allocate clusterName bound).1 ≠ none)
    (stable : P.free.Chain' fun a b => a.tryMerge b = none) :
    (P.allocate clusterName bound).2.reclaim clusterName = P := by
  obtain ⟨⟨i, B⟩, fit⟩ : ∃ found, firstFit r P.free = some found := by
    cases fit : firstFit r P.free with
    | none => simp [Pool.allocate, fresh, fit] at handed
    | some found => exact ⟨found, rfl⟩
  obtain ⟨longer, fits, splice, -⟩ := part.toTiled.allocate_fresh bound fit
  have canonicalB : B.Canonical := part.canonical B
    (List.mem_append_right _ (splice ▸ List.mem_append_right _ (List.mem_cons_self _ _)))
  have sorted : sortBlocks (P.free.take i ++ splitBlocks B r bound ++ P.free.drop (i + 1) ++
      [low B bound]) =
        P.free.take i ++ low B bound :: (splitBlocks B r bound ++ P.free.drop (i + 1)) := by
    refine sortBlocks_eq_of_perm ?_ ?_
    · have split : (low B bound :: splitBlocks B r bound).Pairwise Block.Before :=
        List.pairwise_cons.mpr ⟨low_before_splitBlocks bound fits, splitBlocks_pairwise bound fits⟩
      have apart := pairwise_splice (splice ▸ part.freeApart) split fun q member =>
        within_of_cover_le (fun x => (cover_low_splitBlocks bound longer fits x).le) member
      simpa only [List.append_assoc, List.cons_append] using apart
    · simpa only [List.append_assoc] using
        ((List.perm_append_singleton (low B bound)
          (splitBlocks B r bound ++ P.free.drop (i + 1))).append_left (P.free.take i))
  rw [splice] at stable
  obtain ⟨preStable, postStable, -⟩ := List.chain'_append.mp stable
  have swept : coalesceBlocks (P.free.take i ++ low B bound ::
      (splitBlocks B r bound ++ P.free.drop (i + 1))) = P.free := by
    rw [coalesceBlocks_append_of_chain (preStable.append (List.chain'_singleton _) ?_),
      coalesce_low_splitBlocks bound longer, coalesce_of_chain postStable, ← splice]
    intro z last y first
    rw [List.head?_singleton, Option.mem_some_iff] at first
    subst first
    exact Block.tryMerge_eq_none_of_len_ne
      (Nat.ne_of_gt (lt_len_of_mem_take fit z (List.mem_of_mem_getLast? last)))
  simp only [Pool.allocate, fresh, fit, splitFirstFit_of_canonical bound longer canonicalB,
    Pool.reclaim, lookup_mapInsert_self, mapDelete_mapInsert, mapDelete_of_lookup_eq_none fresh,
    sorted, swept]

end Undo

end Pool

end V4
end SliceIpam
