import SliceIpam.V4.Pool
import Mathlib.Data.List.Chain

/-!
# The sort and the coalescing sweep of `Reclaim`

Facts about the free list `Reclaim` builds, on blocks. The sort is a permutation into address
order. On a list of blocks in address order and apart, the sweep keeps every address covered
as often as before and keeps the blocks in address order and apart. The sweep joins a block
with the next one whenever the two have one prefix and touch; it does not check that they are
the two halves of one aligned block, so a merged block need not be canonical.
`mergesCanonical` says when every merge of a sweep gives a canonical block.
-/

namespace SliceIpam
namespace V4

/-! ## Blocks in address order and apart -/

theorem cover_pos {l : List Block} {b : Block} (member : b ∈ l) {x : Nat} (inB : b.Mem x) :
    0 < cover l x :=
  List.countP_pos_iff.mpr ⟨b, member, decide_eq_true inB⟩

/-- A list sorted by `Block.Le` that counts no address twice is in address order and apart. -/
theorem pairwise_before_of_sorted {l : List Block} (sorted : l.Sorted Block.Le)
    (once : ∀ x, cover l x ≤ 1) : l.Pairwise Block.Before := by
  induction l with
  | nil => exact List.Pairwise.nil
  | cons a rest ih =>
      obtain ⟨le, restSorted⟩ := List.sorted_cons.mp sorted
      refine List.pairwise_cons.mpr ⟨fun b member => ?_, ih restSorted fun x => ?_⟩
      · have atB := once b.addr
        have inRest := cover_pos member b.mem_addr
        rw [cover_cons] at atB
        have outside : ¬ a.Mem b.addr := fun inA => by rw [if_pos inA] at atB; omega
        have := le b member
        unfold Block.Le at this; unfold Block.Mem at outside; unfold Block.Before
        omega
      · have := once x
        rw [cover_cons] at this
        omega

theorem cover_perm {l l' : List Block} (perm : l.Perm l') (x : Nat) : cover l x = cover l' x :=
  perm.countP_eq _

/-! ## The sort -/

theorem sortBlocks_perm (blocks : List Block) : (sortBlocks blocks).Perm blocks :=
  List.perm_insertionSort _ _

@[simp] theorem cover_sortBlocks (blocks : List Block) (x : Nat) :
    cover (sortBlocks blocks) x = cover blocks x :=
  cover_perm (sortBlocks_perm blocks) x

theorem sortBlocks_sorted (blocks : List Block) : (sortBlocks blocks).Sorted Block.Le :=
  List.sorted_insertionSort _ _

/-- On blocks apart, the sort puts them in address order. -/
theorem sortBlocks_pairwise {blocks : List Block} (once : ∀ x, cover blocks x ≤ 1) :
    (sortBlocks blocks).Pairwise Block.Before :=
  pairwise_before_of_sorted (sortBlocks_sorted blocks) fun x => by
    rw [cover_sortBlocks]
    exact once x

/-- A list in address order and apart is the sort of every permutation of it. -/
theorem sortBlocks_eq_of_perm {l l' : List Block} (apart : l.Pairwise Block.Before)
    (perm : l'.Perm l) : sortBlocks l' = l :=
  List.eq_of_perm_of_sorted ((sortBlocks_perm l').trans perm) (sortBlocks_sorted l')
    (apart.imp fun before => before.lt.le)

/-- Every order `sort.Slice` may give the networks of a list of blocks, with
`compareIPNets(x, y) < 0` as its `less`, is the one `sortFreeBlocks` computes: two different
blocks never compare equal, so there is one such order. -/
theorem eq_sortFreeBlocks_of_ordered {blocks : List Block} {L : List Net.IPNet}
    (perm : L.Perm (blocks.map Block.toIPNet))
    (ordered : L.Pairwise fun x y => ¬ compareIPNets y x < 0) :
    L = sortFreeBlocks (blocks.map Block.toIPNet) := by
  have notLess (a b : Block) : ¬ compareIPNets b.toIPNet a.toIPNet < 0 ↔ a.Le b := by
    rw [Block.compareIPNets_toIPNet, Block.compare_neg_iff, Block.not_lt_iff_le]
  rw [sortFreeBlocks_map]
  refine List.Perm.eq_of_sorted (fun x y inL inSorted xy yx => ?_) ordered ?_
    (perm.trans ((sortBlocks_perm blocks).map _).symm)
  · obtain ⟨a, -, rfl⟩ := List.mem_map.mp (perm.subset inL)
    obtain ⟨b, -, rfl⟩ := List.mem_map.mp inSorted
    rw [notLess] at xy yx
    rw [antisymm xy yx]
  · exact List.pairwise_map.mpr ((sortBlocks_sorted blocks).imp fun le => (notLess _ _).mpr le)

/-! ## The sweep -/

/-- A merge of a block with the block right after it covers the two and ends where the second
one ends. -/
theorem tryMerge_of_before {a b m : Block} (before : a.Before b) (merge : a.tryMerge b = some m) :
    m.addr = a.addr ∧ m.addr + m.size = b.addr + b.size ∧
      ∀ x, (if m.Mem x then 1 else 0) =
        (if a.Mem x then 1 else 0) + (if b.Mem x then 1 else 0) := by
  have ordered : a.addr ≤ b.addr := by unfold Block.Before at before; omega
  obtain ⟨adjacent, sameLen, mAddr, mSize⟩ := Block.tryMerge_adjacent merge ordered
  have sameSize : b.size = a.size := by rw [Block.size, Block.size, sameLen]
  refine ⟨mAddr, by omega, fun x => ?_⟩
  unfold Block.Mem
  split_ifs <;> omega

/-- The merged block stands in the list where the two blocks it covers stood. -/
theorem pairwise_merged {current next m : Block} {rest : List Block}
    (apart : (current :: next :: rest).Pairwise Block.Before)
    (merge : current.tryMerge next = some m) : (m :: rest).Pairwise Block.Before := by
  obtain ⟨before, restApart⟩ := List.pairwise_cons.mp apart
  obtain ⟨-, mEnd, -⟩ := tryMerge_of_before (before next (List.mem_cons_self _ _)) merge
  refine List.pairwise_cons.mpr ⟨fun b later => ?_, (List.pairwise_cons.mp restApart).2⟩
  have := (List.pairwise_cons.mp restApart).1 b later
  unfold Block.Before at *
  omega

/-- Every block the sweep emits starts at or after the block it starts from. -/
theorem le_addr_of_mem_coalesce {current : Block} {rest : List Block}
    (apart : (current :: rest).Pairwise Block.Before) {y : Block}
    (member : y ∈ coalesce current rest) : current.addr ≤ y.addr := by
  induction rest generalizing current with
  | nil =>
      rw [coalesce, List.mem_singleton] at member
      rw [member]
  | cons next rest ih =>
      obtain ⟨before, restApart⟩ := List.pairwise_cons.mp apart
      have first := before next (List.mem_cons_self _ _)
      unfold coalesce at member
      split at member
      · next m merge =>
          exact (tryMerge_of_before first merge).1 ▸ ih (pairwise_merged apart merge) member
      · rcases List.mem_cons.mp member with rfl | later
        · exact le_rfl
        · have := ih restApart later
          unfold Block.Before at first
          omega

/-- The sweep keeps every address covered as often as before. -/
theorem cover_coalesce {current : Block} {rest : List Block}
    (apart : (current :: rest).Pairwise Block.Before) (x : Nat) :
    cover (coalesce current rest) x = cover (current :: rest) x := by
  induction rest generalizing current with
  | nil => rfl
  | cons next rest ih =>
      obtain ⟨before, restApart⟩ := List.pairwise_cons.mp apart
      have first := before next (List.mem_cons_self _ _)
      unfold coalesce
      split
      · next m merge =>
          rw [ih (pairwise_merged apart merge), cover_cons, cover_cons, cover_cons,
            (tryMerge_of_before first merge).2.2 x]
          omega
      · rw [cover_cons, ih restApart, ← cover_cons]

/-- The sweep keeps the blocks in address order and apart. -/
theorem coalesce_pairwise {current : Block} {rest : List Block}
    (apart : (current :: rest).Pairwise Block.Before) :
    (coalesce current rest).Pairwise Block.Before := by
  induction rest generalizing current with
  | nil => exact List.pairwise_singleton _ _
  | cons next rest ih =>
      obtain ⟨before, restApart⟩ := List.pairwise_cons.mp apart
      have first := before next (List.mem_cons_self _ _)
      unfold coalesce
      split
      · next m merge => exact ih (pairwise_merged apart merge)
      · refine List.pairwise_cons.mpr ⟨fun y member => ?_, ih restApart⟩
        have := le_addr_of_mem_coalesce restApart member
        unfold Block.Before at *
        omega

/-- Every merge of the sweep from `current` gives a canonical block. -/
def mergesCanonical (current : Block) : List Block → Bool
  | [] => true
  | next :: rest =>
      match current.tryMerge next with
      | some merged => decide merged.Canonical && mergesCanonical merged rest
      | none => mergesCanonical next rest

/-- When every merge gives a canonical block, the sweep of canonical blocks emits canonical
blocks. -/
theorem canonical_of_mem_coalesce {current : Block} {rest : List Block}
    (canonical : ∀ b ∈ current :: rest, b.Canonical) (aligned : mergesCanonical current rest)
    {y : Block} (member : y ∈ coalesce current rest) : y.Canonical := by
  induction rest generalizing current with
  | nil =>
      rw [coalesce, List.mem_singleton] at member
      exact member ▸ canonical current (List.mem_cons_self _ _)
  | cons next rest ih =>
      unfold coalesce at member
      unfold mergesCanonical at aligned
      split at member
      · next m merge =>
          rw [merge, Bool.and_eq_true, decide_eq_true_eq] at aligned
          refine ih (fun b member => ?_) aligned.2 member
          rcases List.mem_cons.mp member with rfl | later
          · exact aligned.1
          · exact canonical b (List.mem_cons_of_mem _ (List.mem_cons_of_mem _ later))
      · next apart =>
          rw [apart] at aligned
          rcases List.mem_cons.mp member with rfl | later
          · exact canonical y (List.mem_cons_self _ _)
          · exact ih (fun b member => canonical b (List.mem_cons_of_mem _ member)) aligned later

/-! ## The sweep over a whole list -/

theorem cover_coalesceBlocks {blocks : List Block} (apart : blocks.Pairwise Block.Before)
    (x : Nat) : cover (coalesceBlocks blocks) x = cover blocks x := by
  cases blocks with
  | nil => rfl
  | cons first rest => exact cover_coalesce apart x

theorem coalesceBlocks_pairwise {blocks : List Block} (apart : blocks.Pairwise Block.Before) :
    (coalesceBlocks blocks).Pairwise Block.Before := by
  cases blocks with
  | nil => exact List.Pairwise.nil
  | cons first rest => exact coalesce_pairwise apart

/-- Every merge of the sweep over a whole list gives a canonical block. -/
def mergesCanonicalBlocks : List Block → Bool
  | [] => true
  | first :: rest => mergesCanonical first rest

theorem canonical_of_mem_coalesceBlocks {blocks : List Block}
    (canonical : ∀ b ∈ blocks, b.Canonical) (aligned : mergesCanonicalBlocks blocks)
    {y : Block} (member : y ∈ coalesceBlocks blocks) : y.Canonical := by
  cases blocks with
  | nil => cases member
  | cons first rest => exact canonical_of_mem_coalesce canonical aligned member

/-! ## A split swept back together -/

section Rejoin

variable {B : Block}

/-- The block a split hands out and the first remainder are the two halves of one block, and
the sweep always joins them. -/
theorem tryMerge_low_remainder (B : Block) {r : Nat} (bound : r + 1 ≤ 32) :
    (low B bound).tryMerge (remainder B bound) = some (low B (Nat.le_of_succ_le bound)) :=
  Block.tryMerge_eq_some.mpr ⟨rfl, Nat.le_add_left 1 r, rfl, rfl, rfl⟩

/-- The sweep from the block a split hands out, over the remainders of the split, joins them
back into the block that was split. -/
theorem coalesce_low_splitBlocks {r : Nat} (bound : r ≤ 32) (longer : B.len ≤ r)
    (rest : List Block) :
    coalesce (low B bound) (splitBlocks B r bound ++ rest) = coalesce B rest := by
  induction r with
  | zero =>
      rw [splitBlocks_of_le B bound (Nat.zero_le _),
        show low B bound = B from Block.ext rfl (by simp; omega)]
      rfl
  | succ r ih =>
      by_cases same : B.len = r + 1
      · rw [splitBlocks_of_le B bound (by omega), show low B bound = B from Block.ext rfl same.symm]
        rfl
      · simp only [splitBlocks_succ B bound (by omega), List.cons_append, coalesce,
          tryMerge_low_remainder]
        exact ih (by omega) (by omega)

end Rejoin

/-- A list in which no block merges with the next one is what the sweep leaves. -/
theorem coalesce_of_chain {current : Block} {rest : List Block}
    (stable : (current :: rest).Chain' fun a b => a.tryMerge b = none) :
    coalesce current rest = current :: rest := by
  induction rest generalizing current with
  | nil => rfl
  | cons next rest ih =>
      obtain ⟨apart, restStable⟩ := List.chain'_cons.mp stable
      simp only [coalesce, apart, ih restStable]

/-- The sweep passes over blocks none of which merges with the next one, and starts merging at
the last of them. -/
theorem coalesce_append_of_chain {current y : Block} {pre rest : List Block}
    (stable : (current :: (pre ++ [y])).Chain' fun a b => a.tryMerge b = none) :
    coalesce current (pre ++ y :: rest) = current :: (pre ++ coalesce y rest) := by
  induction pre generalizing current with
  | nil =>
      rw [List.nil_append, List.chain'_pair] at stable
      simp only [List.nil_append, coalesce, stable]
  | cons p pre ih =>
      obtain ⟨apart, restStable⟩ := List.chain'_cons.mp stable
      simp only [List.cons_append, coalesce, apart]
      exact congrArg (current :: ·) (ih restStable)

theorem coalesceBlocks_append_of_chain {y : Block} {pre rest : List Block}
    (stable : (pre ++ [y]).Chain' fun a b => a.tryMerge b = none) :
    coalesceBlocks (pre ++ y :: rest) = pre ++ coalesce y rest := by
  cases pre with
  | nil => rfl
  | cons p pre => exact coalesce_append_of_chain stable

end V4
end SliceIpam
