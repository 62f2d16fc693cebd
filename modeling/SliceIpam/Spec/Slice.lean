import SliceIpam.V4.Block

/-!
# What a slice is for

The purpose of the allocator, stated without its free list and its split and merge loops: a
slice has a subnet and gives each cluster at most one block. A call may hand a cluster without a
block a canonical block of the prefix it asks for, inside the subnet and sharing no address with
a block another cluster holds; it may take a cluster's block back; and a request may be refused.
Every slice these calls reach from an empty slice holds canonical blocks of its subnet, no two
of them sharing an address.
-/

namespace SliceIpam
namespace Spec

open V4

/-- A slice as its purpose sees it: the subnet and the block each cluster holds. -/
structure Slice where
  subnet : Block
  held : String → Option Block

/-- The calls the allocator takes on one slice. -/
inductive Call
  | allocate (clusterName : String) (requiredCIDRSize : Int)
  | reclaim (clusterName : String)
  deriving DecidableEq, Repr

/-- What a call may do to a slice. -/
inductive Step : Slice → Call → Slice → Prop
  /-- A cluster without a block gets a canonical block of the prefix it asks for, inside the
  subnet and sharing no address with a block another cluster holds. -/
  | grant {σ : Slice} {clusterName : String} {b : Block} (fresh : σ.held clusterName = none)
      (canonical : b.Canonical) (inSubnet : ∀ x, b.Mem x → σ.subnet.Mem x)
      (apart : ∀ other b', σ.held other = some b' → ∀ x, b.Mem x → ¬ b'.Mem x) :
      Step σ (.allocate clusterName b.len)
        ⟨σ.subnet, Function.update σ.held clusterName (some b)⟩
  /-- A request may be refused, and the slice stays as it is. -/
  | refuse {σ : Slice} {clusterName : String} {requiredCIDRSize : Int} :
      Step σ (.allocate clusterName requiredCIDRSize) σ
  /-- A cluster hands its block back. -/
  | release {σ : Slice} {clusterName : String} :
      Step σ (.reclaim clusterName) ⟨σ.subnet, Function.update σ.held clusterName none⟩

/-- The slices the calls reach from an empty slice of a canonical subnet. -/
inductive Reachable : Slice → Prop
  | empty {subnet : Block} (canonical : subnet.Canonical) : Reachable ⟨subnet, fun _ => none⟩
  | step {σ σ' : Slice} {call : Call} (reached : Reachable σ) (step : Step σ call σ') :
      Reachable σ'

/-- What a slice guarantees: a canonical subnet, and canonical blocks inside it of which no two
share an address. -/
structure Slice.Valid (σ : Slice) : Prop where
  subnetCanonical : σ.subnet.Canonical
  canonical : ∀ c b, σ.held c = some b → b.Canonical
  inSubnet : ∀ c b, σ.held c = some b → ∀ x, b.Mem x → σ.subnet.Mem x
  apart : ∀ c c' b b', c ≠ c' → σ.held c = some b → σ.held c' = some b' →
    ∀ x, b.Mem x → ¬ b'.Mem x

/-- An entry of an updated map is the new value, or an entry of the old map. -/
theorem update_eq_some {f : String → Option Block} {c k : String} {v : Option Block} {b : Block}
    (found : Function.update f c v k = some b) : (k = c ∧ v = some b) ∨ (k ≠ c ∧ f k = some b) := by
  rw [Function.update_apply] at found
  split_ifs at found with same
  · exact Or.inl ⟨same, found⟩
  · exact Or.inr ⟨same, found⟩

theorem Slice.Valid.release {σ : Slice} (valid : σ.Valid) (clusterName : String) :
    Slice.Valid ⟨σ.subnet, Function.update σ.held clusterName none⟩ := by
  have kept {k : String} {b : Block}
      (found : Function.update σ.held clusterName none k = some b) : σ.held k = some b := by
    rcases update_eq_some found with ⟨-, absurd⟩ | ⟨-, found⟩
    · cases absurd
    · exact found
  exact ⟨valid.subnetCanonical, fun c b found => valid.canonical c b (kept found),
    fun c b found => valid.inSubnet c b (kept found),
    fun c c' b b' different found found' => valid.apart c c' b b' different (kept found)
      (kept found')⟩

theorem Slice.Valid.grant {σ : Slice} (valid : σ.Valid) {clusterName : String} {b : Block}
    (canonical : b.Canonical) (inSubnet : ∀ x, b.Mem x → σ.subnet.Mem x)
    (apart : ∀ other b', σ.held other = some b' → ∀ x, b.Mem x → ¬ b'.Mem x) :
    Slice.Valid ⟨σ.subnet, Function.update σ.held clusterName (some b)⟩ := by
  refine ⟨valid.subnetCanonical, fun c q found => ?_, fun c q found => ?_,
    fun c c' q q' different found found' x inQ inQ' => ?_⟩
  · rcases update_eq_some found with ⟨-, same⟩ | ⟨-, old⟩
    · exact Option.some.inj same ▸ canonical
    · exact valid.canonical c q old
  · rcases update_eq_some found with ⟨-, same⟩ | ⟨-, old⟩
    · exact Option.some.inj same ▸ inSubnet
    · exact valid.inSubnet c q old
  · rcases update_eq_some found with ⟨rfl, same⟩ | ⟨other, old⟩ <;>
      rcases update_eq_some found' with ⟨rfl, same'⟩ | ⟨other', old'⟩
    · exact different rfl
    · cases Option.some.inj same
      exact apart c' q' old' x inQ inQ'
    · cases Option.some.inj same'
      exact apart c q old x inQ' inQ
    · exact valid.apart c c' q q' different old old' x inQ inQ'

/-- Every call keeps what a slice guarantees. -/
theorem Step.valid {σ σ' : Slice} {call : Call} (step : Step σ call σ') (valid : σ.Valid) :
    σ'.Valid := by
  cases step with
  | grant _ canonical inSubnet apart => exact valid.grant canonical inSubnet apart
  | refuse => exact valid
  | release => exact valid.release _

/-- Every slice the calls reach guarantees a canonical subnet, canonical blocks inside it, and
no address in the blocks of two clusters. -/
theorem Reachable.valid {σ : Slice} (reached : Reachable σ) : σ.Valid := by
  induction reached with
  | empty canonical => exact ⟨canonical, fun _ _ => nofun, fun _ _ => nofun, fun _ _ _ _ _ => nofun⟩
  | step _ step valid => exact step.valid valid

end Spec
end SliceIpam
