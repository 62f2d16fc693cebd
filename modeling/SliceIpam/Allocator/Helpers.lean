import SliceIpam.Net.Basic
import Mathlib.Algebra.Group.Int

/-!
# The allocator's helper functions

`copyIP`, `incIP`, `compareIPs`, `compareIPNets` and `tryMerge` of
`service_ipam_allocation.go`, over the byte-list model of `net`. Go's `int` is a 64-bit
integer; it is modelled by `Int`, and the one place where its width shows, the shift
`1 << uint(32 - bits)`, is modelled as Go computes it.
-/

namespace SliceIpam

open Net

/-- `copyIP`: a fresh copy of the address. Slices are values in this model, so the copy is the
address itself; the allocator never writes into a slice that another value shares. -/
def copyIP (ip : IP) : IP := ip

@[simp] theorem copyIP_eq (ip : IP) : copyIP ip = ip := rfl

/-- Go's `1 << uint(x)` on a 64-bit `int`: a negative `x` becomes a shift count of at least
`2^63`, which gives `0`, and a count of 63 gives the most negative `int`. -/
def shiftOne (x : Int) : Int :=
  if 0 ≤ x ∧ x < 63 then 2 ^ x.toNat
  else if x = 63 then -(2 ^ 63)
  else 0

/-- Go's `byte(x)` conversion: the low eight bits of `x`. -/
def byteOfInt (x : Int) : UInt8 :=
  (x % 256).toNat.toUInt8

/-- The carry loop of `incIP` over the bytes from the last one: stop when the carry is `0`,
else add it to the byte, keep `sum % 256` and carry `sum / 256` (Go's truncating `%` and `/`). -/
def incBytes : List UInt8 → Int → List UInt8
  | [], _ => []
  | b :: bs, carry =>
      if carry = 0 then b :: bs
      else
        let sum := (b.toNat : Int) + carry
        byteOfInt (sum.tmod 256) :: incBytes bs (sum.tdiv 256)

/-- `incIP`: the address plus `inc`, computed byte by byte from the last byte. -/
def incIP (ip : IP) (inc : Int) : IP :=
  (incBytes (copyIP ip).reverse inc).reverse

/-- The byte loops of `compareIPs`: the first differing byte decides. -/
def compareBytes : List UInt8 → List UInt8 → Int
  | a :: as, b :: bs => if a < b then -1 else if b < a then 1 else compareBytes as bs
  | _, _ => 0

/-- `compareIPs`: IPv4 addresses in byte order, before every IPv6 address. Two IPv6 addresses
are compared over their sixteen bytes. -/
def compareIPs (a b : IP) : Int :=
  match a.to4, b.to4 with
  | some a4, some b4 => compareBytes a4 b4
  | none, none => compareBytes a b
  | some _, none => -1
  | none, some _ => 1

/-- `compareIPNets`: by network address, then the smaller network (longer prefix) first. -/
def compareIPNets (a b : IPNet) : Int :=
  let cmp := compareIPs a.ip b.ip
  if cmp ≠ 0 then cmp
  else
    let bitsA := a.mask.size.1
    let bitsB := b.mask.size.1
    if bitsA < bitsB then 1 else if bitsB < bitsA then -1 else 0

/-- `tryMerge`: join `a` with the block `b` that starts right after it when both are IPv4 and of
one prefix length. The merged network keeps `a`'s address, whether or not that address is
aligned to the shorter prefix. -/
def tryMerge (a b : IPNet) : Option IPNet :=
  if a.ip.to4 = none ∨ b.ip.to4 = none then none
  else
    let bitsA := a.mask.size.1
    let bitsB := b.mask.size.1
    if bitsA ≠ bitsB then none
    else
      let mergedBits : Int := bitsA - 1
      if mergedBits < 0 then none
      else
        let potentialMergedNet : IPNet := ⟨a.ip, cidrMask mergedBits 32⟩
        let blockSize := shiftOne (32 - bitsA)
        let expectedNextIP := incIP (copyIP a.ip) blockSize
        if expectedNextIP.equal b.ip then some potentialMergedNet else none

end SliceIpam
