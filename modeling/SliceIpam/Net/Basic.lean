import Mathlib.Data.List.Basic

/-!
# Go `net` addresses, masks and networks

The allocator keeps its state in Go's `net.IP`, `net.IPMask` and `net.IPNet` values and calls
`IP.To4`, `IP.Equal`, `IP.Mask`, `IPMask.Size`, `CIDRMask` and `IPNet.Contains` on them. This
module models those functions on byte lists, as the Go standard library computes them. A `nil`
slice and an empty one are the same value here: the allocator only reads their lengths.
-/

namespace SliceIpam
namespace Net

/-- `net.IP`: 4 bytes for an IPv4 address, 16 for an IPv6 one. -/
abbrev IP := List UInt8

/-- `net.IPMask`: the mask bytes, as many as the address they apply to. -/
abbrev IPMask := List UInt8

/-- `net.IPNet`: a network number and its mask. -/
structure IPNet where
  ip : IP
  mask : IPMask
  deriving DecidableEq, Repr

/-- `net.IPv4len`. -/
def IPv4len : Nat := 4

/-- `net.IPv6len`. -/
def IPv6len : Nat := 16

/-- `v4InV6Prefix`, the first twelve bytes of an IPv4-mapped IPv6 address. -/
def v4InV6Prefix : List UInt8 := [0, 0, 0, 0, 0, 0, 0, 0, 0, 0, 0xff, 0xff]

/-- `IP.To4`: the four bytes of an IPv4 address given in either of its two forms; `none` is
Go's `nil`. -/
def IP.to4 (ip : IP) : Option IP :=
  if ip.length = IPv4len then some ip
  else if ip.length = IPv6len ∧ ip.take 12 = v4InV6Prefix then some (ip.drop 12)
  else none

/-! ## Masks -/

/-- The inner loop of `simpleMaskLength`: shift the leading one bits out of a byte, at most
`fuel` times, and return their number with the shifted byte. -/
def leadingOnes : Nat → UInt8 → Nat × UInt8
  | 0, v => (0, v)
  | fuel + 1, v =>
      if v &&& 0x80 ≠ 0 then
        let (n, w) := leadingOnes fuel (v <<< 1)
        (n + 1, w)
      else (0, v)

/-- `simpleMaskLength`: the number of leading ones of a mask of the form `1…10…0`; `none`
stands for Go's `-1`, returned for a mask of any other form. -/
def simpleMaskLength : IPMask → Option Nat
  | [] => some 0
  | v :: rest =>
      if v = 0xff then (simpleMaskLength rest).map (· + 8)
      else
        let (n, w) := leadingOnes 8 v
        if w ≠ 0 ∨ rest.any (· ≠ 0) then none else some n

/-- `IPMask.Size`: the number of leading ones and the length in bits, or `(0, 0)` for a mask
that is not of the form `1…10…0`. -/
def IPMask.size (m : IPMask) : Nat × Nat :=
  match simpleMaskLength m with
  | some ones => (ones, m.length * 8)
  | none => (0, 0)

/-- The byte loop of `CIDRMask`: `l` bytes of a mask with `n` leading ones. -/
def maskBytes : Nat → Nat → List UInt8
  | 0, _ => []
  | l + 1, n =>
      if 8 ≤ n then 0xff :: maskBytes l (n - 8)
      else ~~~((0xff : UInt8) >>> n.toUInt8) :: maskBytes l 0

/-- `CIDRMask(ones, bits)`: `nil` unless `bits` is 32 or 128 and `0 ≤ ones ≤ bits`. -/
def cidrMask (ones bits : Int) : IPMask :=
  if bits ≠ 32 ∧ bits ≠ 128 then []
  else if ones < 0 ∨ bits < ones then []
  else maskBytes (bits / 8).toNat ones.toNat

/-- Byte-wise AND of an address and a mask, the loop body of `IP.Mask` and
`IPNet.Contains`. -/
def andBytes (ip : IP) (mask : IPMask) : IP :=
  List.zipWith (· &&& ·) ip mask

/-- `networkNumberAndMask`: the network number of `n` and its mask in a common length, or
`none` (Go's `nil, nil`) when they do not fit together. -/
def networkNumberAndMask (n : IPNet) : Option (IP × IPMask) :=
  let ip? : Option IP :=
    match n.ip.to4 with
    | some ip => some ip
    | none => if n.ip.length = IPv6len then some n.ip else none
  match ip? with
  | none => none
  | some ip =>
      if n.mask.length = IPv4len then
        if ip.length = IPv4len then some (ip, n.mask) else none
      else if n.mask.length = IPv6len then
        some (ip, if ip.length = IPv4len then n.mask.drop 12 else n.mask)
      else none

/-- `IPNet.Contains`: the address has the network number in the bits the mask selects. -/
def IPNet.contains (n : IPNet) (ip : IP) : Bool :=
  let (nn, m) := (networkNumberAndMask n).getD ([], [])
  let ip := ip.to4.getD ip
  decide (ip.length = nn.length ∧ andBytes nn m = andBytes ip m)

/-- `IP.Mask`: the address with the mask applied, `[]` (Go's `nil`) when their lengths do
not match. -/
def IP.mask (ip : IP) (mask : IPMask) : IP :=
  let mask :=
    if mask.length = IPv6len ∧ ip.length = IPv4len ∧ (mask.take 12).all (· = 0xff) then
      mask.drop 12
    else mask
  let ip :=
    if mask.length = IPv4len ∧ ip.length = IPv6len ∧ ip.take 12 = v4InV6Prefix then ip.drop 12
    else ip
  if ip.length ≠ mask.length then [] else andBytes ip mask

/-- `IP.Equal`: the same address, an IPv4 address being equal to its IPv4-mapped form. -/
def IP.equal (ip x : IP) : Bool :=
  if ip.length = x.length then decide (ip = x)
  else if ip.length = IPv4len ∧ x.length = IPv6len then
    decide (x.take 12 = v4InV6Prefix ∧ ip = x.drop 12)
  else if ip.length = IPv6len ∧ x.length = IPv4len then
    decide (ip.take 12 = v4InV6Prefix ∧ ip.drop 12 = x)
  else false

end Net
end SliceIpam
