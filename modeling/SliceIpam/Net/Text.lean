import SliceIpam.Net.Basic

/-!
# Text forms of addresses and networks

`Allocate` returns `IPNet.String()` of the network it hands out, and `InitializePool` reads the
slice subnet with `net.ParseCIDR`. This module models both as the Go standard library computes
them: dotted decimal for IPv4, RFC 5952 text for IPv6, `"<nil>"` for a network whose address
and mask do not fit together, and the `netip` parsers behind `ParseCIDR`. Strings are read as
lists of characters; every string the allocator handles is ASCII.
-/

namespace SliceIpam
namespace Net

/-! ## Printing -/

/-- `hexString`: two lower-case hexadecimal digits for each byte. -/
def hexString (b : List UInt8) : String :=
  String.join (b.map fun v => String.mk [Nat.digitChar (v.toNat / 16), Nat.digitChar (v.toNat % 16)])

/-- `netip.Addr.string4`: dotted decimal. -/
def string4 (ip : IP) : String :=
  ".".intercalate (ip.map fun v => toString v.toNat)

/-- The 16-bit groups of an IPv6 address, most significant first. -/
def groups16 : IP → List Nat
  | a :: b :: rest => (a.toNat * 256 + b.toNat) :: groups16 rest
  | _ => []

/-- The number of zero groups at the head of a list of groups. -/
def zeroRun : List Nat → Nat
  | 0 :: rest => zeroRun rest + 1
  | _ => 0

/-- The scan of `string6` for the longest run of at least two zero groups; the first of two
equally long runs wins. Returns the run's first group and the group after it. -/
def longestZeroRun (groups : List Nat) : Option (Nat × Nat) :=
  (List.range 8).foldl
    (fun best i =>
      let l := zeroRun (groups.drop i)
      if 2 ≤ l ∧ (best.map fun run => run.2 - run.1).getD 0 < l then some (i, i + l) else best)
    none

/-- `netip.Addr.string6`: lower-case hexadecimal groups, the longest zero run written `::`. -/
def string6 (ip : IP) : String :=
  let groups := groups16 ip
  let hex (g : Nat) : String := String.mk (Nat.toDigits 16 g)
  match longestZeroRun groups with
  | none => ":".intercalate (groups.map hex)
  | some (zeroStart, zeroEnd) =>
      ":".intercalate ((groups.take zeroStart).map hex) ++ "::" ++
        ":".intercalate ((groups.drop zeroEnd).map hex)

/-- `IP.String`. -/
def IP.string (ip : IP) : String :=
  if ip.length = 0 then "<nil>"
  else if ip.length ≠ IPv4len ∧ ip.length ≠ IPv6len then "?" ++ hexString ip
  else
    match ip.to4 with
    | some p4 => string4 p4
    | none => string6 ip

/-- `IPMask.String`. -/
def IPMask.string (m : IPMask) : String :=
  if m.length = 0 then "<nil>" else hexString m

/-- `IPNet.String`: the network number, a slash and the prefix length, or `"<nil>"` when the
address and the mask do not fit together. -/
def IPNet.string (n : IPNet) : String :=
  match networkNumberAndMask n with
  | none => "<nil>"
  | some (nn, m) =>
      match simpleMaskLength m with
      | none => nn.string ++ "/" ++ IPMask.string m
      | some l => nn.string ++ "/" ++ toString l

/-- `big`, the bound of `dtoi`. -/
def big : Nat := 0xFFFFFF

/-- The loop of `dtoi` from the value `n` after `i` digits. -/
def dtoiLoop : List Char → Nat → Nat → Nat × Nat × Bool
  | [], n, i => (n, i, i ≠ 0)
  | c :: cs, n, i =>
      if '0' ≤ c ∧ c ≤ '9' then
        let n := n * 10 + (c.toNat - '0'.toNat)
        if big ≤ n then (big, i, false) else dtoiLoop cs n (i + 1)
      else (n, i, i ≠ 0)

/-- `dtoi`: the decimal number at the head of `s`, the number of digits read, and success. -/
def dtoi (s : List Char) : Nat × Nat × Bool :=
  dtoiLoop s 0 0

/-- `parseIPv4Fields`, reading the characters after `prev` with the current field's value `val`
and digit count `digLen` and the fields completed so far. -/
def parseIPv4Fields : List Char → Option Char → Nat → Nat → List UInt8 → Option (List UInt8)
  | [], _, val, _, fields =>
      if fields.length < 3 then none else some (fields ++ [val.toUInt8])
  | c :: cs, prev, val, digLen, fields =>
      if '0' ≤ c ∧ c ≤ '9' then
        if digLen = 1 ∧ val = 0 then none
        else
          let val := val * 10 + (c.toNat - '0'.toNat)
          if 255 < val then none else parseIPv4Fields cs (some c) val (digLen + 1) fields
      else if c = '.' then
        if prev = none ∨ cs = [] ∨ prev = some '.' then none
        else if fields.length = 3 then none
        else parseIPv4Fields cs (some c) 0 0 (fields ++ [val.toUInt8])
      else none

/-- The value of a hexadecimal digit. -/
def hexValue (c : Char) : Option Nat :=
  if '0' ≤ c ∧ c ≤ '9' then some (c.toNat - '0'.toNat)
  else if 'a' ≤ c ∧ c ≤ 'f' then some (c.toNat - 'a'.toNat + 10)
  else if 'A' ≤ c ∧ c ≤ 'F' then some (c.toNat - 'A'.toNat + 10)
  else none

/-- The hexadecimal field loop of `parseIPv6`: the field's value, its digit count and the
characters after it; `none` for a field of more than four digits. -/
def hexField : List Char → Nat → Nat → Option (Nat × Nat × List Char)
  | [], acc, off => some (acc, off, [])
  | c :: cs, acc, off =>
      match hexValue c with
      | some v => if 3 < off then none else hexField cs (acc * 16 + v) (off + 1)
      | none => some (acc, off, c :: cs)

/-- The main loop of `parseIPv6`, at most `fuel` fields: the bytes read so far, the position of
the `::` if one was read, and the characters left. Each field adds at least two bytes, so eight
rounds reach the sixteen bytes that end the loop. -/
def parseIPv6Loop :
    Nat → List Char → List UInt8 → Option Nat → Option (List UInt8 × Option Nat × List Char)
  | 0, s, ip, ellipsis => some (ip, ellipsis, s)
  | fuel + 1, s, ip, ellipsis =>
      if 16 ≤ ip.length then some (ip, ellipsis, s)
      else
        match hexField s 0 0 with
        | none => none
        | some (acc, off, rest) =>
            if off = 0 then none
            else
              match rest with
              | '.' :: _ =>
                  if ellipsis = none ∧ ip.length ≠ 12 then none
                  else if 16 < ip.length + 4 then none
                  else (parseIPv4Fields s none 0 0 []).map fun v4 => (ip ++ v4, ellipsis, [])
              | _ =>
                  let ip := ip ++ [(acc / 256).toUInt8, acc.toUInt8]
                  match rest with
                  | [] => some (ip, ellipsis, [])
                  | [':'] => none
                  | ':' :: ':' :: rest =>
                      if ellipsis ≠ none then none
                      else if rest = [] then some (ip, some ip.length, [])
                      else parseIPv6Loop fuel rest ip (some ip.length)
                  | ':' :: rest => parseIPv6Loop fuel rest ip ellipsis
                  | _ => none

/-- `parseIPv6` without a zone: the sixteen address bytes, the `::` filled with zeros. -/
def parseIPv6 (s : List Char) : Option (List UInt8) :=
  let (s, ellipsis) := if s.take 2 = [':', ':'] then (s.drop 2, some 0) else (s, none)
  if ellipsis = some 0 ∧ s = [] then some (List.replicate 16 0)
  else
    match parseIPv6Loop 8 s [] ellipsis with
    | none => none
    | some (ip, ellipsis, rest) =>
        if rest ≠ [] then none
        else if ip.length < 16 then
          ellipsis.map fun e => ip.take e ++ List.replicate (16 - ip.length) 0 ++ ip.drop e
        else if ellipsis ≠ none then none
        else some ip

/-- `netip.ParseAddr` as `ParseCIDR` uses it: the 16-byte form of the address and its bit
length, 32 for IPv4 and 128 for IPv6. `ParseCIDR` rejects an address with a zone, so a `%`
makes the parse fail. -/
def parseAddr (s : List Char) : Option (List UInt8 × Nat) :=
  match s.find? fun c => c = '.' ∨ c = ':' ∨ c = '%' with
  | some '.' => (parseIPv4Fields s none 0 0 []).map fun v4 => (v4InV6Prefix ++ v4, 32)
  | some ':' => if '%' ∈ s then none else (parseIPv6 s).map fun ip => (ip, 128)
  | _ => none

/-- The text of a `*net.ParseError` for a CIDR string. -/
def parseErrorCIDR (s : String) : String :=
  "invalid CIDR address: " ++ s

/-- Results in `Except`, of `ParseCIDR` and of the allocator's calls, compare by `decide`. -/
instance instDecidableEqExcept {ε : Type u} {α : Type v} [DecidableEq ε] [DecidableEq α] :
    DecidableEq (Except ε α)
  | .error a, .error b => if h : a = b then isTrue (h ▸ rfl) else isFalse (h ∘ Except.error.inj)
  | .ok a, .ok b => if h : a = b then isTrue (h ▸ rfl) else isFalse (h ∘ Except.ok.inj)
  | .error _, .ok _ => isFalse nofun
  | .ok _, .error _ => isFalse nofun

/-- `net.ParseCIDR`, its network result: the address with the host bits cleared and the mask. -/
def parseCIDR (s : String) : Except String IPNet :=
  let (addr, rest) := s.toList.span (· ≠ '/')
  match rest, parseAddr addr with
  | '/' :: mask, some (addr16, bitLen) =>
      let (n, i, ok) := dtoi mask
      if ¬ok ∨ i ≠ mask.length ∨ bitLen < n then .error (parseErrorCIDR s)
      else
        let m := cidrMask n bitLen
        .ok ⟨IP.mask addr16 m, m⟩
  | _, _ => .error (parseErrorCIDR s)

end Net
end SliceIpam
