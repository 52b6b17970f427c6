import DnsFilter.GoString

/-!
# Addresses and networks

`IP`, `IPNet`, `ParseCIDR` and `Contains` of the package `net`, as far as the identity
resolver uses them.

An `IP` is a byte slice; only the lengths `0`, `4` and `16` occur.  An IPv4 address has a
16-byte form too, and `To4` finds it.  A network keeps the form in which it was written:
`::ffff:10.0.0.0/104` is a 16-byte network that contains IPv4 addresses.
-/

namespace DnsFilter

open GoString

/-- An address; the zero value is the empty slice. -/
inductive IP
  | nil
  | v4 (a : BitVec 32)
  | v6 (a : BitVec 128)
  deriving DecidableEq

namespace IP

/-- The 4-byte form of an IPv4 address. -/
def to4 : IP → Option (BitVec 32)
  | nil => none
  | v4 a => some a
  | v6 a => if a >>> 32 = 0xffff#128 then some (a.setWidth 32) else none

/-- The address up to its form; two addresses print the same (`String`) exactly when their
canonical forms agree. -/
def canonical (ip : IP) : IP :=
  match ip.to4 with
  | some a => v4 a
  | none => ip

end IP

/-- `CIDRMask`: `ones` one bits followed by zeros. -/
def cidrMask (ones bits : ℕ) : BitVec bits := BitVec.allOnes bits <<< (bits - ones)

/-- A network: its masked address and the number of leading ones of its mask. -/
inductive IPNet
  | v4 (ip : BitVec 32) (ones : Fin 33)
  | v6 (ip : BitVec 128) (ones : Fin 129)
  deriving DecidableEq

namespace IPNet

/-- The first result of `Mask.Size`. -/
def ones : IPNet → ℕ
  | v4 _ n => n
  | v6 _ n => n

/-- `Contains`: both sides are compared in their 4-byte forms where they have one. -/
def contains (n : IPNet) (ip : IP) : Bool :=
  match n, ip.to4 with
  | v4 nn ones, some x => nn &&& cidrMask ones 32 = x &&& cidrMask ones 32
  | v4 _ _, none => false
  | v6 nn ones, x =>
      let m := cidrMask ones 128
      match (IP.v6 nn).to4, x with
      | some nn, some x => nn &&& m.setWidth 32 = x &&& m.setWidth 32
      | none, none =>
          match ip with
          | .v6 x => nn &&& m = x &&& m
          | _ => false
      | _, _ => false

end IPNet

/-! ### Parsing -/

/-- The value of a digit of the given base. -/
def digitValue (base : ℕ) (c : Char) : Option ℕ :=
  let v :=
    if '0' ≤ c ∧ c ≤ '9' then c.toNat - '0'.toNat
    else if 'a' ≤ c ∧ c ≤ 'f' then c.toNat - 'a'.toNat + 10
    else if 'A' ≤ c ∧ c ≤ 'F' then c.toNat - 'A'.toNat + 10
    else base
  if v < base then some v else none

/-- The number that a string of digits denotes. -/
def number (base : ℕ) (s : GoString) : ℕ :=
  s.foldl (fun acc c => acc * base + (digitValue base c).getD 0) 0

def allDigits (base : ℕ) (s : GoString) : Bool := s.all fun c => (digitValue base c).isSome

/-- One field of an IPv4 address: no leading zero, at most 255. -/
def parseIPv4Field (s : GoString) : Option (BitVec 8) :=
  if s ≠ [] ∧ allDigits 10 s ∧ (s.head? = some '0' → s = ['0']) ∧ number 10 s ≤ 255 then
    some (BitVec.ofNat 8 (number 10 s))
  else none

/-- `parseIPv4Fields`. -/
def parseIPv4Fields (s : GoString) : Option (BitVec 32) :=
  match split s '.' with
  | [a, b, c, d] => do
      let a ← parseIPv4Field a
      let b ← parseIPv4Field b
      let c ← parseIPv4Field c
      let d ← parseIPv4Field d
      return a ++ b ++ c ++ d
  | _ => none

/-- The loop of `parseIPv6` over the 16-bit groups, of which `n` still fit; `ellipsis` is the
position of `::`.  The result is the groups, that position and the unread rest. -/
def parseIPv6Loop : ℕ → GoString → List (BitVec 16) → Option ℕ →
    Option (List (BitVec 16) × Option ℕ × GoString)
  | 0, s, groups, ellipsis => some (groups, ellipsis, s)
  | n + 1, s, groups, ellipsis =>
      let digits := s.takeWhile fun c => (digitValue 16 c).isSome
      let rest := s.drop digits.length
      if digits = [] ∨ 4 < digits.length then none
      else if rest.head? = some '.' then
        -- an IPv4 address may take the place of the last two groups
        if (ellipsis = none ∧ groups.length ≠ 6) ∨ 6 < groups.length then none
        else (parseIPv4Fields s).map fun a =>
          (groups ++ [a.extractLsb' 16 16, a.extractLsb' 0 16], ellipsis, [])
      else
        let groups := groups ++ [BitVec.ofNat 16 (number 16 digits)]
        match rest with
        | [] => some (groups, ellipsis, [])
        | [':'] => none
        | ':' :: ':' :: rest =>
            if ellipsis ≠ none then none
            else if rest = [] then some (groups, some groups.length, [])
            else parseIPv6Loop n rest groups (some groups.length)
        | ':' :: rest => parseIPv6Loop n rest groups ellipsis
        | _ => none

/-- `parseIPv6`, without zones. -/
def parseIPv6 (s : GoString) : Option (BitVec 128) :=
  let leading := hasPrefix s "::".toList
  let s := if leading then s.drop 2 else s
  if leading ∧ s = [] then some 0
  else do
    let (groups, ellipsis, rest) ← parseIPv6Loop 8 s [] (if leading then some 0 else none)
    if rest ≠ [] then none
    let groups ←
      if groups.length < 8 then
        ellipsis.map fun k =>
          groups.take k ++ List.replicate (8 - groups.length) 0 ++ groups.drop k
      else if ellipsis = none then some groups else none
    return groups.foldl (fun a g => a <<< 16 ||| g.setWidth 128) 0

/-- `ParseCIDR`: the network, `none` for a malformed text. -/
def parseCIDR (s : GoString) : Option IPNet :=
  let addr := before s '/'
  let mask := s.drop (addr.length + 1)
  if '/' ∉ s ∨ '%' ∈ addr ∨ mask = [] ∨ ¬ allDigits 10 mask then none
  else
    let n := number 10 mask
    match addr.find? fun c => c = '.' ∨ c = ':' with
    | some '.' =>
        if h : n < 33 then
          (parseIPv4Fields addr).map fun a => .v4 (a &&& cidrMask n 32) ⟨n, h⟩
        else none
    | some ':' =>
        if h : n < 129 then
          (parseIPv6 addr).map fun a => .v6 (a &&& cidrMask n 128) ⟨n, h⟩
        else none
    | _ => none

example : parseCIDR "10.1.0.0/16".toList = some (.v4 0x0a010000#32 16) := by decide +kernel

example : parseCIDR "2001:db8::/32".toList =
    some (.v6 0x20010db8000000000000000000000000#128 32) := by decide +kernel

example : (parseCIDR "::ffff:10.0.0.0/104".toList).map (·.contains (.v4 0x0a010203#32)) =
    some true := by decide +kernel

end DnsFilter
