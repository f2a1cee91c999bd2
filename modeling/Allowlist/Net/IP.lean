import Allowlist.Go.Strings

namespace Go.Net

open Go

abbrev IP := Bytes

def v4InV6Prefix : IP := [0, 0, 0, 0, 0, 0, 0, 0, 0, 0, 0xff, 0xff]

def IPv4 (a b c d : UInt8) : IP := v4InV6Prefix ++ [a, b, c, d]

def IP.to4 (ip : IP) : Option IP :=
  if ip.length = 4 then some ip
  else if ip.length = 16 ∧ ip.take 12 = v4InV6Prefix then some (ip.drop 12)
  else none

def IP.to16 (ip : IP) : Option IP :=
  if ip.length = 4 then some (v4InV6Prefix ++ ip)
  else if ip.length = 16 then some ip
  else none

/-- `IP.Equal`: a 4-byte address equals its IPv4-mapped 16-byte form. -/
def IP.equal (ip x : IP) : Bool :=
  if ip.length = x.length then ip == x
  else if ip.length = 4 ∧ x.length = 16 then x.take 12 == v4InV6Prefix && ip == x.drop 12
  else if ip.length = 16 ∧ x.length = 4 then ip.take 12 == v4InV6Prefix && ip.drop 12 == x
  else false

def digitByte (d : Nat) : UInt8 := (48 + d).toUInt8

def ubtoa (v : UInt8) : Bytes :=
  if v.toNat < 10 then [digitByte v.toNat]
  else if v.toNat < 100 then [digitByte (v.toNat / 10), digitByte (v.toNat % 10)]
  else [digitByte (v.toNat / 100), digitByte (v.toNat / 10 % 10), digitByte (v.toNat % 10)]

/-- The dotted-decimal text `IP.String` writes for the four bytes of `To4`. -/
def dottedDecimal (p4 : IP) : Bytes :=
  ubtoa (p4.getD 0 0) ++ ascii "." ++ ubtoa (p4.getD 1 0) ++ ascii "." ++
    ubtoa (p4.getD 2 0) ++ ascii "." ++ ubtoa (p4.getD 3 0)

def hexDigit : Bytes := ascii "0123456789abcdef"

/-- The loop of `appendHex` over the nibbles `j - 1` down to `0` of `i`. -/
def appendHexFrom (dst : Bytes) (i : Nat) : Nat → Bytes
  | 0 => dst
  | j + 1 =>
    let v := i >>> (4 * j)
    appendHexFrom (if v > 0 then dst ++ [hexDigit.getD (v % 16) 0] else dst) i j

def appendHex (dst : Bytes) (i : Nat) : Bytes :=
  if i = 0 then dst ++ ascii "0" else appendHexFrom dst i 8

def hexString (b : Bytes) : Bytes :=
  b.flatMap fun tn => [hexDigit.getD (tn.toNat / 16) 0, hexDigit.getD (tn.toNat % 16) 0]

/-- The 16-bit group at byte offset `i`: `uint32(p[i])<<8 | uint32(p[i+1])`. -/
def group (p : IP) (i : Nat) : Nat := (p.getD i 0).toNat * 256 + (p.getD (i + 1) 0).toNat

/-- The inner loop of the zero-run search in `IP.String`: from byte `j`, step over zero groups. -/
def zeroRunEnd (p : IP) : Nat → Nat → Nat
  | 0, j => j
  | fuel + 1, j =>
    if j < 16 ∧ p.getD j 0 = 0 ∧ p.getD (j + 1) 0 = 0 then zeroRunEnd p fuel (j + 2) else j

/-- The outer loop of the zero-run search in `IP.String`; after a longest run the source sets `i = j`. -/
def longestZeroRun (p : IP) : Nat → Nat → Int × Int → Int × Int
  | 0, _, e => e
  | fuel + 1, i, (e0, e1) =>
    if i < 16 then
      if zeroRunEnd p 8 i > i ∧ (zeroRunEnd p 8 i : Int) - i > e1 - e0 then
        longestZeroRun p fuel (zeroRunEnd p 8 i + 2) (i, zeroRunEnd p 8 i)
      else longestZeroRun p fuel (i + 2) (e0, e1)
    else (e0, e1)

/-- The run `IP.String` writes as `::`, or `(-1, -1)`: "::" must not shorten one zero group. -/
def zeroRun (p : IP) : Int × Int :=
  match longestZeroRun p 8 0 (-1, -1) with
  | (e0, e1) => if e1 - e0 ≤ 2 then (-1, -1) else (e0, e1)

/-- The printing loop of `IP.String` for a 16-byte address, from byte `i`. -/
def formatIPv6 (p : IP) (e0 e1 : Int) : Nat → Nat → Bytes → Bytes
  | 0, _, b => b
  | fuel + 1, i, b =>
    if i < 16 then
      if (i : Int) = e0 then
        if 16 ≤ e1 then b ++ ascii "::"
        else formatIPv6 p e0 e1 fuel (e1.toNat + 2) (appendHex (b ++ ascii "::") (group p e1.toNat))
      else formatIPv6 p e0 e1 fuel (i + 2) (appendHex (if i > 0 then b ++ ascii ":" else b) (group p i))
    else b

/-- `IP.String`. -/
def IP.string (ip : IP) : Bytes :=
  if ip.length = 0 then ascii "<nil>"
  else match ip.to4 with
    | some p4 => dottedDecimal p4
    | none =>
      if ip.length ≠ 16 then ascii "?" ++ hexString ip
      else formatIPv6 ip (zeroRun ip).1 (zeroRun ip).2 8 0 []

example : IP.string [127, 0, 0, 1] = ascii "127.0.0.1" := by decide
example : IP.string ([0, 0, 0, 0, 0, 0, 0, 0, 0, 0, 0, 0, 0, 0, 0, 1] : IP) = ascii "::1" := by decide
example : IP.string ([0x20, 1, 0xd, 0xb8, 0, 0, 0, 0, 0, 1, 0, 0, 0, 0, 0, 1] : IP) =
    ascii "2001:db8::1:0:0:1" := by decide

end Go.Net
