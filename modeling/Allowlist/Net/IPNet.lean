import Allowlist.Net.Parse

namespace Go.Net

open Go

abbrev IPMask := Bytes

structure IPNet where
  ip : IP
  mask : IPMask
  deriving DecidableEq, Repr

def IPNet.networkNumberAndMask (n : IPNet) : Option (IP × IPMask) := do
  let ip ← match n.ip.to4 with
    | some ip => some ip
    | none => if n.ip.length = 16 then some n.ip else none
  if n.mask.length = 4 then
    if ip.length ≠ 4 then none else some (ip, n.mask)
  else if n.mask.length = 16 then
    some (ip, if ip.length = 4 then n.mask.drop 12 else n.mask)
  else none

def maskedEqual (nn m ip : Bytes) (l : Nat) : Bool :=
  (List.range l).all fun i => (nn.getD i 0 &&& m.getD i 0) == (ip.getD i 0 &&& m.getD i 0)

/-- `(*IPNet).Contains` on a non-nil network. -/
def IPNet.contains (n : IPNet) (ip : IP) : Bool :=
  match n.networkNumberAndMask with
  | none => (ip.to4.getD ip).length = 0
  | some (nn, m) =>
    let ip := ip.to4.getD ip
    if ip.length ≠ nn.length then false else maskedEqual nn m ip ip.length

/-- The inner loop of `simpleMaskLength`: count the leading ones of `v`, shifting them out. -/
def leadingOnes : Nat → Nat → UInt8 → Nat × UInt8
  | 0, n, v => (n, v)
  | fuel + 1, n, v => if v &&& 0x80 ≠ 0 then leadingOnes fuel (n + 1) (v <<< 1) else (n, v)

/-- The loop of `simpleMaskLength` from a count `n` of ones already read. -/
def simpleMaskLengthFrom (n : Nat) : IPMask → Int
  | [] => n
  | v :: rest =>
    if v = 0xff then simpleMaskLengthFrom (n + 8) rest
    else
      match leadingOnes 8 n v with
      | (n, v) => if v ≠ 0 then -1 else if rest.all (· = 0) then n else -1

def simpleMaskLength (mask : IPMask) : Int := simpleMaskLengthFrom 0 mask

/-- The loop of `uitoa`, writing digits from the last. -/
def uitoaLoop : Nat → Nat → Bytes → Bytes
  | 0, val, buf => digitByte val :: buf
  | fuel + 1, val, buf =>
    if val ≥ 10 then uitoaLoop fuel (val / 10) (digitByte (val % 10) :: buf) else digitByte val :: buf

def uitoa (val : Nat) : Bytes := if val = 0 then ascii "0" else uitoaLoop 20 val []

def IPMask.string (m : IPMask) : Bytes := if m.length = 0 then ascii "<nil>" else hexString m

/-- `(*IPNet).String`; `none` is the nil pointer. -/
def IPNet.string : Option IPNet → Bytes
  | none => ascii "<nil>"
  | some n =>
    match n.networkNumberAndMask with
    | none => ascii "<nil>"
    | some (nn, m) =>
      if simpleMaskLength m = -1 then nn.string ++ ascii "/" ++ IPMask.string m
      else nn.string ++ ascii "/" ++ uitoa (simpleMaskLength m).toNat

/-- The loop of `CIDRMask` over `l` bytes, with `n` one bits left to write. -/
def cidrMaskFrom : Nat → Nat → IPMask
  | 0, _ => []
  | l + 1, n => if n ≥ 8 then 0xff :: cidrMaskFrom l (n - 8) else ~~~((0xff : UInt8) >>> n.toUInt8) :: cidrMaskFrom l 0

def CIDRMask (ones bits : Int) : IPMask :=
  if bits ≠ 32 ∧ bits ≠ 128 then []
  else if ones < 0 ∨ ones > bits then []
  else cidrMaskFrom (bits / 8).toNat ones.toNat

def IP.mask (ip : IP) (mask : IPMask) : IP :=
  let mask := if mask.length = 16 ∧ ip.length = 4 ∧ (mask.take 12).all (· = 0xff) then mask.drop 12 else mask
  let ip := if mask.length = 4 ∧ ip.length = 16 ∧ ip.take 12 = v4InV6Prefix then ip.drop 12 else ip
  if ip.length ≠ mask.length then [] else List.zipWith (· &&& ·) ip mask

/-- The text of the `ParseError` `ParseCIDR` returns. -/
def cidrError (s : Bytes) : Bytes := ascii "invalid CIDR address: " ++ s

/-- `net.ParseCIDR`: the address as written and the network it lies in. -/
def parseCIDR (s : Bytes) : Except Bytes (IP × IPNet) :=
  match s.indexOf? 47 with
  | none => .error (cidrError s)
  | some i =>
    let addr := s.take i
    let mask := s.drop (i + 1)
    let (iplen, ip) : Nat × Option IP :=
      match parseIPv4 addr with
      | some ip => (4, some ip)
      | none => (16, parseIPv6 addr)
    match ip, dtoi mask with
    | some ip, (n, j, true) =>
      if j ≠ mask.length ∨ n > 8 * iplen then .error (cidrError s)
      else
        let m := CIDRMask n (8 * iplen)
        .ok (ip, ⟨ip.mask m, m⟩)
    | _, _ => .error (cidrError s)

example : IPNet.string (some ⟨[10, 1, 2, 3], [255, 0, 0, 0]⟩) = ascii "10.1.2.3/8" := by decide
example : (parseCIDR (ascii "10.1.2.3/8")).toOption = some (IPv4 10 1 2 3, ⟨[10, 0, 0, 0], [255, 0, 0, 0]⟩) := by
  decide
example : IPNet.string (some ⟨[10, 0, 0, 0], [255, 0, 255, 0]⟩) = ascii "10.0.0.0/ff00ff00" := by decide

end Go.Net
