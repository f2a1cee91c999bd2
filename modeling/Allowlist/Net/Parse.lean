import Allowlist.Net.IP

namespace Go.Net

open Go

def isDigit (c : UInt8) : Bool := 48 ≤ c.toNat && c.toNat ≤ 57

def hexValue (c : UInt8) : Option Nat :=
  if 48 ≤ c.toNat ∧ c.toNat ≤ 57 then some (c.toNat - 48)
  else if 97 ≤ c.toNat ∧ c.toNat ≤ 102 then some (c.toNat - 97 + 10)
  else if 65 ≤ c.toNat ∧ c.toNat ≤ 70 then some (c.toNat - 65 + 10)
  else none

def big : Nat := 0xFFFFFF

/-- The loop of `dtoi`, with the value `n` and the count `i` of digits read so far. -/
def dtoiLoop (n i : Nat) : Bytes → Nat × Nat × Bool
  | [] => if i = 0 then (0, 0, false) else (n, i, true)
  | c :: s =>
    if isDigit c then
      if n * 10 + (c.toNat - 48) ≥ big then (big, i, false)
      else dtoiLoop (n * 10 + (c.toNat - 48)) (i + 1) s
    else if i = 0 then (0, 0, false) else (n, i, true)

def dtoi (s : Bytes) : Nat × Nat × Bool := dtoiLoop 0 0 s

/-- The loop of `xtoi`. -/
def xtoiLoop (n i : Nat) : Bytes → Nat × Nat × Bool
  | [] => if i = 0 then (0, 0, false) else (n, i, true)
  | c :: s =>
    match hexValue c with
    | some d => if n * 16 + d ≥ big then (0, i, false) else xtoiLoop (n * 16 + d) (i + 1) s
    | none => if i = 0 then (0, 0, false) else (n, i, true)

def xtoi (s : Bytes) : Nat × Nat × Bool := xtoiLoop 0 0 s

/-- The loop of `parseIPv4` from octet `i`, with `k` octets left: the octets read and the rest of the text. -/
def parseIPv4Octets (i : Nat) (p s : Bytes) : Nat → Option (Bytes × Bytes)
  | 0 => some (p, s)
  | k + 1 =>
    if s = [] then none
    else if i > 0 ∧ s.head? ≠ some 46 then none
    else
      let s := if i > 0 then s.tail else s
      match dtoi s with
      | (n, c, ok) =>
        if !ok || n > 0xFF then none
        else if c > 1 ∧ s.head? = some 48 then none
        else parseIPv4Octets (i + 1) (p ++ [n.toUInt8]) (s.drop c) k

def parseIPv4 (s : Bytes) : Option IP :=
  match parseIPv4Octets 0 [] s 4 with
  | some (p, []) => some (IPv4 (p.getD 0 0) (p.getD 1 0) (p.getD 2 0) (p.getD 3 0))
  | _ => none

/-- The `for i < IPv6len` loop of `parseIPv6`; `none` is `return nil`. -/
def parseIPv6Loop : Nat → Bytes → Option Nat → Bytes → Option (Bytes × Option Nat × Bytes)
  | 0, ip, ellipsis, s => some (ip, ellipsis, s)
  | fuel + 1, ip, ellipsis, s =>
    if ip.length < 16 then
      match xtoi s with
      | (n, c, ok) =>
        if !ok || n > 0xFFFF then none
        else if s[c]? = some 46 then
          if ellipsis.isNone ∧ ip.length ≠ 12 then none
          else if ip.length + 4 > 16 then none
          else match parseIPv4 s with
            | none => none
            | some ip4 => some (ip ++ ip4.drop 12, ellipsis, [])
        else
          match s.drop c with
          | [] => some (ip ++ [(n / 256).toUInt8, n.toUInt8], ellipsis, [])
          | [_] => none
          | c0 :: c1 :: rest =>
            if c0 ≠ 58 then none
            else if c1 = 58 then
              if ellipsis.isSome then none
              else if rest = [] then
                some (ip ++ [(n / 256).toUInt8, n.toUInt8], some (ip.length + 2), [])
              else parseIPv6Loop fuel (ip ++ [(n / 256).toUInt8, n.toUInt8]) (some (ip.length + 2)) rest
            else parseIPv6Loop fuel (ip ++ [(n / 256).toUInt8, n.toUInt8]) ellipsis (c1 :: rest)
    else some (ip, ellipsis, s)

/-- The end of `parseIPv6`: the whole text must be used, and `::` must stand for a zero group. -/
def expandEllipsis : Option (Bytes × Option Nat × Bytes) → Option IP
  | some (ip, ellipsis, []) =>
    if ip.length < 16 then
      match ellipsis with
      | some e => some (ip.take e ++ List.replicate (16 - ip.length) 0 ++ ip.drop e)
      | none => none
    else if ellipsis.isSome then none
    else some ip
  | _ => none

def parseIPv6 (s : Bytes) : Option IP :=
  if s.take 2 = ascii "::" then
    if s.drop 2 = [] then some (List.replicate 16 0)
    else expandEllipsis (parseIPv6Loop 8 [] (some 0) (s.drop 2))
  else expandEllipsis (parseIPv6Loop 8 [] none s)

/-- `net.ParseIP`: the first `.` or `:` decides the form; the result has 16 bytes. -/
def parseIP (s : Bytes) : Option IP :=
  match s.find? fun c => c = 46 ∨ c = 58 with
  | some 46 => parseIPv4 s
  | some _ => parseIPv6 s
  | none => none

example : parseIP (ascii "10.0.0.1") = some (IPv4 10 0 0 1) := by decide
example : parseIP (ascii "0:0:0:0:0:0:0:1") = some [0, 0, 0, 0, 0, 0, 0, 0, 0, 0, 0, 0, 0, 0, 0, 1] := by
  decide
example : parseIP (ascii "::ffff:10.0.0.1") = some (IPv4 10 0 0 1) := by decide
example : parseIP (ascii "010.0.0.1") = none := by decide

end Go.Net
