import Allowlist.Go.Strings

namespace Go.Net

open Go

structure AddrError where
  err : Bytes
  addr : Bytes
  deriving DecidableEq, Repr

def AddrError.error (e : AddrError) : Bytes :=
  if e.addr = [] then e.err else ascii "address " ++ e.addr ++ ascii ": " ++ e.err

def missingPort : Bytes := ascii "missing port in address"

def tooManyColons : Bytes := ascii "too many colons in address"

/-- The first half of `SplitHostPort`, given the last colon `i`. -/
def splitHost (hostport : Bytes) (i : Nat) : Except AddrError (Bytes × Nat × Nat) :=
  if hostport.head? = some 91 then
    match hostport.indexOf? 93 with
    | none => .error ⟨ascii "missing ']' in address", hostport⟩
    | some close =>
      if close + 1 = hostport.length then .error ⟨missingPort, hostport⟩
      else if close + 1 = i then .ok ((hostport.drop 1).take (close - 1), 1, close + 1)
      else if hostport[close + 1]? = some 58 then .error ⟨tooManyColons, hostport⟩
      else .error ⟨missingPort, hostport⟩
  else if 58 ∈ hostport.take i then .error ⟨tooManyColons, hostport⟩
  else .ok (hostport.take i, 0, 0)

/-- `net.SplitHostPort`: the host and the port of `host:port` or `[host]:port`, a zone included. -/
def splitHostPort (hostport : Bytes) : Except AddrError (Bytes × Bytes) :=
  match lastIndexByte hostport 58 with
  | none => .error ⟨missingPort, hostport⟩
  | some i =>
    match splitHost hostport i with
    | .error e => .error e
    | .ok (host, j, k) =>
      if 91 ∈ hostport.drop j then .error ⟨ascii "unexpected '[' in address", hostport⟩
      else if 93 ∈ hostport.drop k then .error ⟨ascii "unexpected ']' in address", hostport⟩
      else .ok (host, hostport.drop (i + 1))

theorem splitHostPort_plain {host port : Bytes} (hostColon : 58 ∉ host) (hostOpen : 91 ∉ host)
    (hostClose : 93 ∉ host) (portColon : 58 ∉ port) (portOpen : 91 ∉ port) (portClose : 93 ∉ port) :
    splitHostPort (host ++ 58 :: port) = .ok (host, port) := by
  have first : (host ++ 58 :: port).head? ≠ some 91 := by
    cases host with
    | nil => simp
    | cons x rest =>
      simp only [List.cons_append, List.head?_cons, ne_eq, Option.some.injEq]
      rintro rfl
      exact hostOpen (List.mem_cons_self _ _)
  have before : (host ++ 58 :: port).take host.length = host := List.take_left' rfl
  have split : splitHost (host ++ 58 :: port) host.length = .ok (host, 0, 0) := by
    rw [splitHost, if_neg first, before, if_neg hostColon]
  simp only [splitHostPort, lastIndexByte_append_cons host portColon, split, List.drop_zero]
  rw [if_neg (by simp [hostOpen, portOpen]), if_neg (by simp [hostClose, portClose]), List.append_cons,
    List.drop_left' (by simp)]

theorem splitHostPort_bracketed {host port : Bytes} (hostOpen : 91 ∉ host) (hostClose : 93 ∉ host)
    (portColon : 58 ∉ port) (portOpen : 91 ∉ port) (portClose : 93 ∉ port) :
    splitHostPort (91 :: host ++ 93 :: 58 :: port) = .ok (host, port) := by
  have text : 91 :: host ++ 93 :: 58 :: port = (91 :: host ++ [93]) ++ 58 :: port := by simp
  have last : lastIndexByte (91 :: host ++ 93 :: 58 :: port) 58 = some (host.length + 2) := by
    rw [text, lastIndexByte_append_cons _ portColon]
    simp
  have close : (91 :: host ++ 93 :: 58 :: port).indexOf? 93 = some (host.length + 1) :=
    indexOf?_append_cons (c := 93) (a := 91 :: host) (by simp [hostClose]) (58 :: port)
  have split : splitHost (91 :: host ++ 93 :: 58 :: port) (host.length + 2) = .ok (host, 1, host.length + 2) := by
    rw [splitHost, if_pos (show (91 :: host ++ 93 :: 58 :: port).head? = some 91 from rfl), close]
    simp
  simp only [splitHostPort, last, split]
  rw [if_neg (by simp [hostOpen, portOpen]), if_neg (by simp [portClose]), text,
    List.append_cons (91 :: host ++ [93]) 58 port, List.drop_left' (by simp)]

/-- `net.JoinHostPort`, with which `net/http` writes `RemoteAddr`. -/
def joinHostPort (host port : Bytes) : Bytes :=
  if 58 ∈ host then 91 :: host ++ 93 :: 58 :: port else host ++ 58 :: port

theorem splitHostPort_joinHostPort {host port : Bytes} (hostOpen : 91 ∉ host) (hostClose : 93 ∉ host)
    (portColon : 58 ∉ port) (portOpen : 91 ∉ port) (portClose : 93 ∉ port) :
    splitHostPort (joinHostPort host port) = .ok (host, port) := by
  unfold joinHostPort
  split_ifs with hostColon
  · exact splitHostPort_bracketed hostOpen hostClose portColon portOpen portClose
  · exact splitHostPort_plain hostColon hostOpen hostClose portColon portOpen portClose

/-- What `SplitHostPort` accepts is `host:port` or `[host]:port`, split at the last colon. -/
theorem splitHostPort_ok {hostport host port : Bytes} (split : splitHostPort hostport = .ok (host, port)) :
    (hostport = host ++ 58 :: port ∨ hostport = 91 :: host ++ 93 :: 58 :: port) ∧ 58 ∉ port := by
  unfold splitHostPort at split
  split at split
  · cases split
  rename_i i last
  obtain ⟨a, b, rfl, noColon, rfl⟩ := lastIndexByte_eq_some last
  split at split
  · cases split
  rename_i host' j k first
  split_ifs at split
  obtain ⟨rfl, rfl⟩ := Prod.mk.inj (Except.ok.inj split)
  rw [List.append_cons a 58 b, List.drop_left' (by simp), ← List.append_cons]
  refine ⟨?_, noColon⟩
  unfold splitHost at first
  split_ifs at first with bracket
  · split at first
    · cases first
    rename_i close found
    split_ifs at first with atEnd atColon
    obtain ⟨rfl, -⟩ := Prod.mk.inj (Except.ok.inj first)
    obtain ⟨c, d, whole, missing, rfl⟩ := indexOf?_eq_some found
    have front : a = c ++ [93] := by
      have before := congrArg (List.take a.length) whole
      rw [List.take_left' rfl, ← atColon, List.append_cons c 93 d, List.take_left' (by simp)] at before
      exact before
    subst front
    obtain ⟨c', rfl⟩ : ∃ c', c = 91 :: c' := by
      cases c with
      | nil => cases bracket
      | cons x c' =>
        simp only [List.cons_append, List.head?_cons, Option.some.injEq] at bracket
        exact ⟨c', by rw [bracket]⟩
    right
    simp
  · obtain ⟨rfl, -⟩ := Prod.mk.inj (Except.ok.inj first)
    exact .inl (by rw [List.take_left' rfl])

theorem splitHostPort_ok_loopback :
    splitHostPort (ascii "[::1]:8080") = .ok (ascii "::1", ascii "8080") ∧
      (ascii "[::1]:8080" = ascii "::1" ++ 58 :: ascii "8080" ∨ ascii "[::1]:8080" = 91 :: ascii "::1" ++ 93 :: 58 :: ascii "8080") ∧
      58 ∉ ascii "8080" :=
  have split : splitHostPort (ascii "[::1]:8080") = .ok (ascii "::1", ascii "8080") := by decide
  ⟨split, splitHostPort_ok split⟩

example : splitHostPort (ascii "[fe80::1%eth0]:8080") = .ok (ascii "fe80::1%eth0", ascii "8080") := by decide

example : (splitHostPort (ascii "::1:8080")).toOption = none := by decide

end Go.Net
