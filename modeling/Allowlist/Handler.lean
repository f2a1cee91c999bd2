import Allowlist.Net.SplitHostPort
import Allowlist.Host.Basic
import Allowlist.Network.Invariant

namespace Go.Http

structure Request where
  remoteAddr : Bytes
  deriving DecidableEq, Repr

def statusUnauthorized : Nat := 401

def statusInternalServerError : Nat := 500

/-- `http.StatusText` of the two codes the handlers write, and `""` as for a code it does not know. -/
def statusText (code : Nat) : Bytes :=
  if code = statusUnauthorized then ascii "Unauthorized"
  else if code = statusInternalServerError then ascii "Internal Server Error"
  else []

end Go.Http

namespace Go.Net

/-- A `net.Conn`, seen through `RemoteAddr()`: nil, or an address whose `String()` is given. -/
structure Conn where
  remoteAddr : Option Bytes
  deriving DecidableEq, Repr

end Go.Net

namespace Allowlist

open Go Go.Net Go.Http

/-- What both lookups do with the remote address: split off the port and `ParseIP` the host. -/
def hostIP (hostport : Bytes) : IP × Option Bytes :=
  match splitHostPort hostport with
  | .error e => ([], some e.error)
  | .ok (addr, _) => ((parseIP addr).getD [], none)

/-- `NetConnLookup`; a nil `net.Conn` is `none`. -/
def netConnLookup : Option Conn → IP × Option Bytes
  | none => ([], some (ascii "allowlist: no connection"))
  | some conn =>
    match conn.remoteAddr with
    | none => ([], some (ascii "allowlist: no address returned"))
    | some netAddr => hostIP netAddr

/-- `HTTPRequestLookup`; a nil request is `none`. -/
def httpRequestLookup : Option Request → IP × Option Bytes
  | none => ([], some (ascii "allowlist: no request"))
  | some req => hostIP req.remoteAddr

theorem hostIP_cases (hostport : Bytes) :
    (∃ host port, splitHostPort hostport = .ok (host, port) ∧ hostIP hostport = ((parseIP host).getD [], none)) ∨
      ∃ e, splitHostPort hostport = .error e ∧ hostIP hostport = ([], some e.error) := by
  unfold hostIP
  cases split : splitHostPort hostport with
  | error e => exact .inr ⟨e, rfl, rfl⟩
  | ok parts => exact .inl ⟨parts.1, parts.2, rfl, rfl⟩

theorem hostIP_nilError {hostport : Bytes} {ip : IP} (looked : hostIP hostport = (ip, none)) :
    ∃ host port, splitHostPort hostport = .ok (host, port) ∧
      (parseIP host = none ∧ ip = [] ∨ parseIP host = some ip ∧ ip.length = 16) := by
  rcases hostIP_cases hostport with ⟨host, port, split, result⟩ | ⟨e, -, result⟩
  · rw [result] at looked
    obtain ⟨rfl, -⟩ := Prod.mk.inj looked
    refine ⟨host, port, split, ?_⟩
    cases parsed : parseIP host with
    | none => exact .inl ⟨rfl, rfl⟩
    | some ip => exact .inr ⟨rfl, parseIP_length parsed⟩
  · rw [result] at looked
    cases (Prod.mk.inj looked).2

theorem httpRequestLookup_nilError {req : Option Request} {ip : IP} (looked : httpRequestLookup req = (ip, none)) :
    ∃ r host port, req = some r ∧ splitHostPort r.remoteAddr = .ok (host, port) ∧
      (parseIP host = none ∧ ip = [] ∨ parseIP host = some ip ∧ ip.length = 16) := by
  cases req with
  | none => cases looked
  | some r =>
    obtain ⟨host, port, split, parsed⟩ := hostIP_nilError looked
    exact ⟨r, host, port, rfl, split, parsed⟩

/-- The same for `NetConnLookup`, on a connection with a remote address. -/
theorem netConnLookup_nilError {conn : Option Conn} {ip : IP} (looked : netConnLookup conn = (ip, none)) :
    ∃ c addr host port, conn = some c ∧ c.remoteAddr = some addr ∧ splitHostPort addr = .ok (host, port) ∧
      (parseIP host = none ∧ ip = [] ∨ parseIP host = some ip ∧ ip.length = 16) := by
  match conn, looked with
  | some ⟨some addr⟩, looked =>
    obtain ⟨host, port, split, parsed⟩ := hostIP_nilError looked
    exact ⟨_, addr, host, port, rfl, rfl, split, parsed⟩

theorem netConnLookup_nilError_v4 :
    netConnLookup (some ⟨some (ascii "10.0.0.1:80")⟩) = (IPv4 10 0 0 1, none) ∧
      ∃ c addr host port, (some ⟨some (ascii "10.0.0.1:80")⟩ : Option Conn) = some c ∧ c.remoteAddr = some addr ∧
        splitHostPort addr = .ok (host, port) ∧
        (parseIP host = none ∧ IPv4 10 0 0 1 = [] ∨ parseIP host = some (IPv4 10 0 0 1) ∧ (IPv4 10 0 0 1).length = 16) :=
  have looked : netConnLookup (some ⟨some (ascii "10.0.0.1:80")⟩) = (IPv4 10 0 0 1, none) := by decide
  ⟨looked, netConnLookup_nilError looked⟩

/-- Both lookups return the 16-byte form of every address `JoinHostPort` writes with a decimal port. -/
theorem lookup_joinHostPort {ip : IP} (valid : validIP ip = true) {port : Bytes} (decimal : ∀ c ∈ port, isDigit c = true) :
    ∃ t, ip.to16 = some t ∧ httpRequestLookup (some ⟨joinHostPort ip.string port⟩) = (t, none) ∧
      netConnLookup (some ⟨some (joinHostPort ip.string port)⟩) = (t, none) := by
  have lengths := validIP_iff.mp valid
  have printed := ipChar_of_mem_string lengths
  have notIn : ∀ {c : UInt8} {text : Bytes} {p : UInt8 → Bool}, p c = false → (∀ b ∈ text, p b = true) → c ∉ text :=
    fun refused all member => absurd (all _ member) (by rw [refused]; decide)
  have split : splitHostPort (joinHostPort ip.string port) = .ok (ip.string, port) :=
    splitHostPort_joinHostPort (notIn (by decide) printed) (notIn (by decide) printed) (notIn (by decide) decimal)
      (notIn (by decide) decimal) (notIn (by decide) decimal)
  obtain ⟨t, to16⟩ : ∃ t, ip.to16 = some t := by
    rcases lengths with four | sixteen
    · exact ⟨_, to16_four four⟩
    · exact ⟨_, to16_sixteen sixteen⟩
  have looked : hostIP (joinHostPort ip.string port) = (t, none) := by
    simp only [hostIP, split, parseIP_string lengths, to16, Option.getD_some]
  exact ⟨t, to16, looked, looked⟩

theorem lookup_joinHostPort_loopback6 :
    validIP (List.replicate 15 0 ++ [1]) = true ∧ (∀ c ∈ ascii "443", isDigit c = true) ∧
      ∃ t, IP.to16 (List.replicate 15 0 ++ [1]) = some t ∧
        httpRequestLookup (some ⟨joinHostPort (IP.string (List.replicate 15 0 ++ [1])) (ascii "443")⟩) = (t, none) ∧
        netConnLookup (some ⟨some (joinHostPort (IP.string (List.replicate 15 0 ++ [1])) (ascii "443"))⟩) = (t, none) :=
  have valid : validIP (List.replicate 15 0 ++ [1]) = true := by decide
  have decimal : ∀ c ∈ ascii "443", isDigit c = true := by decide
  ⟨valid, decimal, lookup_joinHostPort valid decimal⟩

/-- An `ACL` interface value, by its `Permitted` method, which may panic. -/
structure ACL where
  permitted : IP → Except Panic Bool

def Basic.acl (wl : Basic) : ACL := ⟨fun ip => .ok (wl.permitted ip)⟩

def BasicNet.acl (wl : BasicNet) : ACL := ⟨wl.permitted⟩

def stubACL : ACL := ⟨fun _ => .ok true⟩

/-- `HostStub` as an `ACL`. -/
def HostStub.acl : ACL := stubACL

/-- `NetStub` as an `ACL`. -/
def NetStub.acl : ACL := stubACL

/-- Both lists answer an address, or panic on it, by its 16-byte form alone. -/
theorem permitted_by_to16 {x y : IP} (same : x.to16 = y.to16) :
    (∀ wl : Basic, wl.acl.permitted x = wl.acl.permitted y) ∧ ∀ wl : BasicNet, wl.acl.permitted x = wl.acl.permitted y :=
  ⟨fun wl => congrArg Except.ok (Basic.permitted_eq_of_to16 wl same), fun wl => BasicNet.permitted_eq_of_to16 wl same⟩

theorem permitted_by_to16_loopback :
    IP.to16 [127, 0, 0, 1] = IP.to16 (IPv4 127 0 0 1) ∧
      (∀ wl : Basic, wl.acl.permitted [127, 0, 0, 1] = wl.acl.permitted (IPv4 127 0 0 1)) ∧
      ∀ wl : BasicNet, wl.acl.permitted [127, 0, 0, 1] = wl.acl.permitted (IPv4 127 0 0 1) :=
  have same : IP.to16 [127, 0, 0, 1] = IP.to16 (IPv4 127 0 0 1) := rfl
  ⟨same, permitted_by_to16 same⟩

inductive Reply (H : Type)
  | httpError (status : Nat) (text : Bytes)
  | serve (h : H)
  deriving DecidableEq, Repr

/-- `http.Error(w, http.StatusText(status), status)`. -/
def Reply.ofStatus {H : Type} (status : Nat) : Reply H := .httpError status (statusText status)

def Reply.denied {H : Type} : Option H → Reply H
  | none => .ofStatus statusUnauthorized
  | some deny => .serve deny

structure Served (H : Type) where
  checked : Option IP
  reply : Except Panic (Reply H)
  deriving DecidableEq

/-- The body both `ServeHTTP` methods share; a 401 stands in for a nil `deny`. -/
def serveAllowlisted {H : Type} (allowlist : ACL) (allow : H) (deny : Option H) (req : Option Request) :
    Served H :=
  match httpRequestLookup req with
  | (_, some _) => ⟨none, .ok (.ofStatus statusInternalServerError)⟩
  | (ip, none) =>
    ⟨some ip, (allowlist.permitted ip).map fun permitted => if permitted then .serve allow else .denied deny⟩

/-- `Handler`, over `http.Handler` values of any type `H`. -/
structure Handler (H : Type) where
  allowHandler : H
  denyHandler : Option H
  allowlist : ACL

/-- `HandlerFunc`, over handler functions of any type `F`. -/
structure HandlerFunc (F : Type) where
  allow : F
  deny : Option F
  allowlist : ACL

def errAllowNil : Bytes := ascii "allowlist: allow cannot be nil"

def errACLNil : Bytes := ascii "allowlist: ACL cannot be nil"

/-- The checks both constructors make, `nil` being `none`. -/
def checkHandler {H : Type} (allow : Option H) (acl : Option ACL) : Except Bytes (H × ACL) :=
  match allow, acl with
  | none, _ => .error errAllowNil
  | some _, none => .error errACLNil
  | some allow, some acl => .ok (allow, acl)

/-- `NewHandler`. -/
def newHandler {H : Type} (allow deny : Option H) (acl : Option ACL) : Except Bytes (Handler H) :=
  (fun (allow, acl) => ⟨allow, deny, acl⟩) <$> checkHandler allow acl

/-- `NewHandlerFunc`. -/
def newHandlerFunc {F : Type} (allow deny : Option F) (acl : Option ACL) : Except Bytes (HandlerFunc F) :=
  (fun (allow, acl) => ⟨allow, deny, acl⟩) <$> checkHandler allow acl

/-- `(*Handler).ServeHTTP`. -/
def Handler.serveHTTP {H : Type} (h : Handler H) (req : Option Request) : Served H :=
  serveAllowlisted h.allowlist h.allowHandler h.denyHandler req

/-- `(*HandlerFunc).ServeHTTP`. -/
def HandlerFunc.serveHTTP {F : Type} (h : HandlerFunc F) (req : Option Request) : Served F :=
  serveAllowlisted h.allowlist h.allow h.deny req

example : (Handler.serveHTTP ⟨"files", none, newBasic.acl⟩ (some ⟨ascii "10.0.0.1:80"⟩)).reply =
    .ok (.httpError 401 (ascii "Unauthorized")) := by
  decide

section Serve

variable {H : Type} (allowlist : ACL) (allow : H) (deny : Option H)

/-- `ServeHTTP` asks `Permitted` only about what `ParseIP` read from the host of `RemoteAddr`, or nil. -/
theorem serveAllowlisted_checked {req : Option Request} {ip : IP}
    (asked : (serveAllowlisted allowlist allow deny req).checked = some ip) :
    ∃ r host port, req = some r ∧ splitHostPort r.remoteAddr = .ok (host, port) ∧
      (parseIP host = none ∧ ip = [] ∨ parseIP host = some ip ∧ ip.length = 16) := by
  unfold serveAllowlisted at asked
  split at asked
  · cases asked
  · rename_i ip' looked
    cases asked
    exact httpRequestLookup_nilError looked

theorem serveAllowlisted_checked_v4 :
    (serveAllowlisted newBasic.acl "files" none (some ⟨ascii "10.0.0.1:80"⟩)).checked = some (IPv4 10 0 0 1) ∧
      ∃ r host port, (some ⟨ascii "10.0.0.1:80"⟩ : Option Request) = some r ∧
        splitHostPort r.remoteAddr = .ok (host, port) ∧
        (parseIP host = none ∧ IPv4 10 0 0 1 = [] ∨ parseIP host = some (IPv4 10 0 0 1) ∧ (IPv4 10 0 0 1).length = 16) :=
  have asked : (serveAllowlisted newBasic.acl "files" none (some ⟨ascii "10.0.0.1:80"⟩)).checked =
      some (IPv4 10 0 0 1) := by
    decide
  ⟨asked, serveAllowlisted_checked _ _ _ asked⟩

theorem serveAllowlisted_total {p q : IP → Bool} (nilRefused : p [] = false)
    (agree : ∀ ip : IP, ip.length = 16 → p ip = q ip) (req : Request) :
    (serveAllowlisted ⟨fun ip => .ok (p ip)⟩ allow none (some req)).reply =
      .ok (match splitHostPort req.remoteAddr with
        | .ok (host, _) => if (parseIP host).any q then .serve allow else .ofStatus statusUnauthorized
        | .error _ => .ofStatus statusInternalServerError) := by
  rcases hostIP_cases req.remoteAddr with ⟨host, port, split, looked⟩ | ⟨e, split, looked⟩
  · cases parsed : parseIP host with
    | none => simp [serveAllowlisted, httpRequestLookup, looked, split, parsed, nilRefused, Except.map, Reply.denied]
    | some ip =>
      simp [serveAllowlisted, httpRequestLookup, looked, split, parsed, agree ip (parseIP_length parsed), Except.map,
        Reply.denied]
  · simp [serveAllowlisted, httpRequestLookup, looked, split, Except.map]

theorem serveAllowlisted_basic_serve (wl : Basic) (req : Option Request) :
    (serveAllowlisted wl.acl allow none req).reply = .ok (.serve allow) ↔
      ∃ r host port ip, req = some r ∧ splitHostPort r.remoteAddr = .ok (host, port) ∧ parseIP host = some ip ∧
        wl.permitted ip = true := by
  cases req with
  | none => simp [serveAllowlisted, httpRequestLookup, Reply.ofStatus]
  | some r =>
    rw [Basic.acl, serveAllowlisted_total allow (q := wl.permitted) rfl (fun _ _ => rfl)]
    cases split : splitHostPort r.remoteAddr with
    | error e => simp [Reply.ofStatus, split]
    | ok parts =>
      obtain ⟨host, port⟩ := parts
      cases parsed : parseIP host <;> simp [Reply.ofStatus, split, parsed]

/-- A gate over a `BasicNet` list with no nil entry serves exactly the hosts inside one of its networks. -/
theorem serveAllowlisted_basicNet {calls : List NetCall} (noBlank : ∀ c ∈ calls, c.NoBlank) {wl : BasicNet}
    (ran : newBasicNet.run calls = .ok wl) (req : Request) :
    (serveAllowlisted wl.acl allow none (some req)).reply =
      .ok (match splitHostPort req.remoteAddr with
        | .ok (host, _) =>
          if (parseIP host).any fun ip => wl.allowlist.any (BasicNet.contained ip) then .serve allow
          else .ofStatus statusUnauthorized
        | .error _ => .ofStatus statusInternalServerError) := by
  have noNil := BasicNet.noNil_run calls noBlank BasicNet.noNil_new ran
  have answers : wl.acl = ⟨fun ip => .ok (validIP ip && wl.allowlist.any (BasicNet.contained ip))⟩ :=
    congrArg ACL.mk (funext (BasicNet.permitted_of_noNil noNil))
  rw [answers]
  exact serveAllowlisted_total allow rfl (fun ip sixteen => by simp [validIP_iff.mpr (.inr sixteen)]) req

theorem serveAllowlisted_basicNet_inside :
    (∀ c ∈ [NetCall.add (some ⟨[10, 0, 0, 0], [255, 0, 0, 0]⟩)], c.NoBlank) ∧
      newBasicNet.run [.add (some ⟨[10, 0, 0, 0], [255, 0, 0, 0]⟩)] = .ok ⟨[some ⟨[10, 0, 0, 0], [255, 0, 0, 0]⟩]⟩ ∧
      (serveAllowlisted (BasicNet.acl ⟨[some ⟨[10, 0, 0, 0], [255, 0, 0, 0]⟩]⟩) "files" none
        (some ⟨ascii "10.1.2.3:80"⟩)).reply = .ok (.serve "files") :=
  have noBlank : ∀ c ∈ [NetCall.add (some ⟨[10, 0, 0, 0], [255, 0, 0, 0]⟩)], c.NoBlank := fun c member => by
    rw [List.mem_singleton] at member
    subst member
    trivial
  have ran : newBasicNet.run [.add (some ⟨[10, 0, 0, 0], [255, 0, 0, 0]⟩)] =
      .ok ⟨[some ⟨[10, 0, 0, 0], [255, 0, 0, 0]⟩]⟩ := rfl
  ⟨noBlank, ran, (serveAllowlisted_basicNet "files" noBlank ran _).trans (by decide)⟩

end Serve

/-- A zoned `RemoteAddr` splits but does not parse: the handlers check the nil address, not answer 500. -/
theorem lookup_zonedRemoteAddr :
    httpRequestLookup (some ⟨ascii "[fe80::1%eth0]:8080"⟩) = ([], none) ∧
      netConnLookup (some ⟨some (ascii "[fe80::1%eth0]:8080")⟩) = ([], none) ∧
      Handler.serveHTTP ⟨"files", none, newBasic.acl⟩ (some ⟨ascii "[fe80::1%eth0]:8080"⟩) =
        ⟨some [], .ok (.httpError 401 (ascii "Unauthorized"))⟩ ∧
      HandlerFunc.serveHTTP ⟨"files", none, HostStub.acl⟩ (some ⟨ascii "[fe80::1%eth0]:8080"⟩) =
        ⟨some [], .ok (.serve "files")⟩ := by
  decide

end Allowlist
