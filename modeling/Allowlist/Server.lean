import Allowlist.Example

namespace Allowlist

open Go Go.Net Go.Http

namespace Example

structure Incoming where
  route : Endpoint
  req : Http.Request
  ip : Bytes
  deriving DecidableEq, Repr

structure Server where
  wl : Basic
  admin : Basic

def mainServer : Except Panic Server := do
  let wl ← mainWL
  let admin ← adminWL
  pure ⟨wl, admin⟩

inductive Response
  | files
  | written (text : Bytes)
  | httpError (status : Nat) (text : Bytes)
  deriving DecidableEq, Repr

/-- The gate a route holds, as `NewHandler` and `NewHandlerFunc` return it for `main`'s arguments. -/
def Server.gate (s : Server) : Endpoint → Option Http.Request → Served Endpoint
  | .files => Handler.serveHTTP ⟨.files, none, s.wl.acl⟩
  | e => HandlerFunc.serveHTTP ⟨e, none, s.admin.acl⟩

def Endpoint.request (ip : Bytes) : Endpoint → Option Request
  | .files => none
  | .add => some (.add ip)
  | .del => some (.del ip)
  | .dump => some .dump

/-- The handler behind a gate: the file server, or an admin handler run on `wl`. -/
def Server.runHandler (s : Server) (ip : Bytes) (e : Endpoint) : Except Panic (Server × Response) :=
  match e.request ip with
  | none => .ok (s, .files)
  | some r => (serve s.wl r).map fun (wl, text) => ({ s with wl := wl }, .written text)

/-- One request: the gate refuses it, or runs the handler it holds. -/
def Server.handle (s : Server) (x : Incoming) : Except Panic (Server × Response) :=
  match (s.gate x.route (some x.req)).reply with
  | .error p => .error p
  | .ok (.httpError status text) => .ok (s, .httpError status text)
  | .ok (.serve e) => s.runHandler x.ip e

/-- Requests one after another, stopped by the first panic: the lists afterwards and the responses. -/
def Server.run (s : Server) : List Incoming → Except Panic (Server × List Response)
  | [] => .ok (s, [])
  | x :: xs => do
    let (s', resp) ← s.handle x
    let (s'', resps) ← s'.run xs
    pure (s'', resp :: resps)

example : (mainServer >>= fun s => s.run [⟨.add, ⟨ascii "10.0.0.2:5000"⟩, ascii "10.0.0.2"⟩,
    ⟨.add, ⟨ascii "127.0.0.1:5000"⟩, ascii "10.0.0.2"⟩, ⟨.files, ⟨ascii "10.0.0.2:6000"⟩, []⟩]).map Prod.snd =
    .ok [.httpError 401 (ascii "Unauthorized"), .written (ascii "Added 10.0.0.2 to allowlist.\n"), .files] := by
  decide

def isLoopback (ip : IP) : Bool := ip == v4InV6Prefix ++ [127, 0, 0, 1] || ip == List.replicate 15 0 ++ [1]

def remoteIP? (req : Http.Request) : Option IP :=
  match splitHostPort req.remoteAddr with
  | .ok (host, _) => parseIP host
  | .error _ => none

def Endpoint.allows (S : AddrSet) : Endpoint → IP → Bool
  | .files => S.permitted
  | _ => isLoopback

def Incoming.admitted (S : AddrSet) (x : Incoming) : Bool := (remoteIP? x.req).any (x.route.allows S)

def Incoming.refusal (x : Incoming) : Response :=
  match splitHostPort x.req.remoteAddr with
  | .ok _ => .httpError statusUnauthorized (statusText statusUnauthorized)
  | .error _ => .httpError statusInternalServerError (statusText statusInternalServerError)

def specStep (S : AddrSet) (x : Incoming) : AddrSet :=
  match x.admitted S, x.route.request x.ip >>= Request.call? with
  | true, some c => S.step c
  | _, _ => S

def specRun (S : AddrSet) (xs : List Incoming) : AddrSet := xs.foldl specStep S

def startSet : AddrSet := AddrSet.empty.add [127, 0, 0, 1]

theorem specRun_loopback (S : AddrSet) (xs : List Incoming) :
    specRun S xs = specRun S (xs.filter fun x => (remoteIP? x.req).any isLoopback) := by
  induction xs generalizing S with
  | nil => rfl
  | cons x xs ih =>
    rw [List.filter_cons]
    split
    · exact ih _
    · rename_i remote
      have unchanged : specStep S x = S := by
        unfold specStep Incoming.admitted
        cases route : x.route <;> simp_all [Endpoint.request, Endpoint.allows]
      exact (congrArg (specRun · xs) unchanged).trans (ih S)

theorem specStep_admin {S : AddrSet} {admin : Http.Request} (fromLoopback : (remoteIP? admin).any isLoopback = true)
    {text : Bytes} {ip : IP} (parsed : parseIP text = some ip) :
    specStep S ⟨.add, admin, text⟩ = S.add ip ∧ specStep S ⟨.del, admin, text⟩ = S.remove ip := by
  unfold specStep Incoming.admitted
  simp only [Endpoint.allows, fromLoopback, Endpoint.request, bind, Option.bind, Request.call?, parsed, Option.getD_some]
  exact ⟨rfl, rfl⟩

theorem specRun_concat (S : AddrSet) (xs : List Incoming) (x : Incoming) :
    specRun S (xs ++ [x]) = specStep (specRun S xs) x := by
  simp only [specRun, List.foldl_append, List.foldl_cons, List.foldl_nil]

theorem refusal_of_remoteIP {x : Incoming} {ip : IP} (reaches : remoteIP? x.req = some ip) :
    x.refusal = .httpError statusUnauthorized (statusText statusUnauthorized) := by
  unfold remoteIP? at reaches
  unfold Incoming.refusal
  split at reaches
  · rename_i split
    rw [split]
  · cases reaches

structure Server.Refines (s : Server) (S : AddrSet) : Prop where
  wl : Allowlist.Refines s.wl S
  admin : ∀ ip : IP, ip.length = 16 → s.admin.permitted ip = isLoopback ip

theorem mainServer_refines : ∃ s, mainServer = .ok s ∧ s.Refines startSet := by
  obtain ⟨wl, added, related⟩ := Basic.refines_edit (show Call.IsEdit (.add [127, 0, 0, 1]) from trivial) Basic.refines_new
  obtain ⟨admin, built, permits⟩ := adminWL_permitted
  refine ⟨⟨wl, admin⟩, by rw [mainServer, show mainWL = .ok wl from added, built]; rfl, related, fun ip sixteen => ?_⟩
  rw [Bool.eq_iff_iff, permits, to16_sixteen sixteen, isLoopback]
  simp

theorem Server.gate_reply {s : Server} {S : AddrSet} (related : s.Refines S) (route : Endpoint) (req : Http.Request) :
    (s.gate route (some req)).reply = .ok (match splitHostPort req.remoteAddr with
      | .ok (host, _) => if (parseIP host).any (route.allows S) then .serve route else .ofStatus statusUnauthorized
      | .error _ => .ofStatus statusInternalServerError) := by
  obtain ⟨p, gate, nilRefused, agree⟩ : ∃ p : IP → Bool, s.gate route = serveAllowlisted ⟨fun ip => .ok (p ip)⟩ route none ∧
      p [] = false ∧ ∀ ip : IP, ip.length = 16 → p ip = route.allows S ip := by
    cases route with
    | files => exact ⟨s.wl.permitted, rfl, rfl, fun ip _ => Basic.permitted_of_refines related.wl ip⟩
    | add | del | dump => exact ⟨s.admin.permitted, rfl, rfl, related.admin⟩
  rw [gate]
  exact serveAllowlisted_total route nilRefused agree req

theorem Server.handle_eq {s : Server} {S : AddrSet} (related : s.Refines S) (x : Incoming) :
    s.handle x = if x.admitted S then s.runHandler x.ip x.route else .ok (s, x.refusal) := by
  rw [Server.handle, gate_reply related]
  unfold Incoming.admitted remoteIP? Incoming.refusal
  cases splitHostPort x.req.remoteAddr with
  | error e => rfl
  | ok parts =>
    obtain ⟨host, port⟩ := parts
    dsimp only
    cases (parseIP host).any (x.route.allows S) <;> rfl

theorem Server.handle_refines {s : Server} {S : AddrSet} (related : s.Refines S) (x : Incoming) :
    ∃ s' resp, s.handle x = .ok (s', resp) ∧ s'.Refines (specStep S x) := by
  rw [handle_eq related]
  unfold specStep
  cases x.admitted S
  · exact ⟨s, _, rfl, related⟩
  · unfold runHandler
    cases x.route.request x.ip with
    | none => exact ⟨s, .files, rfl, related⟩
    | some r =>
      obtain ⟨wl, text, served, stands⟩ := serve_refines related.wl r
      refine ⟨{ s with wl := wl }, .written text, by simp [served, Except.map], ⟨?_, related.admin⟩⟩
      cases call : r.call? <;> simpa [call] using stands

theorem Server.run_refines : ∀ {s : Server} {S : AddrSet} (xs : List Incoming), s.Refines S →
    ∃ s' resps, s.run xs = .ok (s', resps) ∧ resps.length = xs.length ∧ s'.Refines (specRun S xs)
  | s, S, [], related => ⟨s, [], rfl, rfl, related⟩
  | s, S, x :: xs, related => by
    obtain ⟨next, resp, handled, stepped⟩ := handle_refines related x
    obtain ⟨s', resps, rest, counted, final⟩ := run_refines xs stepped
    refine ⟨s', resp :: resps, ?_, by simp [counted], final⟩
    simp only [Server.run, handled, rest, bind, Except.bind, pure, Except.pure]

/-- Every run answers each request, and `wl` stays the set the abstract server builds. -/
theorem run_mainServer (xs : List Incoming) :
    ∃ s resps, (mainServer >>= fun s => s.run xs) = .ok (s, resps) ∧ resps.length = xs.length ∧
      s.Refines (specRun startSet xs) := by
  obtain ⟨start, built, related⟩ := mainServer_refines
  rw [built]
  exact Server.run_refines xs related

/-- At every point of every run each gate answers by the policy over the set built so far. -/
theorem handle_mainServer (xs : List Incoming) (x : Incoming) :
    ∃ s resps, (mainServer >>= fun s => s.run xs) = .ok (s, resps) ∧
      s.handle x = if x.admitted (specRun startSet xs) then s.runHandler x.ip x.route else .ok (s, x.refusal) := by
  obtain ⟨start, built, related⟩ := mainServer_refines
  obtain ⟨s, resps, ran, -, final⟩ := Server.run_refines xs related
  exact ⟨s, resps, by rw [built]; exact ran, Server.handle_eq final x⟩

/-- Requests from anywhere but the loopback address do not change what the file server permits. -/
theorem run_mainServer_loopbackOnly (xs : List Incoming) :
    ∃ s s' resps resps', (mainServer >>= fun s => s.run xs) = .ok (s, resps) ∧
      (mainServer >>= fun s => s.run (xs.filter fun x => (remoteIP? x.req).any isLoopback)) = .ok (s', resps') ∧
      ∀ ip, s.wl.permitted ip = s'.wl.permitted ip := by
  obtain ⟨start, built, related⟩ := mainServer_refines
  obtain ⟨s, resps, ran, -, final⟩ := Server.run_refines xs related
  obtain ⟨s', resps', ran', -, final'⟩ := Server.run_refines (xs.filter fun x => (remoteIP? x.req).any isLoopback) related
  refine ⟨s, s', resps, resps', by rw [built]; exact ran, by rw [built]; exact ran', fun ip => ?_⟩
  rw [Basic.permitted_of_refines final.wl, Basic.permitted_of_refines final'.wl, specRun_loopback]

/-- Right after a loopback `/add`, resp. `/del`, the file server serves, resp. refuses, that address. -/
theorem admin_grants_revokes (xs : List Incoming) {admin : Http.Request}
    (fromLoopback : (remoteIP? admin).any isLoopback = true) {text : Bytes} {ip : IP} (parsed : parseIP text = some ip)
    {client : Http.Request} (reaches : remoteIP? client = some ip) (form : Bytes) :
    (∃ s resps, (mainServer >>= fun s => s.run (xs ++ [⟨.add, admin, text⟩])) = .ok (s, resps) ∧
      s.handle ⟨.files, client, form⟩ = .ok (s, .files)) ∧
    (∃ s resps, (mainServer >>= fun s => s.run (xs ++ [⟨.del, admin, text⟩])) = .ok (s, resps) ∧
      s.handle ⟨.files, client, form⟩ = .ok (s, .httpError statusUnauthorized (statusText statusUnauthorized))) := by
  obtain ⟨start, built, related⟩ := mainServer_refines
  have reached : ∀ e : Endpoint, ∃ s resps, (mainServer >>= fun s => s.run (xs ++ [⟨e, admin, text⟩])) = .ok (s, resps) ∧
      s.handle ⟨.files, client, form⟩ = if (specStep (specRun startSet xs) ⟨e, admin, text⟩).permitted ip then .ok (s, .files)
        else .ok (s, .httpError statusUnauthorized (statusText statusUnauthorized)) := by
    intro e
    obtain ⟨s, resps, ran, -, final⟩ := Server.run_refines (xs ++ [⟨e, admin, text⟩]) related
    refine ⟨s, resps, by rw [built]; exact ran, ?_⟩
    rw [Server.handle_eq final, specRun_concat, Incoming.admitted, reaches, Option.any_some,
      refusal_of_remoteIP (x := ⟨.files, client, form⟩) reaches]
    rfl
  obtain ⟨added, removed⟩ := specStep_admin (S := specRun startSet xs) fromLoopback parsed
  constructor
  · obtain ⟨s, resps, ran, handled⟩ := reached .add
    rw [added, AddrSet.permitted_add_self _ (validIP_iff.mpr (.inr (parseIP_length parsed))), if_pos rfl] at handled
    exact ⟨s, resps, ran, handled⟩
  · obtain ⟨s, resps, ran, handled⟩ := reached .del
    rw [removed, AddrSet.permitted_remove_self, if_neg (by decide)] at handled
    exact ⟨s, resps, ran, handled⟩

theorem admin_grants_revokes_tenDotTwo :
    (remoteIP? ⟨ascii "127.0.0.1:5000"⟩).any isLoopback = true ∧ parseIP (ascii "10.0.0.2") = some (IPv4 10 0 0 2) ∧
      remoteIP? ⟨ascii "10.0.0.2:6000"⟩ = some (IPv4 10 0 0 2) ∧
      (∃ s resps, (mainServer >>= fun s => s.run [⟨.add, ⟨ascii "127.0.0.1:5000"⟩, ascii "10.0.0.2"⟩]) = .ok (s, resps) ∧
        s.handle ⟨.files, ⟨ascii "10.0.0.2:6000"⟩, []⟩ = .ok (s, .files)) ∧
      (∃ s resps, (mainServer >>= fun s => s.run [⟨.del, ⟨ascii "127.0.0.1:5000"⟩, ascii "10.0.0.2"⟩]) = .ok (s, resps) ∧
        s.handle ⟨.files, ⟨ascii "10.0.0.2:6000"⟩, []⟩ = .ok (s, .httpError statusUnauthorized (statusText statusUnauthorized))) :=
  have fromLoopback : (remoteIP? ⟨ascii "127.0.0.1:5000"⟩).any isLoopback = true := by decide
  have parsed : parseIP (ascii "10.0.0.2") = some (IPv4 10 0 0 2) := by decide
  have reaches : remoteIP? ⟨ascii "10.0.0.2:6000"⟩ = some (IPv4 10 0 0 2) := by decide
  ⟨fromLoopback, parsed, reaches, admin_grants_revokes [] fromLoopback parsed reaches []⟩

end Example

end Allowlist
