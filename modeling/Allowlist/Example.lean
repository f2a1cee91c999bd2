import Allowlist.Host.Refinement
import Allowlist.Handler

namespace Allowlist

open Go Go.Net

namespace Example

inductive Request
  | add (addr : Bytes)
  | del (addr : Bytes)
  | dump

/-- `addIP`: the reply names the text as given, whether `ParseIP` reads it or not. -/
def addIP (wl : Basic) (addr : Bytes) : Except Panic (Basic × Bytes) := do
  let ip := (parseIP addr).getD []
  let wl' ← wl.add ip
  pure (wl', ascii "Added " ++ addr ++ ascii " to allowlist.\n")

/-- `delIP`: the reply names `ip.String()`, `<nil>` when `ParseIP` rejects the text. -/
def delIP (wl : Basic) (addr : Bytes) : Basic × Bytes :=
  let ip := (parseIP addr).getD []
  (wl.remove ip, ascii "Removed " ++ ip.string ++ ascii " from allowlist.\n")

/-- `dumpAllowlist`: `json.Marshal(wl)` calls `MarshalJSON`, whose error is always nil. -/
def dumpAllowlist (ss : List Bytes) : Bytes := Basic.marshalJSON ss

/-- The three admin handlers; the model visits the keys in the order it stores them. -/
def serve (wl : Basic) : Request → Except Panic (Basic × Bytes)
  | .add addr => addIP wl addr
  | .del addr => .ok (delIP wl addr)
  | .dump => .ok (wl, dumpAllowlist (mapKeys wl.allowlist))

def Request.call? : Request → Option Call
  | .add addr => some (.add ((parseIP addr).getD []))
  | .del addr => some (.remove ((parseIP addr).getD []))
  | .dump => none

/-- `wl` as `main` leaves it: `NewBasic`, then `Add(net.IP{127, 0, 0, 1})`. -/
def mainWL : Except Panic Basic := newBasic.add [127, 0, 0, 1]

/-- `adminWL`: the loopback address as four bytes, then as `ParseIP("::1")` reads it. -/
def adminWL : Except Panic Basic := do
  let wl ← newBasic.add [127, 0, 0, 1]
  wl.add ((parseIP (ascii "::1")).getD [])

theorem serve_refines {wl : Basic} {S : AddrSet} (refines : Refines wl S) (r : Request) :
    ∃ wl' reply, serve wl r = .ok (wl', reply) ∧ Refines wl' (match r.call? with | some c => S.step c | none => S) := by
  cases r with
  | add addr =>
    obtain ⟨wl', added, related⟩ := Basic.refines_edit (show Call.IsEdit (.add ((parseIP addr).getD [])) from trivial)
      refines
    exact ⟨wl', _, by simp only [serve, addIP, show wl.add _ = .ok wl' from added]; rfl, related⟩
  | del addr =>
    obtain ⟨wl', removed, related⟩ :=
      Basic.refines_edit (show Call.IsEdit (.remove ((parseIP addr).getD [])) from trivial) refines
    cases removed
    exact ⟨_, _, rfl, related⟩
  | dump => exact ⟨wl, _, rfl, refines⟩

theorem validIP_of_to16_isSome {x : IP} (some16 : x.to16.isSome) : validIP x = true :=
  (validIP_eq_isSome_to16 x).trans some16

theorem adminWL_permitted :
    ∃ wl, adminWL = .ok wl ∧
      ∀ x, wl.permitted x = true ↔
        x.to16 = some (v4InV6Prefix ++ [127, 0, 0, 1]) ∨ x.to16 = some (List.replicate 15 0 ++ [1]) := by
  let calls : List Call := [.add [127, 0, 0, 1], .add ((parseIP (ascii "::1")).getD [])]
  have edits : ∀ c ∈ calls, c.IsEdit := by
    intro c member
    simp only [calls, List.mem_cons, List.mem_singleton, List.not_mem_nil, or_false] at member
    rcases member with rfl | rfl <;> trivial
  obtain ⟨wl, ran, related⟩ := Basic.refines_run calls edits Basic.refines_new
  have built : adminWL = newBasic.run calls := by decide
  have members : (AddrSet.empty.run calls).members = [List.replicate 15 0 ++ [1], [127, 0, 0, 1]] := by decide
  refine ⟨wl, built.trans ran, fun x => ?_⟩
  rw [Basic.permitted_of_refines related, AddrSet.permitted, members]
  cases valid : validIP x
  · constructor
    · intro permitted
      cases permitted
    · rintro (same | same) <;> rw [validIP_of_to16_isSome (by rw [same]; rfl)] at valid <;> cases valid
  · have equal := fun (y : IP) (validY : y.length = 4 ∨ y.length = 16) => equal_iff_to16 (validIP_iff.mp valid) validY
    simp only [Bool.true_and, List.any_cons, List.any_nil, Bool.or_false, Bool.or_eq_true,
      equal (List.replicate 15 0 ++ [1]) (.inr (by simp)), equal [127, 0, 0, 1] (.inl rfl)]
    have loop6 : IP.to16 (List.replicate 15 0 ++ [1]) = some (List.replicate 15 0 ++ [1]) := rfl
    have loop4 : IP.to16 [127, 0, 0, 1] = some (v4InV6Prefix ++ [127, 0, 0, 1]) := rfl
    rw [loop6, loop4, or_comm]

inductive Endpoint
  | files
  | add
  | del
  | dump
  deriving DecidableEq, Repr

/-- `addHandler`, `delHandler` and `dumpHandler`: `NewHandlerFunc(h, nil, adminWL)`. -/
def adminHandler (wl : Basic) (e : Endpoint) : Except Bytes (HandlerFunc Endpoint) :=
  newHandlerFunc (some e) none (some wl.acl)

/-- The admin handlers run exactly for requests whose host `ParseIP` reads as `127.0.0.1` or `::1`. -/
theorem adminHandler_serves : ∃ wl, adminWL = .ok wl ∧ ∀ (e : Endpoint) (req : Option Http.Request),
    ∃ h, adminHandler wl e = .ok h ∧
      ((h.serveHTTP req).reply = .ok (.serve e) ↔ ∃ r host port, req = some r ∧
        splitHostPort r.remoteAddr = .ok (host, port) ∧
        (parseIP host = some (v4InV6Prefix ++ [127, 0, 0, 1]) ∨ parseIP host = some (List.replicate 15 0 ++ [1]))) := by
  obtain ⟨wl, built, permits⟩ := adminWL_permitted
  refine ⟨wl, built, fun e req => ⟨_, rfl, ?_⟩⟩
  have loopback : ∀ {host : Bytes} {ip : IP}, parseIP host = some ip →
      (wl.permitted ip = true ↔ ip = v4InV6Prefix ++ [127, 0, 0, 1] ∨ ip = List.replicate 15 0 ++ [1]) :=
    fun parsed => by rw [permits, to16_sixteen (parseIP_length parsed), Option.some.injEq, Option.some.injEq]
  rw [HandlerFunc.serveHTTP, serveAllowlisted_basic_serve]
  constructor
  · rintro ⟨r, host, port, ip, rfl, split, parsed, permitted⟩
    rcases (loopback parsed).mp permitted with rfl | rfl
    · exact ⟨r, host, port, rfl, split, .inl parsed⟩
    · exact ⟨r, host, port, rfl, split, .inr parsed⟩
  · rintro ⟨r, host, port, rfl, split, parsed | parsed⟩
    · exact ⟨r, host, port, _, rfl, split, parsed, (loopback parsed).mpr (.inl rfl)⟩
    · exact ⟨r, host, port, _, rfl, split, parsed, (loopback parsed).mpr (.inr rfl)⟩

end Example

end Allowlist
