import Allowlist.Common

namespace Allowlist

open Go Go.Net

/-- `BasicNet`: the slice of networks, `none` for a nil pointer; each locked method is one step. -/
structure BasicNet where
  allowlist : List (Option IPNet)
  deriving DecidableEq

namespace BasicNet

/-- The loop of `Permitted`: the first network that contains the address decides. -/
def permittedFrom (ip : IP) : List (Option IPNet) → Except Panic Bool
  | [] => .ok false
  | none :: _ => .error .nilPointerDereference
  | some n :: rest => if n.contains ip then .ok true else permittedFrom ip rest

/-- `Permitted`. -/
def permitted (wl : BasicNet) (ip : IP) : Except Panic Bool :=
  if !validIP ip then .ok false else permittedFrom ip wl.allowlist

/-- `Add`: a nil network is ignored. -/
def add (wl : BasicNet) (n : Option IPNet) : BasicNet :=
  match n with
  | none => wl
  | some _ => ⟨wl.allowlist ++ [n]⟩

/-- `Remove`: the first entry whose `String()` is that of `n` is cut out. -/
def remove (wl : BasicNet) (n : Option IPNet) : BasicNet :=
  match n with
  | none => wl
  | some _ =>
    match wl.allowlist.findIdx? fun e => IPNet.string e == IPNet.string n with
    | none => wl
    | some index => ⟨wl.allowlist.eraseIdx index⟩

/-- `MarshalJSON`. -/
def marshalJSON (wl : BasicNet) : Bytes := quoteJoin (wl.allowlist.map IPNet.string)

/-- The loop of `UnmarshalJSON`: an empty piece leaves a nil slot. -/
def unmarshalTokens : List Bytes → Except Bytes (List (Option IPNet))
  | [] => .ok []
  | t :: ts =>
    let addr := trimSpace t
    if addr = [] then (none :: ·) <$> unmarshalTokens ts
    else match parseCIDR addr with
      | .error e => .error e
      | .ok (_, n) => (some n :: ·) <$> unmarshalTokens ts

/-- `UnmarshalJSON`: the list afterwards and the error returned, `none` for `nil`. -/
def unmarshalJSON (wl : BasicNet) (inp : Bytes) : Except Panic (BasicNet × Option Bytes) := do
  match ← unquote inp with
  | none => pure (wl, some errInvalidAllowlist)
  | some nets =>
    match unmarshalTokens nets with
    | .ok entries => pure (⟨entries⟩, none)
    | .error e => pure (⟨[]⟩, some e)

theorem unmarshalJSON_cases {wl wl' : BasicNet} {inp : Bytes} {err : Option Bytes}
    (returned : wl.unmarshalJSON inp = .ok (wl', err)) :
    (wl' = wl ∧ err = some errInvalidAllowlist) ∨
      (∃ nets entries, unquote inp = .ok (some nets) ∧ unmarshalTokens nets = .ok entries ∧ wl' = ⟨entries⟩ ∧
        err = none) ∨
      (∃ e, wl' = ⟨[]⟩ ∧ err = some e) := by
  unfold unmarshalJSON at returned
  cases quoted : unquote inp with
  | error p => simp [quoted, bind, Except.bind] at returned
  | ok nets =>
    simp only [quoted, bind, Except.bind] at returned
    cases nets with
    | none =>
      cases returned
      exact .inl ⟨rfl, rfl⟩
    | some nets =>
      dsimp only at returned
      cases read : unmarshalTokens nets <;> rw [read] at returned <;> cases returned
      · exact .inr (.inr ⟨_, rfl, rfl⟩)
      · exact .inr (.inl ⟨nets, _, rfl, read, rfl, rfl⟩)

theorem permitted_eq_of_to16 (wl : BasicNet) {x y : IP} (same : x.to16 = y.to16) : wl.permitted x = wl.permitted y := by
  have valid : validIP x = validIP y := by rw [validIP_eq_isSome_to16, validIP_eq_isSome_to16, same]
  cases toY : y.to16 with
  | none => simp [permitted, valid, validIP_eq_isSome_to16 y, toY]
  | some t =>
    have loop : ∀ l, permittedFrom x l = permittedFrom y l := by
      intro l
      induction l with
      | nil => rfl
      | cons e rest ih =>
        cases e with
        | none => rfl
        | some n => simp only [permittedFrom, contains_of_to16 n (same.trans toY) toY, ih]
    simp only [permitted, valid, loop]

end BasicNet

/-- `NewBasicNet`. -/
def newBasicNet : BasicNet := ⟨[]⟩

example : (newBasicNet.add (some ⟨[10, 0, 0, 0], [255, 0, 0, 0]⟩)).permitted [10, 1, 2, 3] = .ok true := by decide

inductive NetCall
  | add (n : Option IPNet)
  | remove (n : Option IPNet)
  | unmarshalJSON (inp : Bytes)

def NetCall.IsEdit : NetCall → Prop
  | .add _ | .remove _ => True
  | .unmarshalJSON _ => False

def BasicNet.step (wl : BasicNet) : NetCall → Except Panic BasicNet
  | .add n => .ok (wl.add n)
  | .remove n => .ok (wl.remove n)
  | .unmarshalJSON inp => Prod.fst <$> wl.unmarshalJSON inp

def BasicNet.run (wl : BasicNet) : List NetCall → Except Panic BasicNet
  | [] => .ok wl
  | c :: cs => do (← wl.step c).run cs

section Run

variable (P : BasicNet → Prop) (Q : NetCall → Prop)

theorem BasicNet.run_preserves (preserved : ∀ wl c wl', Q c → P wl → wl.step c = .ok wl' → P wl') :
    ∀ {wl wl' : BasicNet} (cs : List NetCall), (∀ c ∈ cs, Q c) → P wl → wl.run cs = .ok wl' → P wl'
  | _, _, [], _, holds, ran => by cases ran; exact holds
  | wl, _, c :: cs, allowed, holds, ran => by
    simp only [BasicNet.run] at ran
    cases stepped : wl.step c with
    | error e => rw [stepped] at ran; cases ran
    | ok next =>
      rw [stepped] at ran
      exact BasicNet.run_preserves preserved cs (fun c' member => allowed c' (List.mem_cons_of_mem c member))
        (preserved wl c next (allowed c (List.mem_cons_self c cs)) holds stepped) ran

end Run

end Allowlist
