import Allowlist.Common

namespace Allowlist

open Go Go.Net

/-- `Basic`: the map of permitted address texts, `none` when nil; each locked method is one step. -/
structure Basic where
  allowlist : Option BoolMap
  deriving DecidableEq

namespace Basic

/-- `Permitted`. -/
def permitted (wl : Basic) (ip : IP) : Bool :=
  if !validIP ip then false else mapGet wl.allowlist ip.string

/-- `Add`. -/
def add (wl : Basic) (ip : IP) : Except Panic Basic :=
  if !validIP ip then .ok wl else Basic.mk <$> mapSet wl.allowlist ip.string

/-- `Remove`. -/
def remove (wl : Basic) (ip : IP) : Basic :=
  if !validIP ip then wl else ⟨mapDelete wl.allowlist ip.string⟩

/-- `MarshalJSON`, given the keys in the order `range` visits them, which Go leaves open. -/
def marshalJSON (ss : List Bytes) : Bytes := quoteJoin ss

def errInvalidIPAddress (addr : Bytes) : Bytes := ascii "allowlist: invalid IP address " ++ addr

/-- The loop of `UnmarshalJSON`; `.error addr` is the first address `ParseIP` rejects. -/
def unmarshalTokens (m : BoolMap) : List Bytes → Except Bytes BoolMap
  | [] => .ok m
  | t :: ts =>
    let addr := trimSpace t
    if addr = [] then unmarshalTokens m ts
    else match parseIP addr with
      | none => .error addr
      | some _ => unmarshalTokens (m.set addr) ts

/-- `UnmarshalJSON`: the list afterwards and the error returned, `none` for `nil`. -/
def unmarshalJSON (wl : Basic) (inp : Bytes) : Except Panic (Basic × Option Bytes) := do
  match ← unquote inp with
  | none => pure (wl, some errInvalidAllowlist)
  | some nets =>
    match unmarshalTokens BoolMap.empty nets with
    | .ok m => pure (⟨some m⟩, none)
    | .error addr => pure (⟨none⟩, some (errInvalidIPAddress addr))

end Basic

/-- `NewBasic`. -/
def newBasic : Basic := ⟨some BoolMap.empty⟩

/-- `DumpBasic`, given the keys in the order `range` visits them. -/
def dumpBasic (ss : List Bytes) : Bytes := join (sortStrings ss) 10

def errInvalidAddress : Bytes := ascii "allowlist: invalid address"

/-- The loop of `LoadBasic` over the lines: the list, or the error it returns. -/
def loadLines (wl : Basic) : List Bytes → Except Panic (Except Bytes Basic)
  | [] => pure (.ok wl)
  | addr :: addrs =>
    match parseIP addr with
    | none => pure (.error errInvalidAddress)
    | some ip => do loadLines (← wl.add ip) addrs

/-- `LoadBasic`. -/
def loadBasic (inp : Bytes) : Except Panic (Except Bytes Basic) := loadLines newBasic (split inp 10)

example : ((newBasic.add [127, 0, 0, 1]).map (·.permitted (IPv4 127 0 0 1))) = .ok true := by decide

namespace Basic

theorem add_of_invalid {wl : Basic} {ip : IP} (invalid : validIP ip = false) : wl.add ip = .ok wl := by
  simp [add, invalid]

theorem add_of_valid {wl : Basic} {m : BoolMap} {ip : IP} (valid : validIP ip = true) (nonNil : wl.allowlist = some m) :
    wl.add ip = .ok ⟨some (m.set ip.string)⟩ := by
  simp [add, valid, nonNil, mapSet, Functor.map, Except.map]

theorem mem_keys_add {wl wl' : Basic} {ip : IP} (added : wl.add ip = .ok wl') (k : Bytes) :
    k ∈ mapKeys wl'.allowlist ↔ k ∈ mapKeys wl.allowlist ∨ (validIP ip = true ∧ k = ip.string) := by
  cases valid : validIP ip
  · rw [add_of_invalid valid] at added
    cases added
    simp
  · cases nonNil : wl.allowlist with
    | none => simp [add, valid, nonNil, mapSet, Functor.map, Except.map] at added
    | some m =>
      rw [add_of_valid valid nonNil] at added
      cases added
      simp [mapKeys, or_comm]

theorem mem_keys_remove {wl : Basic} {ip : IP} (k : Bytes) :
    k ∈ mapKeys (wl.remove ip).allowlist ↔ k ∈ mapKeys wl.allowlist ∧ ¬ (validIP ip = true ∧ k = ip.string) := by
  unfold remove
  cases valid : validIP ip <;> simp [and_comm]

theorem mem_keys_unmarshalTokens : ∀ {m m' : BoolMap} {ts : List Bytes}, unmarshalTokens m ts = .ok m' →
    ∀ k ∈ m'.keys, k ∈ m.keys ∨ (k ∈ ts.map trimSpace ∧ (parseIP k).isSome)
  | m, m', [], done, k, member => by cases done; exact .inl member
  | m, m', t :: ts, done, k, member => by
    unfold unmarshalTokens at done
    dsimp only at done
    split at done
    · rcases mem_keys_unmarshalTokens done k member with old | ⟨piece, parsed⟩
      · exact .inl old
      · exact .inr ⟨List.mem_cons_of_mem _ piece, parsed⟩
    · split at done
      · cases done
      · rename_i ip parsed
        rcases mem_keys_unmarshalTokens done k member with old | ⟨piece, accepted⟩
        · rcases BoolMap.mem_keys_set.mp old with rfl | old
          · exact .inr ⟨List.mem_cons_self _ _, by rw [parsed]; rfl⟩
          · exact .inl old
        · exact .inr ⟨List.mem_cons_of_mem _ piece, accepted⟩

theorem unmarshalJSON_cases {wl wl' : Basic} {inp : Bytes} {err : Option Bytes}
    (returned : wl.unmarshalJSON inp = .ok (wl', err)) :
    (wl' = wl ∧ err = some errInvalidAllowlist) ∨
      (∃ nets m, unquote inp = .ok (some nets) ∧ unmarshalTokens BoolMap.empty nets = .ok m ∧
        wl' = ⟨some m⟩ ∧ err = none) ∨
      (∃ addr, wl' = ⟨none⟩ ∧ err = some (errInvalidIPAddress addr)) := by
  unfold unmarshalJSON at returned
  cases quoted : unquote inp with
  | error e => simp [quoted, bind, Except.bind] at returned
  | ok nets =>
    simp only [quoted, bind, Except.bind] at returned
    cases nets with
    | none =>
      cases returned
      exact .inl ⟨rfl, rfl⟩
    | some nets =>
      dsimp only at returned
      cases read : unmarshalTokens BoolMap.empty nets with
      | ok m =>
        rw [read] at returned
        cases returned
        exact .inr (.inl ⟨nets, m, rfl, read, rfl, rfl⟩)
      | error addr =>
        rw [read] at returned
        cases returned
        exact .inr (.inr ⟨addr, rfl, rfl⟩)

theorem permitted_eq_of_to16 (wl : Basic) {x y : IP} (same : x.to16 = y.to16) : wl.permitted x = wl.permitted y := by
  have valid : validIP x = validIP y := by rw [validIP_eq_isSome_to16, validIP_eq_isSome_to16, same]
  cases to16 : y.to16 with
  | none => simp [permitted, valid, validIP_eq_isSome_to16 y, to16]
  | some t =>
    have printed : x.string = y.string := (string_to16 (same.trans to16)).symm.trans (string_to16 to16)
    simp only [permitted, valid, printed]

end Basic

inductive Call
  | add (ip : IP)
  | remove (ip : IP)
  | unmarshalJSON (inp : Bytes)

def Basic.step (wl : Basic) : Call → Except Panic Basic
  | .add ip => wl.add ip
  | .remove ip => .ok (wl.remove ip)
  | .unmarshalJSON inp => Prod.fst <$> wl.unmarshalJSON inp

def Basic.run (wl : Basic) : List Call → Except Panic Basic
  | [] => .ok wl
  | c :: cs => do (← wl.step c).run cs

def Call.IsEdit : Call → Prop
  | .add _ | .remove _ => True
  | .unmarshalJSON _ => False

section Run

variable (P : Basic → Prop) (Q : Call → Prop)

theorem Basic.run_preserves (preserved : ∀ wl c wl', Q c → P wl → wl.step c = .ok wl' → P wl') :
    ∀ {wl wl' : Basic} (cs : List Call), (∀ c ∈ cs, Q c) → P wl → wl.run cs = .ok wl' → P wl'
  | _, _, [], _, holds, ran => by cases ran; exact holds
  | wl, _, c :: cs, allowed, holds, ran => by
    simp only [Basic.run] at ran
    cases stepped : wl.step c with
    | error e => rw [stepped] at ran; cases ran
    | ok next =>
      rw [stepped] at ran
      exact Basic.run_preserves preserved cs (fun c' member => allowed c' (List.mem_cons_of_mem c member))
        (preserved wl c next (allowed c (List.mem_cons_self c cs)) holds stepped) ran

end Run

end Allowlist
