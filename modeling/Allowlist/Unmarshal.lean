import Allowlist.Host.Basic
import Allowlist.Network.BasicNet

namespace Allowlist

open Go Go.Net

/-- Input shorter than two bytes makes both `UnmarshalJSON` methods index outside it. -/
theorem unmarshalJSON_short (wl : Basic) (wn : BasicNet) :
    wl.unmarshalJSON [] = .error (.indexOutOfRange 0 0) ∧ wn.unmarshalJSON [] = .error (.indexOutOfRange 0 0) ∧
      wl.unmarshalJSON [34] = .error (.sliceBoundsOutOfRange 1 0) ∧
      wn.unmarshalJSON [34] = .error (.sliceBoundsOutOfRange 1 0) :=
  ⟨rfl, rfl, rfl, rfl⟩

theorem Basic.unmarshalJSON_returns (wl : Basic) {inp : Bytes} (nonempty : inp ≠ []) (notLoneQuote : inp ≠ [34]) :
    ∃ result, wl.unmarshalJSON inp = .ok result := by
  obtain ⟨nets, quoted⟩ := unquote_returns nonempty notLoneQuote
  unfold Basic.unmarshalJSON
  rw [quoted]
  simp only [bind, Except.bind]
  split
  · exact ⟨_, rfl⟩
  · split <;> exact ⟨_, rfl⟩

theorem BasicNet.unmarshalJSON_returns (wl : BasicNet) {inp : Bytes} (nonempty : inp ≠ []) (notLoneQuote : inp ≠ [34]) :
    ∃ result, wl.unmarshalJSON inp = .ok result := by
  obtain ⟨nets, quoted⟩ := unquote_returns nonempty notLoneQuote
  unfold BasicNet.unmarshalJSON
  rw [quoted]
  simp only [bind, Except.bind]
  split
  · exact ⟨_, rfl⟩
  · split <;> exact ⟨_, rfl⟩

namespace Basic

@[simp] theorem permitted_nil (ip : IP) : (⟨none⟩ : Basic).permitted ip = false := by
  simp [permitted, mapGet]

@[simp] theorem remove_nil (ip : IP) : (⟨none⟩ : Basic).remove ip = ⟨none⟩ := by
  simp [remove, mapDelete]

theorem add_nil {ip : IP} (valid : validIP ip = true) :
    (⟨none⟩ : Basic).add ip = .error .assignmentToEntryInNilMap := by
  simp [add, valid, mapSet, Functor.map, Except.map]

theorem unmarshalJSON_of_quoted (wl wl₀ : Basic) {inp : Bytes} (quoted : unquote inp ≠ .ok none) :
    wl.unmarshalJSON inp = wl₀.unmarshalJSON inp := by
  unfold unmarshalJSON
  cases read : unquote inp with
  | error p => rfl
  | ok nets => cases nets with
    | none => exact absurd read quoted
    | some nets => rfl

theorem unmarshalJSON_failed {wl wl' : Basic} {inp e : Bytes} (failed : wl.unmarshalJSON inp = .ok (wl', some e)) :
    (unquote inp = .ok none ∧ wl' = wl) ∨ (unquote inp ≠ .ok none ∧ wl' = ⟨none⟩) := by
  unfold unmarshalJSON at failed
  cases read : unquote inp with
  | error p => simp [read, bind, Except.bind] at failed
  | ok nets =>
    simp only [read, bind, Except.bind] at failed
    cases nets with
    | none => cases failed; exact .inl ⟨rfl, rfl⟩
    | some nets =>
      refine .inr ⟨by simp, ?_⟩
      dsimp only at failed
      split at failed <;> cases failed
      rfl

end Basic

namespace BasicNet

@[simp] theorem permitted_new (x : IP) : newBasicNet.permitted x = .ok false := by
  simp [permitted, newBasicNet, permittedFrom]

theorem permitted_add_new (n : IPNet) (x : IP) :
    (newBasicNet.add (some n)).permitted x = .ok (validIP x && n.contains x) := by
  cases valid : validIP x <;> cases inside : n.contains x <;>
    simp [permitted, add, newBasicNet, permittedFrom, valid, inside]

theorem unmarshalJSON_failed {wl wl' : BasicNet} {inp e : Bytes} (failed : wl.unmarshalJSON inp = .ok (wl', some e)) :
    (unquote inp = .ok none ∧ wl' = wl) ∨ (unquote inp ≠ .ok none ∧ wl' = newBasicNet) := by
  unfold unmarshalJSON at failed
  cases read : unquote inp with
  | error p => simp [read, bind, Except.bind] at failed
  | ok nets =>
    simp only [read, bind, Except.bind] at failed
    cases nets with
    | none => cases failed; exact .inl ⟨rfl, rfl⟩
    | some nets =>
      refine .inr ⟨by simp, ?_⟩
      dsimp only at failed
      split at failed <;> cases failed
      rfl

end BasicNet

/-- A failed load leaves `Basic` a nil map, and the next `Add` of a valid address panics. -/
theorem add_after_failed_unmarshalJSON :
    newBasic.unmarshalJSON (ascii "\"x\"") = .ok (⟨none⟩, some (Basic.errInvalidIPAddress (ascii "x"))) ∧
      Basic.add ⟨none⟩ [127, 0, 0, 1] = .error .assignmentToEntryInNilMap := by
  decide

/-- After a failed `UnmarshalJSON` a list is unchanged, empty, or a nil map that panics on `Add`. -/
theorem unmarshalJSON_failure {wl wl' : Basic} {wn wn' : BasicNet} {inp inp' e e' : Bytes}
    (failed : wl.unmarshalJSON inp = .ok (wl', some e)) (failedNet : wn.unmarshalJSON inp' = .ok (wn', some e')) :
    ((unquote inp = .ok none ∧ wl' = wl) ∨
      (unquote inp ≠ .ok none ∧ wl' = ⟨none⟩ ∧ (∀ x, wl'.permitted x = false) ∧
        mapKeys wl'.allowlist = mapKeys newBasic.allowlist ∧ (∀ x, wl'.remove x = wl') ∧
        (∀ later, unquote later ≠ .ok none → wl'.unmarshalJSON later = newBasic.unmarshalJSON later) ∧
        ∀ a, validIP a = true → wl'.add a = .error .assignmentToEntryInNilMap)) ∧
    ((unquote inp' = .ok none ∧ wn' = wn) ∨
      (unquote inp' ≠ .ok none ∧ wn' = newBasicNet ∧ (∀ x, wn'.permitted x = .ok false) ∧
        ∀ n x, (wn'.add (some n)).permitted x = .ok (validIP x && n.contains x))) := by
  constructor
  · rcases Basic.unmarshalJSON_failed failed with unchanged | ⟨quoted, rfl⟩
    · exact .inl unchanged
    · exact .inr ⟨quoted, rfl, Basic.permitted_nil, rfl, Basic.remove_nil,
        fun later passed => Basic.unmarshalJSON_of_quoted _ _ passed, fun _ valid => Basic.add_nil valid⟩
  · rcases BasicNet.unmarshalJSON_failed failedNet with unchanged | ⟨quoted, rfl⟩
    · exact .inl unchanged
    · exact .inr ⟨quoted, rfl, BasicNet.permitted_new, BasicNet.permitted_add_new⟩

theorem unmarshalJSON_failure_badToken :
    newBasic.unmarshalJSON (ascii "\"x\"") = .ok (⟨none⟩, some (Basic.errInvalidIPAddress (ascii "x"))) ∧
      newBasicNet.unmarshalJSON (ascii "\"x\"") = .ok (newBasicNet, some (cidrError (ascii "x"))) ∧
      ((unquote (ascii "\"x\"") = .ok none ∧ (⟨none⟩ : Basic) = newBasic) ∨
        (unquote (ascii "\"x\"") ≠ .ok none ∧ (⟨none⟩ : Basic) = ⟨none⟩ ∧
          (∀ x, (⟨none⟩ : Basic).permitted x = false) ∧ mapKeys none = mapKeys newBasic.allowlist ∧
          (∀ x, (⟨none⟩ : Basic).remove x = ⟨none⟩) ∧
          (∀ later, unquote later ≠ .ok none →
            (⟨none⟩ : Basic).unmarshalJSON later = newBasic.unmarshalJSON later) ∧
          ∀ a, validIP a = true → (⟨none⟩ : Basic).add a = .error .assignmentToEntryInNilMap)) ∧
      ((unquote (ascii "\"x\"") = .ok none ∧ newBasicNet = newBasicNet) ∨
        (unquote (ascii "\"x\"") ≠ .ok none ∧ newBasicNet = newBasicNet ∧
          (∀ x, newBasicNet.permitted x = .ok false) ∧
          ∀ n x, (newBasicNet.add (some n)).permitted x = .ok (validIP x && n.contains x))) :=
  have failed : newBasic.unmarshalJSON (ascii "\"x\"") =
      .ok (⟨none⟩, some (Basic.errInvalidIPAddress (ascii "x"))) := by decide
  have failedNet : newBasicNet.unmarshalJSON (ascii "\"x\"") =
      .ok (newBasicNet, some (cidrError (ascii "x"))) := by decide
  ⟨failed, failedNet, unmarshalJSON_failure failed failedNet⟩

end Allowlist
