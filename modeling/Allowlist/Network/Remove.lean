import Allowlist.Network.Invariant

namespace Allowlist

open Go Go.Net

namespace BasicNet

theorem findIdx?_split {α : Type} {p : α → Bool} : ∀ {l : List α} {k i : Nat}, l.findIdx? p k = some i →
    ∃ l₁ e l₂, l = l₁ ++ e :: l₂ ∧ p e = true ∧ i = k + l₁.length
  | [], _, _, found => by cases found
  | x :: xs, k, i, found => by
    rw [List.findIdx?_cons] at found
    split at found
    · cases found
      exact ⟨[], x, xs, rfl, ‹_›, rfl⟩
    · obtain ⟨l₁, e, l₂, rfl, holds, rfl⟩ := findIdx?_split found
      exact ⟨x :: l₁, e, l₂, rfl, holds, by simp; omega⟩

theorem remove_cases (wl : BasicNet) (n : IPNet) :
    ((∀ e ∈ wl.allowlist, IPNet.string e ≠ IPNet.string (some n)) ∧ (wl.remove (some n)).allowlist = wl.allowlist) ∨
      ∃ l₁ e l₂, wl.allowlist = l₁ ++ e :: l₂ ∧ IPNet.string e = IPNet.string (some n) ∧
        (wl.remove (some n)).allowlist = l₁ ++ l₂ := by
  simp only [remove]
  split
  · rename_i missing
    exact .inl ⟨fun e member same => by simpa [same] using List.findIdx?_eq_none_iff.mp missing e member, rfl⟩
  · rename_i index found
    obtain ⟨l₁, e, l₂, split, same, rfl⟩ := findIdx?_split found
    refine .inr ⟨l₁, e, l₂, split, beq_iff_eq.mp same, ?_⟩
    rw [split, Nat.zero_add, List.eraseIdx_append_of_length_le (le_refl _), Nat.sub_self, List.eraseIdx_cons_zero]

theorem contained_of_string {e : Option IPNet} {n : IPNet} (stored : e.isSome)
    (same : IPNet.string e = IPNet.string (some n)) (x : IP) : contained x e = n.contains x := by
  obtain ⟨n', rfl⟩ := Option.isSome_iff_exists.mp stored
  exact contains_of_string same x

/-- Removing a network never revokes an address outside it. -/
theorem permitted_remove_outside {calls : List NetCall} (edits : ∀ c ∈ calls, c.IsEdit) {wl : BasicNet}
    (ran : newBasicNet.run calls = .ok wl) (n : IPNet) {x : IP} (outside : n.contains x = false) :
    (wl.remove (some n)).permitted x = wl.permitted x := by
  have noNil := noNil_run calls (fun c member => (edits c member).noBlank) noNil_new ran
  rw [permitted_of_noNil noNil, permitted_of_noNil fun e member => noNil e (mem_remove member)]
  rcases remove_cases wl n with ⟨-, same⟩ | ⟨l₁, e, l₂, split, text, removed⟩
  · rw [same]
  · have stored : e.isSome := noNil e (by rw [split]; simp)
    rw [removed, split]
    simp [contained_of_string stored text, outside]

theorem permitted_remove_outside_stored :
    newBasicNet.run [.add (some ⟨[10, 0, 0, 0], [255, 0, 0, 0]⟩), .add (some ⟨[11, 0, 0, 0], [255, 0, 0, 0]⟩)] =
        .ok ⟨[some ⟨[10, 0, 0, 0], [255, 0, 0, 0]⟩, some ⟨[11, 0, 0, 0], [255, 0, 0, 0]⟩]⟩ ∧
      IPNet.contains ⟨[11, 0, 0, 0], [255, 0, 0, 0]⟩ [10, 1, 2, 3] = false ∧
      (BasicNet.remove ⟨[some ⟨[10, 0, 0, 0], [255, 0, 0, 0]⟩, some ⟨[11, 0, 0, 0], [255, 0, 0, 0]⟩]⟩
          (some ⟨[11, 0, 0, 0], [255, 0, 0, 0]⟩)).permitted [10, 1, 2, 3] =
        BasicNet.permitted ⟨[some ⟨[10, 0, 0, 0], [255, 0, 0, 0]⟩, some ⟨[11, 0, 0, 0], [255, 0, 0, 0]⟩]⟩
          [10, 1, 2, 3] :=
  have ran : newBasicNet.run [.add (some ⟨[10, 0, 0, 0], [255, 0, 0, 0]⟩),
      .add (some ⟨[11, 0, 0, 0], [255, 0, 0, 0]⟩)] =
      .ok ⟨[some ⟨[10, 0, 0, 0], [255, 0, 0, 0]⟩, some ⟨[11, 0, 0, 0], [255, 0, 0, 0]⟩]⟩ := rfl
  have outside : IPNet.contains ⟨[11, 0, 0, 0], [255, 0, 0, 0]⟩ [10, 1, 2, 3] = false := by decide
  ⟨ran, outside, permitted_remove_outside (by simp [NetCall.IsEdit]) ran _ outside⟩

example : BasicNet.remove ⟨[some ⟨[10, 0, 0, 0], [255, 0, 0, 0]⟩, some ⟨[11, 0, 0, 0], [255, 0, 0, 0]⟩]⟩
    (some ⟨[11, 0, 0, 0], [255, 0, 0, 0]⟩) = ⟨[some ⟨[10, 0, 0, 0], [255, 0, 0, 0]⟩]⟩ := by decide

/-- `Add(n)` then `Remove(n)` changes no answer, even when `Remove` cuts an earlier entry. -/
theorem permitted_add_remove {calls : List NetCall} (edits : ∀ c ∈ calls, c.IsEdit) {wl : BasicNet}
    (ran : newBasicNet.run calls = .ok wl) (n : IPNet) (x : IP) :
    ((wl.add (some n)).remove (some n)).permitted x = wl.permitted x := by
  have noNil := noNil_run calls (fun c member => (edits c member).noBlank) noNil_new ran
  have noNilAdded := noNil_add noNil (some n)
  rw [permitted_of_noNil fun e member => noNilAdded e (mem_remove member), permitted_of_noNil noNil]
  rcases remove_cases (wl.add (some n)) n with ⟨missing, -⟩ | ⟨l₁, e, l₂, split, text, removed⟩
  · exact absurd rfl (missing (some n) (by simp [add]))
  · have stored : e.isSome := noNilAdded e (by rw [split]; simp)
    rw [removed]
    simp only [add] at split
    rcases List.eq_nil_or_concat l₂ with rfl | ⟨l₂', y, rfl⟩
    · obtain ⟨rfl, -⟩ := List.append_inj' split rfl
      rw [List.append_nil]
    · rw [List.concat_eq_append] at split ⊢
      rw [← List.cons_append, ← List.append_assoc] at split
      obtain ⟨before, same⟩ := List.append_inj' split rfl
      obtain rfl : y = some n := (List.singleton_inj.mp same).symm
      rw [before]
      simp only [List.any_append, List.any_cons, List.any_nil, Bool.or_false]
      rw [contained_of_string stored text]
      simp only [contained, Bool.or_comm]

theorem permitted_add_remove_mapped :
    newBasicNet.run [.add (some ⟨v4InV6Prefix ++ [10, 0, 0, 0], List.replicate 13 255 ++ [0, 0, 0]⟩),
        .add (some ⟨[12, 0, 0, 0], [255, 0, 0, 0]⟩)] =
        .ok ⟨[some ⟨v4InV6Prefix ++ [10, 0, 0, 0], List.replicate 13 255 ++ [0, 0, 0]⟩,
          some ⟨[12, 0, 0, 0], [255, 0, 0, 0]⟩]⟩ ∧
      ((BasicNet.add ⟨[some ⟨v4InV6Prefix ++ [10, 0, 0, 0], List.replicate 13 255 ++ [0, 0, 0]⟩,
          some ⟨[12, 0, 0, 0], [255, 0, 0, 0]⟩]⟩ (some ⟨[10, 0, 0, 0], [255, 0, 0, 0]⟩)).remove
          (some ⟨[10, 0, 0, 0], [255, 0, 0, 0]⟩)).permitted [10, 1, 2, 3] =
        BasicNet.permitted ⟨[some ⟨v4InV6Prefix ++ [10, 0, 0, 0], List.replicate 13 255 ++ [0, 0, 0]⟩,
          some ⟨[12, 0, 0, 0], [255, 0, 0, 0]⟩]⟩ [10, 1, 2, 3] :=
  have ran : newBasicNet.run [.add (some ⟨v4InV6Prefix ++ [10, 0, 0, 0], List.replicate 13 255 ++ [0, 0, 0]⟩),
      .add (some ⟨[12, 0, 0, 0], [255, 0, 0, 0]⟩)] =
      .ok ⟨[some ⟨v4InV6Prefix ++ [10, 0, 0, 0], List.replicate 13 255 ++ [0, 0, 0]⟩,
        some ⟨[12, 0, 0, 0], [255, 0, 0, 0]⟩]⟩ := rfl
  ⟨ran, permitted_add_remove (by simp [NetCall.IsEdit]) ran _ _⟩

example : (BasicNet.add ⟨[some ⟨v4InV6Prefix ++ [10, 0, 0, 0], List.replicate 13 255 ++ [0, 0, 0]⟩,
      some ⟨[12, 0, 0, 0], [255, 0, 0, 0]⟩]⟩ (some ⟨[10, 0, 0, 0], [255, 0, 0, 0]⟩)).remove
      (some ⟨[10, 0, 0, 0], [255, 0, 0, 0]⟩) =
    ⟨[some ⟨[12, 0, 0, 0], [255, 0, 0, 0]⟩, some ⟨[10, 0, 0, 0], [255, 0, 0, 0]⟩]⟩ := by decide

end BasicNet

end Allowlist
