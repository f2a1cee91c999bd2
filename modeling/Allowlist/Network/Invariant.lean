import Allowlist.Network.BasicNet

namespace Allowlist

open Go Go.Net

def NetCall.NoBlank : NetCall → Prop
  | .add _ | .remove _ => True
  | .unmarshalJSON inp => ∀ nets, unquote inp = .ok (some nets) → ∀ t ∈ nets, trimSpace t ≠ []

theorem NetCall.IsEdit.noBlank : ∀ {c : NetCall}, c.IsEdit → c.NoBlank
  | .add _, _ | .remove _, _ => trivial
  | .unmarshalJSON _, edit => edit.elim

namespace BasicNet

def NoNil (wl : BasicNet) : Prop := ∀ e ∈ wl.allowlist, e.isSome

def contained (ip : IP) : Option IPNet → Bool
  | some n => n.contains ip
  | none => false

theorem permittedFrom_of_noNil (ip : IP) :
    ∀ {l : List (Option IPNet)}, (∀ e ∈ l, e.isSome) → permittedFrom ip l = .ok (l.any (contained ip))
  | [], _ => rfl
  | none :: _, noNil => absurd (noNil none (List.mem_cons_self _ _)) (by decide)
  | some n :: rest, noNil => by
    have tail := permittedFrom_of_noNil ip fun e member => noNil e (List.mem_cons_of_mem _ member)
    cases inside : n.contains ip <;> simp [permittedFrom, contained, inside, tail]

theorem permitted_of_noNil {wl : BasicNet} (noNil : wl.NoNil) (ip : IP) :
    wl.permitted ip = .ok (validIP ip && wl.allowlist.any (contained ip)) := by
  cases valid : validIP ip <;> simp [permitted, valid, permittedFrom_of_noNil ip noNil]

theorem noNil_new : newBasicNet.NoNil := fun _ member => absurd member (List.not_mem_nil _)

theorem noNil_add {wl : BasicNet} (noNil : wl.NoNil) (n : Option IPNet) : (wl.add n).NoNil := by
  intro e member
  cases n with
  | none => exact noNil e member
  | some n =>
    rcases List.mem_append.mp member with old | added
    · exact noNil e old
    · rw [List.mem_singleton.mp added]
      rfl

theorem mem_remove {wl : BasicNet} {n : Option IPNet} {e : Option IPNet} (member : e ∈ (wl.remove n).allowlist) :
    e ∈ wl.allowlist := by
  unfold remove at member
  split at member
  · exact member
  · split at member
    · exact member
    · exact List.mem_of_mem_eraseIdx member

theorem unmarshalTokens_noNil : ∀ {ts : List Bytes} {entries : List (Option IPNet)},
    unmarshalTokens ts = .ok entries → ((∀ e ∈ entries, e.isSome) ↔ ∀ t ∈ ts, trimSpace t ≠ [])
  | [], _, read => by
    cases read
    simp
  | t :: ts, entries, read => by
    unfold unmarshalTokens at read
    dsimp only at read
    split at read
    · rename_i blank
      obtain ⟨rest, -, rfl⟩ := map_eq_ok read
      exact ⟨fun noNil => absurd (noNil none (List.mem_cons_self _ _)) (by decide),
        fun filled => absurd blank (filled t (List.mem_cons_self _ _))⟩
    · rename_i filled
      split at read
      · cases read
      · obtain ⟨rest, tail, rfl⟩ := map_eq_ok read
        simp only [List.mem_cons, forall_eq_or_imp, Option.isSome_some, true_and, ne_eq, filled,
          not_false_eq_true, unmarshalTokens_noNil tail]

theorem noNil_step {wl wl' : BasicNet} {c : NetCall} (noBlank : c.NoBlank) (noNil : wl.NoNil)
    (stepped : wl.step c = .ok wl') : wl'.NoNil := by
  cases c with
  | add n =>
    cases stepped
    exact noNil_add noNil n
  | remove n =>
    cases stepped
    exact fun e member => noNil e (mem_remove member)
  | unmarshalJSON inp =>
    obtain ⟨⟨wl'', err⟩, returned, rfl⟩ := map_eq_ok stepped
    rcases unmarshalJSON_cases returned with ⟨rfl, -⟩ | ⟨nets, entries, quoted, read, rfl, -⟩ | ⟨-, rfl, -⟩
    · exact noNil
    · exact (unmarshalTokens_noNil read).mpr (noBlank nets quoted)
    · exact fun e member => absurd member (List.not_mem_nil e)

theorem noNil_run {wl wl' : BasicNet} (calls : List NetCall) (noBlank : ∀ c ∈ calls, c.NoBlank) (noNil : wl.NoNil)
    (ran : wl.run calls = .ok wl') : wl'.NoNil :=
  run_preserves NoNil NetCall.NoBlank (fun _ _ _ => noNil_step) calls noBlank noNil ran

/-- Along calls with no blank piece, `Permitted` returns and answers by the stored networks. -/
theorem permitted_run_noBlank {calls : List NetCall} (noBlank : ∀ c ∈ calls, c.NoBlank) {wl : BasicNet}
    (ran : newBasicNet.run calls = .ok wl) (ip : IP) :
    wl.NoNil ∧ wl.permitted ip = .ok (validIP ip && wl.allowlist.any (contained ip)) :=
  have noNil := noNil_run calls noBlank noNil_new ran
  ⟨noNil, permitted_of_noNil noNil ip⟩

theorem permitted_run_noBlank_tenSlashEight :
    (∀ c ∈ [NetCall.add (some ⟨[10, 0, 0, 0], [255, 0, 0, 0]⟩)], c.NoBlank) ∧
      newBasicNet.run [.add (some ⟨[10, 0, 0, 0], [255, 0, 0, 0]⟩)] = .ok ⟨[some ⟨[10, 0, 0, 0], [255, 0, 0, 0]⟩]⟩ ∧
      NoNil ⟨[some ⟨[10, 0, 0, 0], [255, 0, 0, 0]⟩]⟩ ∧
      BasicNet.permitted ⟨[some ⟨[10, 0, 0, 0], [255, 0, 0, 0]⟩]⟩ (IPv4 10 1 2 3) =
        .ok (validIP (IPv4 10 1 2 3) && [some ⟨[10, 0, 0, 0], [255, 0, 0, 0]⟩].any (contained (IPv4 10 1 2 3))) :=
  have noBlank : ∀ c ∈ [NetCall.add (some ⟨[10, 0, 0, 0], [255, 0, 0, 0]⟩)], c.NoBlank := fun c member => by
    rw [List.mem_singleton] at member
    subst member
    trivial
  have ran : newBasicNet.run [.add (some ⟨[10, 0, 0, 0], [255, 0, 0, 0]⟩)] =
      .ok ⟨[some ⟨[10, 0, 0, 0], [255, 0, 0, 0]⟩]⟩ := rfl
  ⟨noBlank, ran, permitted_run_noBlank noBlank ran _⟩

/-- A successful `UnmarshalJSON` leaves no nil entry exactly when no piece is blank. -/
theorem unmarshalJSON_noNil_iff {wl wl' : BasicNet} {inp : Bytes} {nets : List Bytes}
    (quoted : unquote inp = .ok (some nets)) (returned : wl.unmarshalJSON inp = .ok (wl', none)) :
    wl'.NoNil ↔ ∀ t ∈ nets, trimSpace t ≠ [] := by
  rcases unmarshalJSON_cases returned with ⟨-, error⟩ | ⟨nets', entries, quoted', read, rfl, -⟩ | ⟨_, -, error⟩
  · cases error
  · rw [quoted] at quoted'
    cases quoted'
    exact unmarshalTokens_noNil read
  · cases error

theorem unmarshalJSON_noNil_iff_trailingComma :
    unquote (ascii "\"10.0.0.0/8,\"") = .ok (some [ascii "10.0.0.0/8", []]) ∧
      newBasicNet.unmarshalJSON (ascii "\"10.0.0.0/8,\"") = .ok (⟨[some ⟨[10, 0, 0, 0], [255, 0, 0, 0]⟩, none]⟩, none) ∧
      (NoNil ⟨[some ⟨[10, 0, 0, 0], [255, 0, 0, 0]⟩, none]⟩ ↔ ∀ t ∈ [ascii "10.0.0.0/8", []], trimSpace t ≠ []) :=
  have quoted : unquote (ascii "\"10.0.0.0/8,\"") = .ok (some [ascii "10.0.0.0/8", []]) := by decide
  have returned : newBasicNet.unmarshalJSON (ascii "\"10.0.0.0/8,\"") =
      .ok (⟨[some ⟨[10, 0, 0, 0], [255, 0, 0, 0]⟩, none]⟩, none) := by decide
  ⟨quoted, returned, unmarshalJSON_noNil_iff quoted returned⟩

/-- `UnmarshalJSON` of `""` leaves one nil entry, which `Permitted` dereferences. -/
theorem permitted_unmarshalJSON_empty :
    newBasicNet.unmarshalJSON (ascii "\"\"") = .ok (⟨[none]⟩, none) ∧
      BasicNet.permitted ⟨[none]⟩ (IPv4 10 0 0 1) = .error .nilPointerDereference := by
  decide

/-- The empty list comes back from `MarshalJSON` and `UnmarshalJSON` as one nil entry. -/
theorem marshalJSON_roundTrip_empty :
    newBasicNet.permitted (IPv4 10 0 0 1) = .ok false ∧
      (newBasicNet.unmarshalJSON newBasicNet.marshalJSON).map (fun r => r.1.permitted (IPv4 10 0 0 1)) =
        .ok (.error .nilPointerDereference) := by
  decide

end BasicNet

end Allowlist
