import Allowlist.Network.Invariant
import Allowlist.Net.CIDRRoundTrip

namespace Allowlist

open Go Go.Net

def NetCall.AddsParsed : NetCall → Prop
  | .add n => ∀ e ∈ n, ∃ s ip, parseCIDR s = .ok (ip, e)
  | .remove _ => True
  | .unmarshalJSON _ => False

namespace BasicNet

def Parsed (wl : BasicNet) : Prop := ∀ e ∈ wl.allowlist, ∃ n, e = some n ∧ ∃ s ip, parseCIDR s = .ok (ip, n)

theorem parsed_step {wl wl' : BasicNet} {c : NetCall} (adds : c.AddsParsed) (holds : wl.Parsed)
    (stepped : wl.step c = .ok wl') : wl'.Parsed := by
  cases c with
  | add n =>
    cases stepped
    intro e member
    cases n with
    | none => exact holds e member
    | some n =>
      rcases List.mem_append.mp member with old | added
      · exact holds e old
      · exact ⟨n, List.mem_singleton.mp added, adds n rfl⟩
  | remove n =>
    cases stepped
    exact fun e member => holds e (mem_remove member)
  | unmarshalJSON inp => cases adds

theorem unmarshalTokens_strings : ∀ {l : List (Option IPNet)},
    (∀ e ∈ l, ∃ n, e = some n ∧ ∃ s ip, parseCIDR s = .ok (ip, n)) →
    ∃ l', unmarshalTokens (l.map IPNet.string) = .ok l' ∧
      List.Forall₂ (fun e e' => e'.isSome ∧ IPNet.string e' = IPNet.string e) l l'
  | [], _ => ⟨[], rfl, .nil⟩
  | e :: l, parsed => by
    obtain ⟨n, rfl, s, ip, read⟩ := parsed e (List.mem_cons_self _ _)
    obtain ⟨ip', n', reparsed, same⟩ := parseCIDR_string read
    obtain ⟨l', rest, related⟩ := unmarshalTokens_strings fun e member => parsed e (List.mem_cons_of_mem _ member)
    have trimmed : trimSpace (IPNet.string (some n)) = IPNet.string (some n) :=
      trimSpace_of_graphic fun c member => (string_parseCIDR_chars read c member).1
    have nonempty : IPNet.string (some n) ≠ [] := fun empty => by
      rw [empty] at reparsed
      cases reparsed
    refine ⟨some n' :: l', ?_, .cons ⟨rfl, same⟩ related⟩
    simp only [List.map_cons, unmarshalTokens, trimmed, nonempty, if_false, reparsed, rest]
    rfl

theorem permittedFrom_of_strings (x : IP) : ∀ {l l' : List (Option IPNet)}, (∀ e ∈ l, e.isSome) →
    List.Forall₂ (fun e e' => e'.isSome ∧ IPNet.string e' = IPNet.string e) l l' →
    permittedFrom x l' = permittedFrom x l
  | [], [], _, .nil => rfl
  | e :: l, e' :: l', noNil, .cons ⟨stored, same⟩ related => by
    obtain ⟨n, rfl⟩ := Option.isSome_iff_exists.mp (noNil e (List.mem_cons_self _ _))
    obtain ⟨n', rfl⟩ := Option.isSome_iff_exists.mp stored
    have tail := permittedFrom_of_strings x (fun e member => noNil e (List.mem_cons_of_mem _ member)) related
    simp only [permittedFrom, contains_of_string same x, tail]

/-- A non-empty list comes back from `MarshalJSON` and `UnmarshalJSON` with the same answers. -/
theorem marshalJSON_roundTrip_nonempty {calls : List NetCall} (adds : ∀ c ∈ calls, c.AddsParsed)
    {wl : BasicNet} (ran : newBasicNet.run calls = .ok wl) (nonempty : wl.allowlist ≠ []) (target : BasicNet) :
    ∃ wl', target.unmarshalJSON wl.marshalJSON = .ok (wl', none) ∧
      ∀ x, ∃ b, wl.permitted x = .ok b ∧ wl'.permitted x = .ok b := by
  have parsed : wl.Parsed :=
    run_preserves Parsed NetCall.AddsParsed (fun _ _ _ => parsed_step) calls adds
      (fun _ member => absurd member (List.not_mem_nil _)) ran
  have noNil : wl.NoNil := fun e member => by
    obtain ⟨n, rfl, -⟩ := parsed e member
    rfl
  have chars : ∀ t ∈ wl.allowlist.map IPNet.string, ∀ c ∈ t, isGraphic c = true ∧ c ≠ 44 := by
    intro t member
    obtain ⟨e, inside, rfl⟩ := List.mem_map.mp member
    obtain ⟨n, rfl, s, ip, read⟩ := parsed e inside
    exact string_parseCIDR_chars read
  have unquoted := unquote_quoteJoin (fun t member c byte => (chars t member c byte).1)
    (fun t member comma => (chars t member 44 comma).2 rfl)
  rw [if_neg (by simpa using nonempty)] at unquoted
  obtain ⟨l', read, related⟩ := unmarshalTokens_strings parsed
  refine ⟨⟨l'⟩, ?_, fun x => ⟨_, permitted_of_noNil noNil x, ?_⟩⟩
  · simp only [unmarshalJSON, marshalJSON, unquoted, bind, Except.bind, read]
    rfl
  · rw [← permitted_of_noNil noNil x]
    simp only [permitted, permittedFrom_of_strings x noNil related]

theorem marshalJSON_roundTrip_twoNets :
    newBasicNet.run [.add (some ⟨[10, 0, 0, 0], [255, 0, 0, 0]⟩), .add (some ⟨[192, 168, 0, 0], [255, 255, 0, 0]⟩)] =
        .ok ⟨[some ⟨[10, 0, 0, 0], [255, 0, 0, 0]⟩, some ⟨[192, 168, 0, 0], [255, 255, 0, 0]⟩]⟩ ∧
      ∃ wl', newBasicNet.unmarshalJSON
          (BasicNet.marshalJSON ⟨[some ⟨[10, 0, 0, 0], [255, 0, 0, 0]⟩, some ⟨[192, 168, 0, 0], [255, 255, 0, 0]⟩]⟩) =
          .ok (wl', none) ∧
        ∀ x, ∃ b, BasicNet.permitted ⟨[some ⟨[10, 0, 0, 0], [255, 0, 0, 0]⟩,
          some ⟨[192, 168, 0, 0], [255, 255, 0, 0]⟩]⟩ x = .ok b ∧ wl'.permitted x = .ok b :=
  have adds : ∀ c ∈ [NetCall.add (some ⟨[10, 0, 0, 0], [255, 0, 0, 0]⟩),
      .add (some ⟨[192, 168, 0, 0], [255, 255, 0, 0]⟩)], c.AddsParsed := by
    simp only [List.mem_cons, List.mem_singleton, List.not_mem_nil, or_false]
    rintro c (rfl | rfl) e ⟨⟩
    · exact ⟨ascii "10.0.0.0/8", IPv4 10 0 0 0, by decide⟩
    · exact ⟨ascii "192.168.0.0/16", IPv4 192 168 0 0, by decide⟩
  have ran : newBasicNet.run [.add (some ⟨[10, 0, 0, 0], [255, 0, 0, 0]⟩),
      .add (some ⟨[192, 168, 0, 0], [255, 255, 0, 0]⟩)] =
      .ok ⟨[some ⟨[10, 0, 0, 0], [255, 0, 0, 0]⟩, some ⟨[192, 168, 0, 0], [255, 255, 0, 0]⟩]⟩ := rfl
  ⟨ran, marshalJSON_roundTrip_nonempty adds ran (List.cons_ne_nil _ _) newBasicNet⟩

example : BasicNet.marshalJSON ⟨[some ⟨[10, 0, 0, 0], [255, 0, 0, 0]⟩, some ⟨[192, 168, 0, 0], [255, 255, 0, 0]⟩]⟩ =
    ascii "\"10.0.0.0/8,192.168.0.0/16\"" := by
  decide

end BasicNet

end Allowlist
