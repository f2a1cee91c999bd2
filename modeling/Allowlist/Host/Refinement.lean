import Allowlist.Host.RoundTrip

namespace Allowlist

open Go Go.Net

structure AddrSet where
  members : List IP
  valid : ∀ ip ∈ members, validIP ip = true

namespace AddrSet

def empty : AddrSet := ⟨[], fun _ member => absurd member (List.not_mem_nil _)⟩

def permitted (S : AddrSet) (x : IP) : Bool := validIP x && S.members.any fun y => x.equal y

def add (S : AddrSet) (a : IP) : AddrSet :=
  if h : validIP a = true then
    ⟨a :: S.members, fun ip member => (List.mem_cons.mp member).elim (fun same => same ▸ h) (S.valid ip)⟩
  else S

def remove (S : AddrSet) (a : IP) : AddrSet :=
  if validIP a = true then
    ⟨S.members.filter fun y => !a.equal y, fun ip member => S.valid ip (List.mem_of_mem_filter member)⟩
  else S

def parsed (texts : List Bytes) : AddrSet :=
  ⟨texts.filterMap parseIP, fun ip member => by
    obtain ⟨t, _, accepted⟩ := List.mem_filterMap.mp member
    exact validIP_iff.mpr (.inr (parseIP_length accepted))⟩

def step (S : AddrSet) : Call → AddrSet
  | .add a => S.add a
  | .remove a => S.remove a
  | .unmarshalJSON inp =>
    match unquote inp with
    | .ok (some nets) => parsed ((nets.map trimSpace).filter (· ≠ []))
    | _ => S

def run (S : AddrSet) (cs : List Call) : AddrSet := cs.foldl step S

theorem permitted_add_self (S : AddrSet) {a : IP} (valid : validIP a = true) : (S.add a).permitted a = true := by
  simp [add, valid, permitted, IP.equal]

theorem permitted_remove_self (S : AddrSet) (a : IP) : (S.remove a).permitted a = false := by
  unfold permitted remove
  split_ifs with valid
  · simp
  · simp [valid]

end AddrSet

def Refines (wl : Basic) (S : AddrSet) : Prop :=
  wl.allowlist.isSome ∧ ∀ k, k ∈ mapKeys wl.allowlist ↔ ∃ y ∈ S.members, k = y.string

def Call.WritesCanonical : Call → Prop
  | .add _ | .remove _ => True
  | .unmarshalJSON inp => inp ≠ [] ∧ inp ≠ [34] ∧ ∀ nets, unquote inp = .ok (some nets) →
      ∀ t ∈ nets, trimSpace t ≠ [] → ∃ ip, parseIP (trimSpace t) = some ip ∧ ip.string = trimSpace t

theorem Call.writesCanonical_of_isEdit : ∀ {c : Call}, c.IsEdit → c.WritesCanonical
  | .add _, _ | .remove _, _ => trivial
  | .unmarshalJSON _, edit => edit.elim

namespace Basic

theorem permitted_of_refines {wl : Basic} {S : AddrSet} (refines : Refines wl S) (x : IP) :
    wl.permitted x = S.permitted x := by
  cases valid : validIP x
  · simp [permitted, AddrSet.permitted, valid]
  · have texts : (∃ y ∈ S.members, x.string = y.string) ↔ ∃ y ∈ S.members, x.equal y = true :=
      exists_congr fun y => and_congr_right fun member =>
        string_eq_iff_equal (validIP_iff.mp valid) (validIP_iff.mp (S.valid y member))
    simp only [permitted, AddrSet.permitted, valid, mapGet_eq, refines.2, texts, Bool.not_true,
      Bool.false_eq_true, if_false, Bool.true_and]
    rw [eq_comm, Bool.eq_iff_iff, decide_eq_true_iff, List.any_eq_true]

theorem refines_new : Refines newBasic AddrSet.empty := ⟨rfl, by simp [newBasic, mapKeys, AddrSet.empty]⟩

theorem refines_edit {wl : Basic} {S : AddrSet} {c : Call} (edit : c.IsEdit) (refines : Refines wl S) :
    ∃ wl', wl.step c = .ok wl' ∧ Refines wl' (S.step c) := by
  obtain ⟨nonNil, keys⟩ := refines
  obtain ⟨m, present⟩ := Option.isSome_iff_exists.mp nonNil
  cases c with
  | add a =>
    cases valid : validIP a
    · exact ⟨wl, add_of_invalid valid, by simp [AddrSet.step, AddrSet.add, valid]; exact ⟨nonNil, keys⟩⟩
    · refine ⟨_, add_of_valid valid present, rfl, fun k => ?_⟩
      rw [mem_keys_add (add_of_valid valid present), keys]
      simp [AddrSet.step, AddrSet.add, valid, or_comm]
  | remove a =>
    refine ⟨_, rfl, ?_, fun k => ?_⟩
    · cases valid : validIP a <;> simp [remove, valid, present, mapDelete]
    · rw [mem_keys_remove, keys]
      cases valid : validIP a
      · simp [AddrSet.step, AddrSet.remove, valid]
      · simp only [AddrSet.step, AddrSet.remove, valid, if_true, List.mem_filter, Bool.not_eq_true',
          true_and]
        have equal : ∀ y ∈ S.members, y.string = a.string ↔ a.equal y = true := fun y member =>
          eq_comm.trans (string_eq_iff_equal (validIP_iff.mp valid) (validIP_iff.mp (S.valid y member)))
        constructor
        · rintro ⟨⟨y, member, rfl⟩, other⟩
          exact ⟨y, ⟨member, Bool.eq_false_iff.mpr fun same => other ((equal y member).mpr same)⟩, rfl⟩
        · rintro ⟨y, ⟨member, other⟩, rfl⟩
          exact ⟨⟨y, member, rfl⟩, fun same => by rw [(equal y member).mp same] at other; cases other⟩
  | unmarshalJSON inp => cases edit

theorem refines_unmarshalJSON {wl : Basic} {S : AddrSet} {inp : Bytes}
    (canonical : (Call.unmarshalJSON inp).WritesCanonical) (refines : Refines wl S) :
    ∃ wl', wl.step (.unmarshalJSON inp) = .ok wl' ∧ Refines wl' (S.step (.unmarshalJSON inp)) := by
  obtain ⟨nonempty, notLoneQuote, pieces⟩ := canonical
  obtain ⟨nets?, quoted⟩ := unquote_returns nonempty notLoneQuote
  cases nets? with
  | none =>
    refine ⟨wl, ?_, ?_⟩
    · simp only [step, unmarshalJSON, quoted, bind, Except.bind, pure, Except.pure]
      rfl
    · simpa only [AddrSet.step, quoted] using refines
  | some nets =>
    have canon := pieces nets quoted
    obtain ⟨m, read, keys⟩ := unmarshalTokens_of_pieces BoolMap.empty nets fun t member blank => by
      obtain ⟨ip, accepted, -⟩ := canon t member blank
      rw [accepted]
      rfl
    refine ⟨⟨some m⟩, by simp only [step, unmarshalJSON, quoted, bind, Except.bind, read]; rfl, rfl, fun k => ?_⟩
    simp only [AddrSet.step, quoted, AddrSet.parsed, mapKeys, keys, BoolMap.keys_empty, List.not_mem_nil, or_false,
      List.mem_filterMap, List.mem_filter, List.mem_map, decide_eq_true_eq]
    constructor
    · rintro ⟨⟨t, member, rfl⟩, nonempty⟩
      obtain ⟨ip, accepted, text⟩ := canon t member nonempty
      exact ⟨ip, ⟨_, ⟨⟨t, member, rfl⟩, nonempty⟩, accepted⟩, text.symm⟩
    · rintro ⟨y, ⟨_, ⟨⟨t, member, rfl⟩, nonempty⟩, accepted⟩, rfl⟩
      obtain ⟨ip, accepted', text⟩ := canon t member nonempty
      rw [accepted] at accepted'
      cases accepted'
      exact ⟨⟨t, member, text.symm⟩, text ▸ nonempty⟩

theorem refines_step {wl : Basic} {S : AddrSet} {c : Call} (canonical : c.WritesCanonical) (refines : Refines wl S) :
    ∃ wl', wl.step c = .ok wl' ∧ Refines wl' (S.step c) := by
  cases c with
  | add a => exact refines_edit trivial refines
  | remove a => exact refines_edit trivial refines
  | unmarshalJSON inp => exact refines_unmarshalJSON canonical refines

theorem refines_run_canonical : ∀ {wl : Basic} {S : AddrSet} (calls : List Call), (∀ c ∈ calls, c.WritesCanonical) →
    Refines wl S → ∃ wl', wl.run calls = .ok wl' ∧ Refines wl' (S.run calls)
  | wl, S, [], _, refines => ⟨wl, rfl, refines⟩
  | wl, S, c :: cs, canonical, refines => by
    obtain ⟨next, stepped, related⟩ := refines_step (canonical c (List.mem_cons_self c cs)) refines
    obtain ⟨wl', ran, final⟩ :=
      refines_run_canonical cs (fun c' member => canonical c' (List.mem_cons_of_mem c member)) related
    exact ⟨wl', by simp only [run, stepped, bind, Except.bind, ran], final⟩

theorem refines_run {wl : Basic} {S : AddrSet} (calls : List Call) (edits : ∀ c ∈ calls, c.IsEdit) (refines : Refines wl S) :
    ∃ wl', wl.run calls = .ok wl' ∧ Refines wl' (S.run calls) :=
  refines_run_canonical calls (fun c member => Call.writesCanonical_of_isEdit (edits c member)) refines

theorem loadLines_keys : ∀ (wl : Basic) {wl' : Basic} (lines : List Bytes), wl.allowlist.isSome →
    loadLines wl lines = .ok (.ok wl') →
    wl'.allowlist.isSome ∧
      ∀ k, k ∈ mapKeys wl'.allowlist ↔ k ∈ mapKeys wl.allowlist ∨ ∃ q ∈ lines.filterMap parseIP, k = q.string
  | wl, _, [], nonNil, loaded => by cases loaded; exact ⟨nonNil, by simp⟩
  | wl, _, line :: lines, nonNil, loaded => by
    obtain ⟨m, present⟩ := Option.isSome_iff_exists.mp nonNil
    cases accepted : parseIP line with
    | none => simp only [loadLines, accepted, pure, Except.pure] at loaded; cases loaded
    | some q =>
      rw [loadLines_cons_of_parsed present accepted] at loaded
      obtain ⟨nonNil', keys⟩ := loadLines_keys ⟨some (m.set q.string)⟩ lines rfl loaded
      refine ⟨nonNil', fun k => ?_⟩
      rw [keys]
      simp only [mapKeys, present, BoolMap.mem_keys_set, List.filterMap_cons, accepted, List.mem_cons]
      constructor
      · rintro ((rfl | old) | ⟨q', member, rfl⟩)
        · exact .inr ⟨q, .inl rfl, rfl⟩
        · exact .inl old
        · exact .inr ⟨q', .inr member, rfl⟩
      · rintro (old | ⟨q', rfl | member, rfl⟩)
        · exact .inl (.inr old)
        · exact .inl (.inl rfl)
        · exact .inr ⟨q', member, rfl⟩

theorem refines_load {inp : Bytes} {wl : Basic} (loaded : loadBasic inp = .ok (.ok wl)) :
    Refines wl (AddrSet.parsed (split inp 10)) := by
  obtain ⟨nonNil, keys⟩ := loadLines_keys newBasic _ rfl loaded
  exact ⟨nonNil, fun k => by rw [keys]; simp [newBasic, mapKeys, AddrSet.parsed]⟩

/-- Along runs of `Add`, `Remove` and canonical `UnmarshalJSON`, `Permitted` is membership in the set. -/
theorem permitted_run_refines {start : Basic} {S : AddrSet}
    (init : (start = newBasic ∧ S = AddrSet.empty) ∨ ∃ inp, loadBasic inp = .ok (.ok start) ∧ S = AddrSet.parsed (split inp 10))
    (calls : List Call) (canonical : ∀ c ∈ calls, c.WritesCanonical) :
    ∃ wl, start.run calls = .ok wl ∧ ∀ x, wl.permitted x = (S.run calls).permitted x := by
  have related : Refines start S := by
    rcases init with ⟨rfl, rfl⟩ | ⟨inp, loaded, rfl⟩
    · exact refines_new
    · exact refines_load loaded
  obtain ⟨wl, ran, final⟩ := refines_run_canonical calls canonical related
  exact ⟨wl, ran, permitted_of_refines final⟩

theorem permitted_run_refines_unmarshalJSON :
    ((newBasic = newBasic ∧ AddrSet.empty = AddrSet.empty) ∨
        ∃ inp, loadBasic inp = .ok (.ok newBasic) ∧ AddrSet.empty = AddrSet.parsed (split inp 10)) ∧
      (∀ c ∈ [Call.unmarshalJSON (ascii "\"10.0.0.1, ::1\""), .add [127, 0, 0, 1], .remove [10, 0, 0, 1],
        .unmarshalJSON (ascii "x")], c.WritesCanonical) ∧
      ∃ wl, newBasic.run [.unmarshalJSON (ascii "\"10.0.0.1, ::1\""), .add [127, 0, 0, 1], .remove [10, 0, 0, 1],
          .unmarshalJSON (ascii "x")] = .ok wl ∧
        ∀ x, wl.permitted x = (AddrSet.empty.run [.unmarshalJSON (ascii "\"10.0.0.1, ::1\""), .add [127, 0, 0, 1],
          .remove [10, 0, 0, 1], .unmarshalJSON (ascii "x")]).permitted x :=
  have init : (newBasic = newBasic ∧ AddrSet.empty = AddrSet.empty) ∨
      ∃ inp, loadBasic inp = .ok (.ok newBasic) ∧ AddrSet.empty = AddrSet.parsed (split inp 10) := .inl ⟨rfl, rfl⟩
  have pieces : unquote (ascii "\"10.0.0.1, ::1\"") = .ok (some [ascii "10.0.0.1", ascii " ::1"]) := by decide
  have unquoted : unquote (ascii "x") = .ok none := by decide
  have canonical : ∀ c ∈ [Call.unmarshalJSON (ascii "\"10.0.0.1, ::1\""), .add [127, 0, 0, 1],
      .remove [10, 0, 0, 1], .unmarshalJSON (ascii "x")], c.WritesCanonical := by
    simp only [List.mem_cons, List.mem_singleton, List.not_mem_nil, or_false]
    rintro c (rfl | rfl | rfl | rfl)
    · refine ⟨by decide, by decide, fun nets quoted => ?_⟩
      rw [pieces, Except.ok.injEq, Option.some.injEq] at quoted
      subst quoted
      simp only [List.mem_cons, List.mem_singleton, List.not_mem_nil, or_false]
      rintro t (rfl | rfl) -
      · exact ⟨IPv4 10 0 0 1, by decide, by decide⟩
      · exact ⟨List.replicate 15 0 ++ [1], by decide, by decide⟩
    · trivial
    · trivial
    · refine ⟨by decide, by decide, fun nets quoted => ?_⟩
      rw [unquoted] at quoted
      cases quoted
  ⟨init, canonical, permitted_run_refines init _ canonical⟩

/-- `UnmarshalJSON` keeps `0:0:0:0:0:0:0:1` as written, where `Permitted` looks up `::1`. -/
theorem permitted_unmarshalJSON_uncanonical :
    (newBasic.run [.unmarshalJSON (ascii "\"0:0:0:0:0:0:0:1\"")]).map
        (·.permitted [0, 0, 0, 0, 0, 0, 0, 0, 0, 0, 0, 0, 0, 0, 0, 1]) = .ok false ∧
      (AddrSet.empty.run [.unmarshalJSON (ascii "\"0:0:0:0:0:0:0:1\"")]).permitted
        [0, 0, 0, 0, 0, 0, 0, 0, 0, 0, 0, 0, 0, 0, 0, 1] = true := by
  decide

end Basic

end Allowlist
