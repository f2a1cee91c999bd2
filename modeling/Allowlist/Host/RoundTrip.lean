import Allowlist.Host.Basic

namespace Allowlist

open Go Go.Net

namespace Basic

theorem permitted_of_keys {a b : Basic} (same : ∀ k, k ∈ mapKeys a.allowlist ↔ k ∈ mapKeys b.allowlist) (ip : IP) :
    a.permitted ip = b.permitted ip := by
  simp only [permitted, mapGet_eq, same]

def KeysParse (wl : Basic) : Prop := ∀ k ∈ mapKeys wl.allowlist, (parseIP k).isSome

theorem parseIP_string_isSome {ip : IP} (valid : validIP ip = true) : (parseIP ip.string).isSome := by
  rcases validIP_iff.mp valid with four | sixteen
  · simp [parseIP_string (.inl four), to16_four four]
  · simp [parseIP_string (.inr sixteen), to16_sixteen sixteen]

theorem string_chars {ip : IP} (valid : validIP ip = true) : ∀ c ∈ ip.string, ipChar c = true :=
  ipChar_of_mem_string (validIP_iff.mp valid)

theorem keysParse_new : newBasic.KeysParse := fun _ member => absurd member (List.not_mem_nil _)

theorem keysParse_step {wl wl' : Basic} {c : Call} (holds : wl.KeysParse) (stepped : wl.step c = .ok wl') :
    wl'.KeysParse := by
  intro k member
  cases c with
  | add ip =>
    rcases (mem_keys_add stepped k).mp member with old | ⟨valid, rfl⟩
    · exact holds k old
    · exact parseIP_string_isSome valid
  | remove ip =>
    cases stepped
    exact holds k ((mem_keys_remove k).mp member).1
  | unmarshalJSON inp =>
    obtain ⟨⟨_, err⟩, returned, rfl⟩ := map_eq_ok stepped
    rcases unmarshalJSON_cases returned with ⟨rfl, -⟩ | ⟨nets, m, -, read, rfl, -⟩ | ⟨addr, rfl, -⟩
    · exact holds k member
    · rcases mem_keys_unmarshalTokens read k member with fresh | ⟨-, parsed⟩
      · cases fresh
      · exact parsed
    · cases member

theorem keysParse_loadLines : ∀ {wl wl' : Basic} (lines : List Bytes), wl.KeysParse →
    loadLines wl lines = .ok (.ok wl') → wl'.KeysParse
  | _, _, [], holds, loaded => by cases loaded; exact holds
  | wl, _, addr :: lines, holds, loaded => by
    unfold loadLines at loaded
    split at loaded
    · cases loaded
    · rename_i ip _
      cases added : wl.add ip with
      | error e => simp [added, bind, Except.bind] at loaded
      | ok next =>
        simp only [added, bind, Except.bind] at loaded
        exact keysParse_loadLines lines (keysParse_step holds (show wl.step (.add ip) = .ok next from added)) loaded

theorem keysParse_reachable {start wl : Basic} (fresh : start = newBasic ∨ ∃ inp, loadBasic inp = .ok (.ok start))
    {calls : List Call} (ran : start.run calls = .ok wl) : wl.KeysParse := by
  have initial : start.KeysParse := by
    rcases fresh with rfl | ⟨inp, loaded⟩
    · exact keysParse_new
    · exact keysParse_loadLines _ keysParse_new loaded
  exact run_preserves KeysParse (fun _ => True) (fun _ _ _ _ => keysParse_step) calls (fun _ _ => trivial) initial ran

theorem unmarshalTokens_of_pieces : ∀ (m : BoolMap) (ts : List Bytes),
    (∀ t ∈ ts, trimSpace t ≠ [] → (parseIP (trimSpace t)).isSome) →
    ∃ m', unmarshalTokens m ts = .ok m' ∧ ∀ k, k ∈ m'.keys ↔ (k ∈ ts.map trimSpace ∧ k ≠ []) ∨ k ∈ m.keys
  | m, [], _ => ⟨m, rfl, by simp⟩
  | m, t :: ts, parsed => by
    have rest := fun s member => parsed s (List.mem_cons_of_mem t member)
    by_cases blank : trimSpace t = []
    · obtain ⟨m', read, keys⟩ := unmarshalTokens_of_pieces m ts rest
      refine ⟨m', by rw [unmarshalTokens, if_pos blank, read], fun k => ?_⟩
      rw [keys, List.map_cons, List.mem_cons]
      have other : k = trimSpace t → k = [] := fun same => same.trans blank
      tauto
    · obtain ⟨ip, accepted⟩ := Option.isSome_iff_exists.mp (parsed t (List.mem_cons_self t ts) blank)
      obtain ⟨m', read, keys⟩ := unmarshalTokens_of_pieces (m.set (trimSpace t)) ts rest
      refine ⟨m', by simp only [unmarshalTokens, blank, if_false, accepted, read], fun k => ?_⟩
      rw [keys, BoolMap.mem_keys_set, List.map_cons, List.mem_cons]
      have other : k = trimSpace t → k ≠ [] := fun same => same ▸ blank
      tauto

theorem unmarshalTokens_of_parsed (m : BoolMap) (ts : List Bytes) (parsed : ∀ t ∈ ts, (parseIP t).isSome)
    (trimmed : ∀ t ∈ ts, trimSpace t = t) :
    ∃ m', unmarshalTokens m ts = .ok m' ∧ ∀ k, k ∈ m'.keys ↔ k ∈ ts ∨ k ∈ m.keys := by
  obtain ⟨m', read, keys⟩ := unmarshalTokens_of_pieces m ts fun t member _ => (trimmed t member).symm ▸ parsed t member
  refine ⟨m', read, fun k => ?_⟩
  have nonempty : k ∈ ts → k ≠ [] := fun member empty => by
    have accepted := parsed k member
    rw [empty] at accepted
    cases accepted
  rw [keys, (List.map_congr_left trimmed).trans (List.map_id ts)]
  tauto

theorem unmarshalJSON_marshalJSON_keys {ss : List Bytes} (unique : ss.Nodup) (parsed : ∀ s ∈ ss, (parseIP s).isSome)
    (target : Basic) : ∃ m, target.unmarshalJSON (marshalJSON ss) = .ok (⟨some m⟩, none) ∧ m.keys.Perm ss := by
  have chars : ∀ s ∈ ss, ∀ c ∈ s, ipChar c = true := fun s member =>
    let ⟨_, accepted⟩ := Option.isSome_iff_exists.mp (parsed s member)
    parseIP_chars accepted
  have unquoted := unquote_quoteJoin (fun s member c byte => (ipChar_separators (chars s member c byte)).1)
    (fun s member comma => (ipChar_separators (chars s member 44 comma)).2.1 rfl)
  by_cases empty : ss = []
  · subst empty
    refine ⟨BoolMap.empty, ?_, .nil⟩
    rw [if_pos rfl] at unquoted
    simp only [unmarshalJSON, marshalJSON, unquoted, bind, Except.bind]
    rfl
  · rw [if_neg empty] at unquoted
    obtain ⟨m, read, keys⟩ := unmarshalTokens_of_parsed BoolMap.empty ss parsed
      (fun s member => trimSpace_of_graphic fun c byte => (ipChar_separators (chars s member c byte)).1)
    refine ⟨m, ?_, (List.perm_ext_iff_of_nodup m.nodup unique).mpr fun k => by simpa using keys k⟩
    simp only [unmarshalJSON, marshalJSON, unquoted, bind, Except.bind, read]
    rfl

/-- `UnmarshalJSON` of what `MarshalJSON` writes, in any key order, gives the same keys and answers. -/
theorem marshalJSON_roundTrip {start wl : Basic} (fresh : start = newBasic ∨ ∃ inp, loadBasic inp = .ok (.ok start))
    {calls : List Call} (ran : start.run calls = .ok wl) {ss : List Bytes} (order : ss.Perm (mapKeys wl.allowlist))
    (target : Basic) :
    ∃ wl', target.unmarshalJSON (marshalJSON ss) = .ok (wl', none) ∧
      (mapKeys wl'.allowlist).Perm (mapKeys wl.allowlist) ∧ ∀ ip, wl'.permitted ip = wl.permitted ip := by
  have holds := keysParse_reachable fresh ran
  obtain ⟨m, read, keys⟩ := unmarshalJSON_marshalJSON_keys ((order.nodup_iff).mpr (mapKeys_nodup _))
    (fun s member => holds s (order.subset member)) target
  exact ⟨⟨some m⟩, read, keys.trans order, permitted_of_keys fun k => (keys.trans order).mem_iff⟩

theorem twoAdds_run : newBasic.run [.add [127, 0, 0, 1], .add [10, 0, 0, 1]] =
    .ok ⟨some ⟨[ascii "10.0.0.1", ascii "127.0.0.1"], by decide⟩⟩ := by
  decide

theorem twoAdds_edits : ∀ c ∈ [Call.add [127, 0, 0, 1], .add [10, 0, 0, 1]], c.IsEdit := by
  simp [Call.IsEdit]

theorem twoAdds_swapped : [ascii "127.0.0.1", ascii "10.0.0.1"].Perm
    (mapKeys (some ⟨[ascii "10.0.0.1", ascii "127.0.0.1"], by decide⟩)) :=
  List.Perm.swap _ _ []

theorem marshalJSON_roundTrip_swapped :
    newBasic.run [.add [127, 0, 0, 1], .add [10, 0, 0, 1]] =
        .ok ⟨some ⟨[ascii "10.0.0.1", ascii "127.0.0.1"], by decide⟩⟩ ∧
      [ascii "127.0.0.1", ascii "10.0.0.1"].Perm (mapKeys (some ⟨[ascii "10.0.0.1", ascii "127.0.0.1"], by decide⟩)) ∧
      ∃ wl', newBasic.unmarshalJSON (marshalJSON [ascii "127.0.0.1", ascii "10.0.0.1"]) = .ok (wl', none) ∧
        (mapKeys wl'.allowlist).Perm [ascii "10.0.0.1", ascii "127.0.0.1"] ∧
        ∀ ip, wl'.permitted ip = Basic.permitted ⟨some ⟨[ascii "10.0.0.1", ascii "127.0.0.1"], by decide⟩⟩ ip :=
  ⟨twoAdds_run, twoAdds_swapped, marshalJSON_roundTrip (.inl rfl) twoAdds_run twoAdds_swapped newBasic⟩

example : marshalJSON [ascii "127.0.0.1", ascii "10.0.0.1"] = ascii "\"127.0.0.1,10.0.0.1\"" := by
  decide

def Canonical (wl : Basic) : Prop := ∀ k ∈ mapKeys wl.allowlist, ∃ ip, validIP ip = true ∧ k = ip.string

theorem canonical_new : newBasic.Canonical := fun _ member => absurd member (List.not_mem_nil _)

theorem canonical_edit {wl wl' : Basic} {c : Call} (edit : c.IsEdit) (holds : wl.Canonical)
    (stepped : wl.step c = .ok wl') : wl'.Canonical := by
  intro k member
  cases c with
  | add ip =>
    rcases (mem_keys_add stepped k).mp member with old | ⟨valid, rfl⟩
    · exact holds k old
    · exact ⟨ip, valid, rfl⟩
  | remove ip =>
    cases stepped
    exact holds k ((mem_keys_remove k).mp member).1
  | unmarshalJSON inp => cases edit

theorem loadLines_cons_of_parsed {wl : Basic} {m : BoolMap} (present : wl.allowlist = some m) {line : Bytes}
    {ip : IP} (accepted : parseIP line = some ip) (lines : List Bytes) :
    loadLines wl (line :: lines) = loadLines ⟨some (m.set ip.string)⟩ lines := by
  simp only [loadLines, accepted, add_of_valid (validIP_iff.mpr (.inr (parseIP_length accepted))) present, bind,
    Except.bind]

theorem loadLines_canonical : ∀ (wl : Basic) (lines : List Bytes), wl.allowlist.isSome →
    (∀ k ∈ lines, ∃ ip, validIP ip = true ∧ k = ip.string) →
    ∃ wl', loadLines wl lines = .ok (.ok wl') ∧ ∀ k, k ∈ mapKeys wl'.allowlist ↔ k ∈ lines ∨ k ∈ mapKeys wl.allowlist
  | wl, [], _, _ => ⟨wl, rfl, by simp⟩
  | wl, line :: lines, nonNil, canonical => by
    obtain ⟨ip, valid, rfl⟩ := canonical line (List.mem_cons_self _ _)
    obtain ⟨q, to16⟩ : ∃ q, ip.to16 = some q := by
      rcases validIP_iff.mp valid with four | sixteen
      · exact ⟨_, to16_four four⟩
      · exact ⟨_, to16_sixteen sixteen⟩
    obtain ⟨m, present⟩ := Option.isSome_iff_exists.mp nonNil
    obtain ⟨wl', loaded, keys⟩ := loadLines_canonical ⟨some (m.set q.string)⟩ lines rfl
      (fun k member => canonical k (List.mem_cons_of_mem _ member))
    refine ⟨wl', ?_, fun k => ?_⟩
    · rw [loadLines_cons_of_parsed present ((parseIP_string (validIP_iff.mp valid)).trans to16), loaded]
    · rw [keys, string_to16 to16]
      simp only [mapKeys, BoolMap.mem_keys_set, present, List.mem_cons]
      tauto

theorem loadLines_cases : ∀ (wl : Basic) (lines : List Bytes), wl.allowlist.isSome →
    (∃ wl', loadLines wl lines = .ok (.ok wl') ∧ ∀ line ∈ lines, (parseIP line).isSome) ∨
      (loadLines wl lines = .ok (.error errInvalidAddress) ∧ ∃ line ∈ lines, parseIP line = none)
  | wl, [], _ => .inl ⟨wl, rfl, fun _ member => absurd member (List.not_mem_nil _)⟩
  | wl, line :: lines, nonNil => by
    obtain ⟨m, present⟩ := Option.isSome_iff_exists.mp nonNil
    cases parsed : parseIP line with
    | none => exact .inr ⟨by simp only [loadLines, parsed]; rfl, line, List.mem_cons_self _ _, parsed⟩
    | some ip =>
      rw [loadLines_cons_of_parsed present parsed]
      rcases loadLines_cases ⟨some (m.set ip.string)⟩ lines rfl with ⟨wl', loaded, accepted⟩ |
        ⟨failed, bad, member, rejected⟩
      · refine .inl ⟨wl', loaded, fun l member => ?_⟩
        rcases List.mem_cons.mp member with rfl | later
        · rw [parsed]
          rfl
        · exact accepted l later
      · exact .inr ⟨failed, bad, List.mem_cons_of_mem _ member, rejected⟩

/-- `LoadBasic` never panics, and returns a list exactly when `ParseIP` accepts every line. -/
theorem loadBasic_cases (inp : Bytes) :
    (∃ wl, loadBasic inp = .ok (.ok wl) ∧ ∀ line ∈ split inp 10, (parseIP line).isSome) ∨
      (loadBasic inp = .ok (.error errInvalidAddress) ∧ ∃ line ∈ split inp 10, parseIP line = none) :=
  loadLines_cases newBasic (split inp 10) rfl

/-- `DumpBasic` sorts, so its bytes are the same whatever order `range` visits the keys in. -/
theorem dumpBasic_of_perm {ss ss' : List Bytes} (perm : ss.Perm ss') : dumpBasic ss = dumpBasic ss' := by
  rw [dumpBasic, dumpBasic, sortStrings_eq_of_perm perm]

theorem dumpBasic_of_perm_swap :
    [ascii "127.0.0.1", ascii "10.0.0.1"].Perm [ascii "10.0.0.1", ascii "127.0.0.1"] ∧
      dumpBasic [ascii "127.0.0.1", ascii "10.0.0.1"] = dumpBasic [ascii "10.0.0.1", ascii "127.0.0.1"] :=
  have order : [ascii "127.0.0.1", ascii "10.0.0.1"].Perm [ascii "10.0.0.1", ascii "127.0.0.1"] := List.Perm.swap _ _ []
  ⟨order, dumpBasic_of_perm order⟩

theorem split_dumpBasic {wl : Basic} (holds : wl.Canonical) {ss : List Bytes} (order : ss.Perm (mapKeys wl.allowlist))
    (nonempty : ss ≠ []) : split (dumpBasic ss) 10 = sortStrings ss := by
  have noNewline : ∀ k ∈ sortStrings ss, 10 ∉ k := by
    intro k member newline
    obtain ⟨ip, valid, rfl⟩ := holds k (((sortStrings_perm ss).trans order).subset member)
    exact (ipChar_separators (string_chars valid 10 newline)).2.2.1 rfl
  exact split_join noNewline fun empty => nonempty (List.nil_perm.mp (empty ▸ sortStrings_perm ss))

/-- The lines `DumpBasic` writes for a non-empty list are its keys, once each, strictly increasing. -/
theorem split_dumpBasic_sorted {wl : Basic} {calls : List Call} (edits : ∀ c ∈ calls, c.IsEdit)
    (ran : newBasic.run calls = .ok wl) {ss : List Bytes} (order : ss.Perm (mapKeys wl.allowlist))
    (nonempty : ss ≠ []) :
    (split (dumpBasic ss) 10).Perm (mapKeys wl.allowlist) ∧
      (split (dumpBasic ss) 10).Pairwise fun a b => stringLess a b = true := by
  have holds := run_preserves Canonical Call.IsEdit (fun _ _ _ => canonical_edit) calls edits canonical_new ran
  rw [split_dumpBasic holds order nonempty]
  exact ⟨(sortStrings_perm ss).trans order, sortStrings_strictly (order.nodup_iff.mpr (mapKeys_nodup _))⟩

theorem split_dumpBasic_sorted_two :
    (∀ c ∈ [Call.add [127, 0, 0, 1], .add [10, 0, 0, 1]], c.IsEdit) ∧
      newBasic.run [.add [127, 0, 0, 1], .add [10, 0, 0, 1]] =
        .ok ⟨some ⟨[ascii "10.0.0.1", ascii "127.0.0.1"], by decide⟩⟩ ∧
      [ascii "127.0.0.1", ascii "10.0.0.1"].Perm (mapKeys (some ⟨[ascii "10.0.0.1", ascii "127.0.0.1"], by decide⟩)) ∧
      [ascii "127.0.0.1", ascii "10.0.0.1"] ≠ [] ∧
      (split (dumpBasic [ascii "127.0.0.1", ascii "10.0.0.1"]) 10).Perm
        (mapKeys (some ⟨[ascii "10.0.0.1", ascii "127.0.0.1"], by decide⟩)) ∧
      (split (dumpBasic [ascii "127.0.0.1", ascii "10.0.0.1"]) 10).Pairwise fun a b => stringLess a b = true :=
  ⟨twoAdds_edits, twoAdds_run, twoAdds_swapped, List.cons_ne_nil _ _,
    split_dumpBasic_sorted twoAdds_edits twoAdds_run twoAdds_swapped (List.cons_ne_nil _ _)⟩

example : dumpBasic [ascii "10.0.0.2", ascii "10.0.0.10", ascii "1.2.3.4"] =
    ascii "1.2.3.4\n10.0.0.10\n10.0.0.2" := by
  decide

/-- Away from the empty list, `LoadBasic` of `DumpBasic` gives back a list with the same answers. -/
theorem loadBasic_dumpBasic {wl : Basic} {calls : List Call} (edits : ∀ c ∈ calls, c.IsEdit)
    (ran : newBasic.run calls = .ok wl) {ss : List Bytes} (order : ss.Perm (mapKeys wl.allowlist))
    (nonempty : ss ≠ []) : ∃ wl', loadBasic (dumpBasic ss) = .ok (.ok wl') ∧ ∀ ip, wl'.permitted ip = wl.permitted ip := by
  have holds := run_preserves Canonical Call.IsEdit (fun _ _ _ => canonical_edit) calls edits canonical_new ran
  have sorted := (sortStrings_perm ss).trans order
  obtain ⟨wl', loaded, keys⟩ := loadLines_canonical newBasic (sortStrings ss) rfl fun k member =>
    holds k (sorted.subset member)
  refine ⟨wl', by rw [loadBasic, split_dumpBasic holds order nonempty, loaded], permitted_of_keys fun k => ?_⟩
  rw [keys k, ← sorted.mem_iff]
  simp [newBasic, mapKeys]

theorem loadBasic_dumpBasic_swapped :
    (∀ c ∈ [Call.add [127, 0, 0, 1], .add [10, 0, 0, 1]], c.IsEdit) ∧
      newBasic.run [.add [127, 0, 0, 1], .add [10, 0, 0, 1]] =
        .ok ⟨some ⟨[ascii "10.0.0.1", ascii "127.0.0.1"], by decide⟩⟩ ∧
      [ascii "127.0.0.1", ascii "10.0.0.1"].Perm (mapKeys (some ⟨[ascii "10.0.0.1", ascii "127.0.0.1"], by decide⟩)) ∧
      [ascii "127.0.0.1", ascii "10.0.0.1"] ≠ [] ∧
      ∃ wl', loadBasic (dumpBasic [ascii "127.0.0.1", ascii "10.0.0.1"]) = .ok (.ok wl') ∧
        ∀ ip, wl'.permitted ip = Basic.permitted ⟨some ⟨[ascii "10.0.0.1", ascii "127.0.0.1"], by decide⟩⟩ ip :=
  ⟨twoAdds_edits, twoAdds_run, twoAdds_swapped, List.cons_ne_nil _ _,
    loadBasic_dumpBasic twoAdds_edits twoAdds_run twoAdds_swapped (List.cons_ne_nil _ _)⟩

/-- `MarshalJSON` writes a quoted string of address characters and commas, with nothing to escape. -/
theorem marshalJSON_plain {wl : Basic} {calls : List Call} (edits : ∀ c ∈ calls, c.IsEdit)
    (ran : newBasic.run calls = .ok wl) {ss : List Bytes} (order : ss.Perm (mapKeys wl.allowlist)) :
    ∃ body, marshalJSON ss = 34 :: body ++ [34] ∧ ∀ c ∈ body, ipChar c = true ∨ c = 44 := by
  have holds := run_preserves Canonical Call.IsEdit (fun _ _ _ => canonical_edit) calls edits canonical_new ran
  refine ⟨join ss 44, rfl, fun c member => ?_⟩
  rcases mem_join member with comma | ⟨k, key, inside⟩
  · exact .inr comma
  · obtain ⟨ip, valid, rfl⟩ := holds k (order.subset key)
    exact .inl (ipChar_of_mem_string (validIP_iff.mp valid) c inside)

theorem marshalJSON_plain_swapped :
    (∀ c ∈ [Call.add [127, 0, 0, 1], .add [10, 0, 0, 1]], c.IsEdit) ∧
      newBasic.run [.add [127, 0, 0, 1], .add [10, 0, 0, 1]] =
        .ok ⟨some ⟨[ascii "10.0.0.1", ascii "127.0.0.1"], by decide⟩⟩ ∧
      [ascii "127.0.0.1", ascii "10.0.0.1"].Perm (mapKeys (some ⟨[ascii "10.0.0.1", ascii "127.0.0.1"], by decide⟩)) ∧
      ∃ body, marshalJSON [ascii "127.0.0.1", ascii "10.0.0.1"] = 34 :: body ++ [34] ∧
        ∀ c ∈ body, ipChar c = true ∨ c = 44 :=
  ⟨twoAdds_edits, twoAdds_run, twoAdds_swapped, marshalJSON_plain twoAdds_edits twoAdds_run twoAdds_swapped⟩

/-- At the empty list `DumpBasic` writes one empty line, which `LoadBasic` rejects. -/
theorem loadBasic_dumpBasic_empty :
    loadBasic (dumpBasic (mapKeys newBasic.allowlist)) = .ok (.error errInvalidAddress) := by
  decide

end Basic

end Allowlist
