import Allowlist.Network.BasicNet

namespace Allowlist

open Go Go.Net

/-- Where the unlocked `MarshalJSON` loop of `BasicNet` stands: before reading the length, or at an entry. -/
inductive Reader
  | start
  | reading (length : Nat) (texts : List Bytes)
  deriving DecidableEq

namespace Reader

/-- The loop's next read of the shared slice: `len(wl.allowlist)` first, then `wl.allowlist[i]`. -/
def next (wl : BasicNet) : Reader → Except Panic Reader
  | start => .ok (reading wl.allowlist.length [])
  | reading n texts =>
    if texts.length < n then
      match wl.allowlist[texts.length]? with
      | none => .error (.indexOutOfRange texts.length wl.allowlist.length)
      | some e => .ok (reading n (texts ++ [IPNet.string e]))
    else .ok (reading n texts)

def output : Reader → Option Bytes
  | start => none
  | reading n texts => if texts.length = n then some (quoteJoin texts) else none

end Reader

inductive Turn
  | marshal
  | other (c : NetCall)

/-- An interleaving of the turns, stopped by the first panic. -/
def interleave (wl : BasicNet) (reader : Reader) : List Turn → Except Panic (BasicNet × Reader)
  | [] => .ok (wl, reader)
  | .marshal :: turns => do interleave wl (← reader.next wl) turns
  | .other c :: turns => do interleave (← wl.step c) reader turns

theorem interleave_reading (wl : BasicNet) : ∀ j i, i + j ≤ wl.allowlist.length →
    interleave wl (.reading wl.allowlist.length ((wl.allowlist.take i).map IPNet.string)) (List.replicate j .marshal) =
      .ok (wl, .reading wl.allowlist.length ((wl.allowlist.take (i + j)).map IPNet.string))
  | 0, i, _ => rfl
  | j + 1, i, room => by
    have short : i < wl.allowlist.length := by omega
    have read : Reader.next wl (.reading wl.allowlist.length ((wl.allowlist.take i).map IPNet.string)) =
        .ok (.reading wl.allowlist.length ((wl.allowlist.take (i + 1)).map IPNet.string)) := by
      have length : ((wl.allowlist.take i).map IPNet.string).length = i := by simp [Nat.min_eq_left short.le]
      rw [Reader.next, length, if_pos short, List.getElem?_eq_getElem short, List.take_succ,
        List.getElem?_eq_getElem short, List.map_append]
      rfl
    simp only [List.replicate_succ, interleave, read, bind, Except.bind]
    rw [interleave_reading wl j (i + 1) (by omega), show i + 1 + j = i + (j + 1) by omega]

theorem interleave_marshal (wl : BasicNet) (k : Nat) (room : k ≤ wl.allowlist.length) :
    interleave wl .start (List.replicate (k + 1) .marshal) =
      .ok (wl, .reading wl.allowlist.length ((wl.allowlist.take k).map IPNet.string)) := by
  simp only [List.replicate_succ, interleave, Reader.next, bind, Except.bind]
  simpa using interleave_reading wl k 0 (by omega)

theorem output_interleave_marshal (wl : BasicNet) :
    (interleave wl .start (List.replicate (wl.allowlist.length + 1) .marshal)).map (·.2.output) =
      .ok (some wl.marshalJSON) := by
  rw [interleave_marshal wl _ (le_refl _), List.take_length]
  simp [Except.map, Reader.output, BasicNet.marshalJSON]

def Turn.call? : Turn → Option NetCall
  | .marshal => none
  | .other c => some c

def Turn.IsReadOrAdd : Turn → Prop
  | .marshal => True
  | .other (.add _) => True
  | .other (.remove _) => False
  | .other (.unmarshalJSON _) => False

def Reader.Reads (snap : List (Option IPNet)) (wl : BasicNet) : Reader → Prop
  | .start => False
  | .reading n texts =>
    n = snap.length ∧ snap <+: wl.allowlist ∧ texts.length ≤ n ∧ texts = (snap.take texts.length).map IPNet.string

theorem reads_start (wl : BasicNet) : (Reader.reading wl.allowlist.length []).Reads wl.allowlist wl :=
  ⟨rfl, List.prefix_refl _, Nat.zero_le _, rfl⟩

theorem reads_next {snap : List (Option IPNet)} {wl : BasicNet} {r : Reader} (reads : r.Reads snap wl) :
    ∃ r', r.next wl = .ok r' ∧ r'.Reads snap wl := by
  cases r with
  | start => cases reads
  | reading n texts =>
    obtain ⟨rfl, ⟨rest, whole⟩, bound, texts_eq⟩ := reads
    by_cases more : texts.length < snap.length
    · have entry : wl.allowlist[texts.length]? = some snap[texts.length] := by
        rw [← whole, List.getElem?_append_left more, List.getElem?_eq_getElem more]
      refine ⟨.reading snap.length (texts ++ [IPNet.string snap[texts.length]]),
        by rw [Reader.next, if_pos more, entry], rfl, ⟨rest, whole⟩, by simpa using more, ?_⟩
      rw [List.length_append, List.length_singleton, List.take_succ, List.getElem?_eq_getElem more,
        List.map_append, ← texts_eq]
      rfl
    · exact ⟨.reading snap.length texts, by rw [Reader.next, if_neg more], rfl, ⟨rest, whole⟩, bound, texts_eq⟩

theorem reads_add {snap : List (Option IPNet)} {wl : BasicNet} {r : Reader} (reads : r.Reads snap wl)
    (n : Option IPNet) : r.Reads snap (wl.add n) := by
  cases r with
  | start => cases reads
  | reading k texts =>
    obtain ⟨sized, before, bound, read⟩ := reads
    refine ⟨sized, ?_, bound, read⟩
    cases n with
    | none => exact before
    | some _ => exact before.trans (List.prefix_append _ _)

theorem interleave_reads : ∀ {snap : List (Option IPNet)} {wl : BasicNet} {r : Reader} (turns : List Turn),
    (∀ t ∈ turns, t.IsReadOrAdd) → r.Reads snap wl →
    ∃ wl' r', interleave wl r turns = .ok (wl', r') ∧ r'.Reads snap wl'
  | _, wl, r, [], _, reads => ⟨wl, r, rfl, reads⟩
  | _, wl, r, .marshal :: turns, allowed, reads => by
    obtain ⟨r', read, reads'⟩ := reads_next reads
    obtain ⟨wl', r'', rest, final⟩ :=
      interleave_reads turns (fun t member => allowed t (List.mem_cons_of_mem _ member)) reads'
    exact ⟨wl', r'', by simp only [interleave, read, bind, Except.bind, rest], final⟩
  | _, wl, r, .other (.add n) :: turns, allowed, reads => by
    obtain ⟨wl', r', rest, final⟩ :=
      interleave_reads turns (fun t member => allowed t (List.mem_cons_of_mem _ member)) (reads_add reads n)
    exact ⟨wl', r', by simp only [interleave, BasicNet.step, bind, Except.bind, rest], final⟩
  | _, _, _, .other (.remove _) :: _, allowed, _ => (allowed _ (List.mem_cons_self _ _)).elim
  | _, _, _, .other (.unmarshalJSON _) :: _, allowed, _ => (allowed _ (List.mem_cons_self _ _)).elim

theorem output_of_reads {snap : List (Option IPNet)} {wl : BasicNet} {r : Reader} (reads : r.Reads snap wl)
    {b : Bytes} (done : r.output = some b) : b = BasicNet.marshalJSON ⟨snap⟩ := by
  cases r with
  | start => cases reads
  | reading n texts =>
    obtain ⟨rfl, -, -, texts_eq⟩ := reads
    by_cases all : texts.length = snap.length
    · rw [Reader.output, if_pos all] at done
      cases done
      rw [texts_eq, all, List.take_length]
      rfl
    · rw [Reader.output, if_neg all] at done
      cases done

/-- Beside `Add`s only, the unlocked loop returns `MarshalJSON` of a state the list held. -/
theorem interleave_adds_snapshot (wl : BasicNet) : ∀ (turns : List Turn), (∀ t ∈ turns, t.IsReadOrAdd) →
    ∃ wl' r, interleave wl .start turns = .ok (wl', r) ∧
      ∀ b, r.output = some b → ∃ k s, wl.run ((turns.filterMap Turn.call?).take k) = .ok s ∧ b = s.marshalJSON
  | [], _ => ⟨wl, .start, rfl, fun b done => by cases done⟩
  | .marshal :: turns, allowed => by
    obtain ⟨wl', r, rest, reads⟩ :=
      interleave_reads turns (fun t member => allowed t (List.mem_cons_of_mem _ member)) (reads_start wl)
    exact ⟨wl', r, by simp only [interleave, Reader.next, bind, Except.bind, rest],
      fun b done => ⟨0, wl, rfl, output_of_reads reads done⟩⟩
  | .other (.add n) :: turns, allowed => by
    obtain ⟨wl', r, rest, snapshot⟩ :=
      interleave_adds_snapshot (wl.add n) turns (fun t member => allowed t (List.mem_cons_of_mem _ member))
    refine ⟨wl', r, by simp only [interleave, BasicNet.step, bind, Except.bind, rest], fun b done => ?_⟩
    obtain ⟨k, s, ran, output⟩ := snapshot b done
    exact ⟨k + 1, s, by simp only [List.filterMap_cons, Turn.call?, List.take_succ_cons, BasicNet.run,
      BasicNet.step, bind, Except.bind, ran], output⟩
  | .other (.remove _) :: _, allowed => (allowed _ (List.mem_cons_self _ _)).elim
  | .other (.unmarshalJSON _) :: _, allowed => (allowed _ (List.mem_cons_self _ _)).elim

theorem interleave_adds_snapshot_add :
    ∃ wl' r, interleave ⟨[some ⟨[10, 0, 0, 0], [255, 0, 0, 0]⟩]⟩ .start
        [.marshal, .other (.add (some ⟨[11, 0, 0, 0], [255, 0, 0, 0]⟩)), .marshal, .marshal] = .ok (wl', r) ∧
      ∀ b, r.output = some b → ∃ k s, BasicNet.run ⟨[some ⟨[10, 0, 0, 0], [255, 0, 0, 0]⟩]⟩
        ([.add (some ⟨[11, 0, 0, 0], [255, 0, 0, 0]⟩)].take k) = .ok s ∧ b = s.marshalJSON :=
  interleave_adds_snapshot _ _ (by
    intro t member
    simp only [List.mem_cons, List.mem_singleton, List.not_mem_nil, or_false] at member
    rcases member with rfl | rfl | rfl | rfl <;> trivial)

/-- A `Remove` between two reads of the unlocked loop sends it past the end of the slice. -/
theorem interleave_remove_panics :
    interleave ⟨[some ⟨[10, 0, 0, 0], [255, 0, 0, 0]⟩, some ⟨[11, 0, 0, 0], [255, 0, 0, 0]⟩,
        some ⟨[12, 0, 0, 0], [255, 0, 0, 0]⟩]⟩ .start
      [.marshal, .marshal, .other (.remove (some ⟨[10, 0, 0, 0], [255, 0, 0, 0]⟩)), .marshal, .marshal] =
      .error (.indexOutOfRange 2 2) := by
  decide

end Allowlist
