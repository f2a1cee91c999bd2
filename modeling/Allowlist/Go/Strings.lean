import Mathlib.Data.List.Sort

namespace Go

/-- A Go `string` or `[]byte`: both are sequences of bytes. -/
abbrev Bytes := List UInt8

def ascii (s : String) : Bytes := s.toList.map fun c => c.toNat.toUInt8

/-- The run-time panics the modelled code can raise. -/
inductive Panic
  | indexOutOfRange (index length : Nat)
  | sliceBoundsOutOfRange (low high : Nat)
  | assignmentToEntryInNilMap
  | nilPointerDereference
  deriving DecidableEq, Repr

instance decEqExcept {ε α : Type} [DecidableEq ε] [DecidableEq α] : DecidableEq (Except ε α)
  | .error a, .error b => decidable_of_iff (a = b) ⟨congrArg _, fun same => by injection same⟩
  | .ok a, .ok b => decidable_of_iff (a = b) ⟨congrArg _, fun same => by injection same⟩
  | .error _, .ok _ => isFalse Except.noConfusion
  | .ok _, .error _ => isFalse Except.noConfusion

theorem map_eq_ok {ε α β : Type} {f : α → β} {x : Except ε α} {b : β} (mapped : f <$> x = .ok b) :
    ∃ a, x = .ok a ∧ f a = b := by
  cases x with
  | error e => cases mapped
  | ok a => exact ⟨a, rfl, by cases mapped; rfl⟩

theorem toNat_toUInt8 (n : Nat) : n.toUInt8.toNat = n % 256 := by
  simp [Nat.toUInt8, UInt8.ofNat, UInt8.toNat, BitVec.toNat_ofNat]

theorem UInt8.eq_iff_toNat {a b : UInt8} : a = b ↔ a.toNat = b.toNat :=
  ⟨congrArg _, UInt8.toNat.inj⟩

theorem UInt8.lt_iff_toNat {a b : UInt8} : a < b ↔ a.toNat < b.toNat := Iff.rfl

theorem toUInt8_toNat (a : UInt8) : a.toNat.toUInt8 = a := by
  have bound := a.toNat_lt_size
  exact UInt8.toNat.inj (by rw [toNat_toUInt8]; exact Nat.mod_eq_of_lt bound)

def isGraphic (c : UInt8) : Bool := 0x21 ≤ c.toNat && c.toNat ≤ 0x7E

/-- UTF-8 encodings of the runes `unicode.IsSpace` accepts. -/
def spaceRunes : List Bytes :=
  [[0x09], [0x0A], [0x0B], [0x0C], [0x0D], [0x20], [0xC2, 0x85], [0xC2, 0xA0],
    [0xE1, 0x9A, 0x80], [0xE2, 0x80, 0x80], [0xE2, 0x80, 0x81], [0xE2, 0x80, 0x82],
    [0xE2, 0x80, 0x83], [0xE2, 0x80, 0x84], [0xE2, 0x80, 0x85], [0xE2, 0x80, 0x86],
    [0xE2, 0x80, 0x87], [0xE2, 0x80, 0x88], [0xE2, 0x80, 0x89], [0xE2, 0x80, 0x8A],
    [0xE2, 0x80, 0xA8], [0xE2, 0x80, 0xA9], [0xE2, 0x80, 0xAF], [0xE2, 0x81, 0x9F],
    [0xE3, 0x80, 0x80]]

def trimLeftSpace : Nat → Bytes → Bytes
  | 0, s => s
  | fuel + 1, s =>
    match spaceRunes.find? (·.isPrefixOf s) with
    | some r => trimLeftSpace fuel (s.drop r.length)
    | none => s

def trimRightSpace : Nat → Bytes → Bytes
  | 0, s => s
  | fuel + 1, s =>
    match spaceRunes.find? (·.isSuffixOf s) with
    | some r => trimRightSpace fuel (s.take (s.length - r.length))
    | none => s

/-- `strings.TrimSpace`; `s.length` passes suffice, as each pass removes a byte. -/
def trimSpace (s : Bytes) : Bytes := trimRightSpace s.length (trimLeftSpace s.length s)

theorem spaceRunes_head_not_graphic :
    ∀ r ∈ spaceRunes, ∀ c ∈ r.head?, isGraphic c = false := by decide

theorem spaceRunes_last_not_graphic :
    ∀ r ∈ spaceRunes, ∀ c ∈ r.getLast?, isGraphic c = false := by decide

theorem spaceRunes_ne_nil : ∀ r ∈ spaceRunes, r ≠ [] := by decide

theorem trimLeftSpace_of_graphic {s : Bytes} (graphic : ∀ c ∈ s, isGraphic c) :
    ∀ fuel, trimLeftSpace fuel s = s
  | 0 => rfl
  | fuel + 1 => by
    have noRune : spaceRunes.find? (·.isPrefixOf s) = none := by
      rw [List.find?_eq_none]
      intro r member starts
      obtain ⟨c, rest, rfl⟩ := List.exists_cons_of_ne_nil (spaceRunes_ne_nil r member)
      obtain ⟨t, rfl⟩ := List.isPrefixOf_iff_prefix.mp starts
      have head := spaceRunes_head_not_graphic _ member c rfl
      rw [graphic c (by simp)] at head
      exact absurd head (by decide)
    simp only [trimLeftSpace, noRune]

theorem trimRightSpace_of_graphic {s : Bytes} (graphic : ∀ c ∈ s, isGraphic c) :
    ∀ fuel, trimRightSpace fuel s = s
  | 0 => rfl
  | fuel + 1 => by
    have noRune : spaceRunes.find? (·.isSuffixOf s) = none := by
      rw [List.find?_eq_none]
      intro r member ends
      obtain ⟨rest, c, rfl⟩ := List.eq_nil_or_concat r |>.resolve_left (spaceRunes_ne_nil r member)
      obtain ⟨t, rfl⟩ := List.isSuffixOf_iff_suffix.mp ends
      have last := spaceRunes_last_not_graphic _ member c (by simp)
      rw [graphic c (by simp)] at last
      exact absurd last (by decide)
    simp only [trimRightSpace, noRune]

theorem trimSpace_of_graphic {s : Bytes} (graphic : ∀ c ∈ s, isGraphic c) : trimSpace s = s := by
  rw [trimSpace, trimLeftSpace_of_graphic graphic, trimRightSpace_of_graphic graphic]

/-- `strings.Split(s, sep)` for a one-byte `sep`: the empty string gives one empty piece. -/
def split (s : Bytes) (sep : UInt8) : List Bytes := s.splitOn sep

/-- `strings.Join(elems, sep)` for a one-byte `sep`. -/
def join (elems : List Bytes) (sep : UInt8) : Bytes := [sep].intercalate elems

/-- Go's order on strings: bytewise lexicographic. -/
def stringLess : Bytes → Bytes → Bool
  | [], [] => false
  | [], _ :: _ => true
  | _ :: _, [] => false
  | a :: as, b :: bs => if a < b then true else if b < a then false else stringLess as bs

/-- `sort.Strings`, as an insertion sort. -/
def sortStrings (ss : List Bytes) : List Bytes := ss.insertionSort fun a b => !stringLess b a

theorem split_join {elems : List Bytes} {sep : UInt8} (apart : ∀ e ∈ elems, sep ∉ e) (nonempty : elems ≠ []) :
    split (join elems sep) sep = elems := by
  exact List.splitOn_intercalate elems sep apart nonempty

theorem join_nil (sep : UInt8) : join [] sep = [] := rfl

theorem join_cons_cons (e e' : Bytes) (rest : List Bytes) (sep : UInt8) :
    join (e :: e' :: rest) sep = e ++ sep :: join (e' :: rest) sep := by
  simp [join, List.intercalate, List.intersperse_cons_cons]

theorem join_singleton (e : Bytes) (sep : UInt8) : join [e] sep = e := by
  simp [join, List.intercalate]

theorem mem_join {c sep : UInt8} : ∀ {elems : List Bytes}, c ∈ join elems sep → c = sep ∨ ∃ e ∈ elems, c ∈ e
  | [], member => by simp [join_nil] at member
  | [e], member => .inr ⟨e, by simp, by rwa [join_singleton] at member⟩
  | e :: e' :: rest, member => by
    rw [join_cons_cons] at member
    rcases List.mem_append.mp member with early | late
    · exact .inr ⟨e, by simp, early⟩
    · rcases List.mem_cons.mp late with same | later
      · exact .inl same
      · rcases mem_join later with same | ⟨f, inside, byte⟩
        · exact .inl same
        · exact .inr ⟨f, List.mem_cons_of_mem e inside, byte⟩

theorem stringLess_cons_cons (x y : UInt8) (a b : Bytes) :
    stringLess (x :: a) (y :: b) = true ↔ x < y ∨ x = y ∧ stringLess a b = true := by
  rw [stringLess]
  by_cases xy : x < y
  · simp [xy]
  by_cases yx : y < x
  · rw [if_neg xy, if_pos yx]
    simp only [xy, false_or, Bool.false_eq_true, false_iff, not_and]
    rintro rfl
    exact absurd yx (UInt8.lt_irrefl _)
  · have same : x = y := UInt8.eq_iff_toNat.mpr (by rw [UInt8.lt_iff_toNat] at xy yx; omega)
    simp [xy, yx, same]

theorem stringLess_irrefl : ∀ a : Bytes, stringLess a a = false
  | [] => rfl
  | x :: a => by rw [stringLess, if_neg (UInt8.lt_irrefl x), if_neg (UInt8.lt_irrefl x), stringLess_irrefl a]

theorem stringLess_trans : ∀ {a b c : Bytes}, stringLess a b = true → stringLess b c = true → stringLess a c = true
  | [], _ :: _, _ :: _, _, _ => rfl
  | x :: a, y :: b, z :: c, ab, bc => by
    rw [stringLess_cons_cons] at ab bc ⊢
    rcases ab with xy | ⟨rfl, ab⟩ <;> rcases bc with yz | ⟨rfl, bc⟩
    · exact .inl (UInt8.lt_trans xy yz)
    · exact .inl xy
    · exact .inl yz
    · exact .inr ⟨rfl, stringLess_trans ab bc⟩

theorem eq_of_not_stringLess : ∀ {a b : Bytes}, stringLess a b = false → stringLess b a = false → a = b
  | [], [], _, _ => rfl
  | [], _ :: _, ab, _ => by cases ab
  | _ :: _, [], _, ba => by cases ba
  | x :: a, y :: b, ab, ba => by
    rw [← Bool.not_eq_true, stringLess_cons_cons, not_or, not_and, Bool.not_eq_true] at ab ba
    obtain rfl : x = y := UInt8.eq_iff_toNat.mpr (by
      have below := ab.1
      have above := ba.1
      rw [UInt8.lt_iff_toNat] at below above
      omega)
    rw [eq_of_not_stringLess (ab.2 rfl) (ba.2 rfl)]

theorem stringLess_asymm {a b : Bytes} (ab : stringLess a b = true) : stringLess b a = false :=
  Bool.eq_false_iff.mpr fun ba => by simpa [stringLess_irrefl] using stringLess_trans ab ba

theorem sortStrings_perm (ss : List Bytes) : (sortStrings ss).Perm ss := List.perm_insertionSort _ _

theorem sortStrings_sorted (ss : List Bytes) : (sortStrings ss).Sorted fun a b => (!stringLess b a) = true := by
  haveI : IsTotal Bytes fun a b => (!stringLess b a) = true := ⟨fun a b => by
    cases ab : stringLess a b
    · exact .inr rfl
    · exact .inl (by rw [stringLess_asymm ab]; rfl)⟩
  haveI : IsTrans Bytes fun a b => (!stringLess b a) = true := ⟨fun a b c ab bc => by
    simp only [Bool.not_eq_true', Bool.not_eq_eq_eq_not, Bool.not_true] at ab bc ⊢
    cases bc' : stringLess b c
    · rw [eq_of_not_stringLess bc' bc] at ab
      exact ab
    · cases ca : stringLess c a
      · rfl
      · rw [stringLess_trans bc' ca] at ab
        cases ab⟩
  exact List.sorted_insertionSort _ ss

theorem sortStrings_eq_of_perm {ss ss' : List Bytes} (perm : ss.Perm ss') : sortStrings ss = sortStrings ss' := by
  haveI : IsAntisymm Bytes fun a b => (!stringLess b a) = true := ⟨fun a b ab ba => by
    simp only [Bool.not_eq_true', Bool.not_eq_eq_eq_not, Bool.not_true] at ab ba
    exact eq_of_not_stringLess ba ab⟩
  exact List.eq_of_perm_of_sorted ((sortStrings_perm ss).trans (perm.trans (sortStrings_perm ss').symm))
    (sortStrings_sorted ss) (sortStrings_sorted ss')

theorem sortStrings_strictly {ss : List Bytes} (nodup : ss.Nodup) :
    (sortStrings ss).Pairwise fun a b => stringLess a b = true :=
  ((sortStrings_sorted ss).and ((sortStrings_perm ss).nodup_iff.mpr nodup)).imp fun ⟨below, apart⟩ => by
    simp only [Bool.not_eq_true', Bool.not_eq_eq_eq_not, Bool.not_true] at below
    cases ab : stringLess _ _
    · exact absurd (eq_of_not_stringLess ab below) apart
    · rfl

def lastIndexByte (s : Bytes) (c : UInt8) : Option Nat :=
  (s.reverse.indexOf? c).map fun j => s.length - 1 - j

theorem indexOf?_append_cons {a : Bytes} {c : UInt8} (missing : c ∉ a) (b : Bytes) :
    (a ++ c :: b).indexOf? c = some a.length := by
  have none : a.indexOf? c = none :=
    List.indexOf?_eq_none_iff.mpr fun x member same => missing (eq_of_beq same ▸ member)
  rw [List.indexOf?, List.findIdx?_append, ← List.indexOf?, none, Option.none_or, List.findIdx?_cons]
  simp

theorem indexOf?_eq_some {c : UInt8} : ∀ {s : Bytes} {j : Nat}, s.indexOf? c = some j →
    ∃ a b, s = a ++ c :: b ∧ c ∉ a ∧ j = a.length
  | x :: s, j, found => by
    rw [List.indexOf?_cons] at found
    split at found
    · rename_i same
      cases found
      exact ⟨[], s, by rw [eq_of_beq same]; rfl, List.not_mem_nil _, rfl⟩
    · rename_i other
      obtain ⟨j', rest, rfl⟩ := Option.map_eq_some'.mp found
      obtain ⟨a, b, rfl, missing, rfl⟩ := indexOf?_eq_some rest
      refine ⟨x :: a, b, rfl, fun member => ?_, rfl⟩
      rcases List.mem_cons.mp member with same | later
      · exact other (same ▸ beq_self_eq_true c)
      · exact missing later

theorem lastIndexByte_append_cons (a : Bytes) {b : Bytes} {c : UInt8} (missing : c ∉ b) :
    lastIndexByte (a ++ c :: b) c = some a.length := by
  rw [lastIndexByte, List.reverse_append, List.reverse_cons, List.append_assoc, List.singleton_append,
    indexOf?_append_cons (by simpa using missing)]
  simp only [Option.map_some', List.length_append, List.length_cons, List.length_reverse]
  congr 1
  omega

theorem lastIndexByte_eq_some {s : Bytes} {c : UInt8} {i : Nat} (found : lastIndexByte s c = some i) :
    ∃ a b, s = a ++ c :: b ∧ c ∉ b ∧ i = a.length := by
  obtain ⟨j, reversed, rfl⟩ := Option.map_eq_some'.mp found
  obtain ⟨r, t, split, missing, rfl⟩ := indexOf?_eq_some reversed
  refine ⟨t.reverse, r.reverse, ?_, by simpa using missing, ?_⟩
  · rw [← List.reverse_reverse s, split]
    simp
  · have length := congrArg List.length split
    simp only [List.length_reverse, List.length_append, List.length_cons] at length
    simp only [List.length_reverse]
    omega

end Go
