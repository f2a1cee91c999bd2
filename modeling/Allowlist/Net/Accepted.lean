import Allowlist.Net.IPRoundTrip

namespace Go.Net

open Go

def ipChar (c : UInt8) : Bool := (hexValue c).isSome || c == 46 || c == 58

theorem ipChar_range {c : UInt8} (char : ipChar c = true) : 46 ≤ c.toNat ∧ c.toNat ≤ 102 ∧ c.toNat ≠ 47 := by
  unfold ipChar hexValue at char
  have n46 : c = 46 ↔ c.toNat = 46 := UInt8.eq_iff_toNat
  have n58 : c = 58 ↔ c.toNat = 58 := UInt8.eq_iff_toNat
  split_ifs at char <;> simp only [Option.isSome_some, Option.isSome_none, Bool.true_or, Bool.false_or,
    beq_iff_eq, Bool.or_eq_true, n46, n58] at char <;> omega

theorem ipChar_separators {c : UInt8} (char : ipChar c = true) :
    isGraphic c = true ∧ c ≠ 44 ∧ c ≠ 10 ∧ c ≠ 47 := by
  obtain ⟨low, high, slash⟩ := ipChar_range char
  refine ⟨?_, ?_, ?_, ?_⟩
  · simp only [isGraphic, Bool.and_eq_true, decide_eq_true_eq]
    omega
  · rintro rfl
    exact absurd low (by decide)
  · rintro rfl
    exact absurd low (by decide)
  · rintro rfl
    exact slash rfl

theorem ipChar_of_isDigit {c : UInt8} (digit : isDigit c = true) : ipChar c = true := by
  simp only [isDigit, Bool.and_eq_true, decide_eq_true_eq] at digit
  simp [ipChar, hexValue, digit]

theorem ipChar_of_hexValue {c : UInt8} (hex : (hexValue c).isSome = true) : ipChar c = true := by
  simp [ipChar, hex]

theorem dtoiLoop_digits {m k : Nat} : ∀ (s : Bytes) (n i : Nat), dtoiLoop n i s = (m, k, true) →
    i ≤ k ∧ ∀ x ∈ s.take (k - i), isDigit x = true
  | [], n, i, ok => by
    unfold dtoiLoop at ok
    split at ok
    · cases ok
    · cases ok
      simp
  | c :: s, n, i, ok => by
    unfold dtoiLoop at ok
    split at ok
    · rename_i digit
      split at ok
      · cases ok
      · obtain ⟨read, rest⟩ := dtoiLoop_digits s _ _ ok
        refine ⟨by omega, ?_⟩
        rw [show k - i = (k - (i + 1)) + 1 by omega, List.take_succ_cons]
        intro x member
        rcases List.mem_cons.mp member with rfl | later
        · exact digit
        · exact rest x later
    · split at ok
      · cases ok
      · cases ok
        simp

theorem xtoiLoop_hexDigits {m k : Nat} : ∀ (s : Bytes) (n i : Nat), xtoiLoop n i s = (m, k, true) →
    i ≤ k ∧ ∀ x ∈ s.take (k - i), (hexValue x).isSome = true
  | [], n, i, ok => by
    unfold xtoiLoop at ok
    split at ok
    · cases ok
    · cases ok
      simp
  | c :: s, n, i, ok => by
    unfold xtoiLoop at ok
    split at ok
    · rename_i d value
      split at ok
      · cases ok
      · obtain ⟨read, rest⟩ := xtoiLoop_hexDigits s _ _ ok
        refine ⟨by omega, ?_⟩
        rw [show k - i = (k - (i + 1)) + 1 by omega, List.take_succ_cons]
        intro x member
        rcases List.mem_cons.mp member with rfl | later
        · simp [value]
        · exact rest x later
    · split at ok
      · cases ok
      · cases ok
        simp

def ReadsTo (s r : Bytes) : Prop := ∃ t, s = t ++ r ∧ ∀ x ∈ t, ipChar x = true

theorem ReadsTo.refl (s : Bytes) : ReadsTo s s := ⟨[], rfl, by simp⟩

theorem ReadsTo.append {d s r : Bytes} (chars : ∀ x ∈ d, ipChar x = true) (rest : ReadsTo s r) :
    ReadsTo (d ++ s) r := by
  obtain ⟨t, rfl, tChars⟩ := rest
  refine ⟨d ++ t, (List.append_assoc _ _ _).symm, fun x member => ?_⟩
  rcases List.mem_append.mp member with early | late
  · exact chars x early
  · exact tChars x late

theorem ReadsTo.take_drop {s r : Bytes} {c : Nat} (chars : ∀ x ∈ s.take c, ipChar x = true)
    (rest : ReadsTo (s.drop c) r) : ReadsTo s r := by
  rw [← List.take_append_drop c s]
  exact rest.append chars

theorem ReadsTo.whole {s : Bytes} (chars : ∀ x ∈ s, ipChar x = true) : ReadsTo s [] :=
  ⟨s, (List.append_nil s).symm, chars⟩

theorem parseIPv4Octets_chars {q r : Bytes} : ∀ (k i : Nat) (p s : Bytes), parseIPv4Octets i p s k = some (q, r) →
    ReadsTo s r
  | 0, i, p, s, ok => by
    cases ok
    exact .refl _
  | k + 1, i, p, s, ok => by
    unfold parseIPv4Octets at ok
    split at ok
    · cases ok
    split at ok
    · cases ok
    rename_i nonempty dot
    generalize after : (if i > 0 then s.tail else s) = s' at ok
    have start : ∃ d, s = d ++ s' ∧ ∀ x ∈ d, ipChar x = true := by
      subst after
      split
      · obtain ⟨c, rest, rfl⟩ := List.exists_cons_of_ne_nil nonempty
        have : c = 46 := by simpa using not_and.mp dot ‹_›
        exact ⟨[c], rfl, by simp [this]; decide⟩
      · exact ⟨[], rfl, by simp⟩
    obtain ⟨d, rfl, dChars⟩ := start
    dsimp only at ok
    rcases read : dtoi s' with ⟨n, c, ok'⟩
    rw [read] at ok
    split at ok
    · cases ok
    split at ok
    · cases ok
    have success : ok' = true ∧ n ≤ 0xFF := by simpa using ‹¬(!ok' || decide (n > 0xFF)) = true›
    obtain ⟨rfl, -⟩ := success
    obtain ⟨-, digits⟩ := dtoiLoop_digits s' 0 0 read
    exact (ReadsTo.take_drop (fun x member => ipChar_of_isDigit (digits x (by simpa using member)))
      (parseIPv4Octets_chars k _ _ _ ok)).append dChars

theorem parseIPv4_chars {s : Bytes} {ip : IP} (ok : parseIPv4 s = some ip) : ∀ x ∈ s, ipChar x = true := by
  unfold parseIPv4 at ok
  split at ok
  · rename_i p read
    obtain ⟨t, rfl, chars⟩ := parseIPv4Octets_chars 4 0 [] s read
    simpa using chars
  · cases ok

theorem parseIPv6Loop_cases {fuel : Nat} {ip s q r : Bytes} {e e' : Option Nat}
    (ok : parseIPv6Loop (fuel + 1) ip e s = some (q, e', r)) :
    (q = ip ∧ e' = e ∧ r = s) ∨
    (∃ ip4, parseIPv4 s = some ip4 ∧ ip.length + 4 ≤ 16 ∧ q = ip ++ ip4.drop 12 ∧ e' = e ∧ r = []) ∨
    (∃ d rest two e₁, ip.length < 16 ∧ s = d ++ rest ∧ (∀ x ∈ d, ipChar x = true) ∧ two.length = 2 ∧
      (e₁ = e ∨ e₁ = some (ip.length + 2)) ∧
      ((rest = [] ∧ q = ip ++ two ∧ e' = e₁ ∧ r = []) ∨ parseIPv6Loop fuel (ip ++ two) e₁ rest = some (q, e', r))) := by
  unfold parseIPv6Loop at ok
  by_cases short : ip.length < 16
  · rw [if_pos short] at ok
    rcases read : xtoi s with ⟨n, c, ok'⟩
    rw [read] at ok
    dsimp only at ok
    by_cases bad : (!ok' || decide (n > 0xFFFF)) = true
    · rw [if_pos bad] at ok
      cases ok
    rw [if_neg bad] at ok
    have success : ok' = true ∧ n ≤ 0xFFFF := by simpa using bad
    obtain ⟨rfl, -⟩ := success
    obtain ⟨-, hexDigits⟩ := xtoiLoop_hexDigits s 0 0 read
    have group : ∀ sep : Bytes, (∀ x ∈ sep, x = 58) → ∀ x ∈ s.take c ++ sep, ipChar x = true := by
      intro sep colons x member
      rcases List.mem_append.mp member with early | late
      · exact ipChar_of_hexValue (hexDigits x (by simpa using early))
      · rw [colons x late]
        decide
    have around : ∀ {t}, s.drop c = t → s = s.take c ++ t := fun tail => by rw [← tail, List.take_append_drop]
    have pair : [(n / 256).toUInt8, n.toUInt8].length = 2 := rfl
    split at ok
    · split at ok
      · cases ok
      split at ok
      · cases ok
      split at ok
      · cases ok
      · rename_i room ip4 parsed
        cases ok
        exact .inr (.inl ⟨ip4, parsed, by omega, rfl, rfl, rfl⟩)
    · split at ok
      · rename_i tail
        cases ok
        refine .inr (.inr ⟨s.take c ++ [], [], _, _, short, ?_, group [] (by simp), pair, .inl rfl,
          .inl ⟨rfl, rfl, rfl, rfl⟩⟩)
        rw [List.append_nil]
        exact around tail
      · cases ok
      · rename_i c0 c1 rest tail
        split at ok
        · cases ok
        rename_i colon
        have first : c0 = 58 := not_not.mp colon
        split at ok
        · rename_i second
          have colons := group [c0, c1] (by simp [first, second])
          have whole : s = s.take c ++ [c0, c1] ++ rest := by rw [List.append_assoc]; exact around tail
          split at ok
          · cases ok
          split at ok
          · rename_i ended
            cases ok
            exact .inr (.inr ⟨_, rest, _, _, short, whole, colons, pair, .inr rfl, .inl ⟨ended, rfl, rfl, rfl⟩⟩)
          · exact .inr (.inr ⟨_, rest, _, _, short, whole, colons, pair, .inr rfl, .inr ok⟩)
        · have whole : s = s.take c ++ [c0] ++ (c1 :: rest) := by rw [List.append_assoc]; exact around tail
          exact .inr (.inr ⟨_, _, _, _, short, whole, group [c0] (by simp [first]), pair, .inl rfl, .inr ok⟩)
  · rw [if_neg short] at ok
    cases ok
    exact .inl ⟨rfl, rfl, rfl⟩

theorem parseIPv6Loop_chars {q r : Bytes} {e' : Option Nat} :
    ∀ (fuel : Nat) (ip : Bytes) (e : Option Nat) (s : Bytes), parseIPv6Loop fuel ip e s = some (q, e', r) →
      ReadsTo s r
  | 0, ip, e, s, ok => by
    cases ok
    exact .refl _
  | fuel + 1, ip, e, s, ok => by
    rcases parseIPv6Loop_cases ok with ⟨-, -, rfl⟩ | ⟨ip4, parsed, -, -, -, rfl⟩ |
      ⟨d, rest, two, e₁, -, rfl, chars, -, -, ⟨rfl, -, -, rfl⟩ | more⟩
    · exact .refl _
    · exact .whole (parseIPv4_chars parsed)
    · exact ⟨d, rfl, chars⟩
    · exact (parseIPv6Loop_chars fuel _ _ _ more).append chars

theorem expandEllipsis_read {x : Option (Bytes × Option Nat × Bytes)} {ip : IP} (ok : expandEllipsis x = some ip) :
    ∃ q e, x = some (q, e, []) := by
  unfold expandEllipsis at ok
  split at ok
  · exact ⟨_, _, rfl⟩
  · cases ok

theorem parseIPv6_chars {s : Bytes} {ip : IP} (ok : parseIPv6 s = some ip) : ∀ x ∈ s, ipChar x = true := by
  have loop : ∀ e s, expandEllipsis (parseIPv6Loop 8 [] e s) = some ip → ∀ x ∈ s, ipChar x = true := by
    intro e s ok
    obtain ⟨q, e', read⟩ := expandEllipsis_read ok
    obtain ⟨t, rfl, chars⟩ := parseIPv6Loop_chars 8 [] e s read
    simpa using chars
  unfold parseIPv6 at ok
  split at ok
  · rename_i ellipsis
    have colons : ∀ x ∈ s.take 2, ipChar x = true := by rw [ellipsis]; decide
    rw [← List.take_append_drop 2 s]
    intro x member
    rcases List.mem_append.mp member with early | late
    · exact colons x early
    · split at ok
      · rename_i empty
        rw [empty] at late
        cases late
      · exact loop _ _ ok x late
  · exact loop _ _ ok

theorem parseIP_chars {s : Bytes} {ip : IP} (ok : parseIP s = some ip) : ∀ x ∈ s, ipChar x = true := by
  unfold parseIP at ok
  split at ok
  · exact parseIPv4_chars ok
  · exact parseIPv6_chars ok
  · cases ok

theorem ipChar_of_mem_string {ip : IP} (valid : ip.length = 4 ∨ ip.length = 16) : ∀ c ∈ ip.string, ipChar c = true := by
  obtain ⟨q, parsed⟩ : ∃ q, parseIP ip.string = some q := by
    rw [parseIP_string valid]
    rcases valid with four | sixteen
    · exact ⟨_, to16_four four⟩
    · exact ⟨_, to16_sixteen sixteen⟩
  exact parseIP_chars parsed

theorem parseIPv4_length {s : Bytes} {ip : IP} (ok : parseIPv4 s = some ip) : ip.length = 16 := by
  unfold parseIPv4 at ok
  split at ok
  · cases ok
    rfl
  · cases ok

def LoopBytes (ip : Bytes) (e : Option Nat) : Prop :=
  ip.length % 2 = 0 ∧ ip.length ≤ 16 ∧ ∀ k ∈ e, k ≤ ip.length

theorem parseIPv6Loop_bytes {q r : Bytes} {e' : Option Nat} :
    ∀ (fuel : Nat) (ip : Bytes) (e : Option Nat) (s : Bytes), LoopBytes ip e →
      parseIPv6Loop fuel ip e s = some (q, e', r) → LoopBytes q e'
  | 0, ip, e, s, holds, ok => by
    cases ok
    exact holds
  | fuel + 1, ip, e, s, ⟨even, bound, inside⟩, ok => by
    rcases parseIPv6Loop_cases ok with ⟨rfl, rfl, -⟩ | ⟨ip4, parsed, room, rfl, rfl, -⟩ |
      ⟨d, rest, two, e₁, short, -, -, pair, fresh, last⟩
    · exact ⟨even, bound, inside⟩
    · have four : (ip4.drop 12).length = 4 := by simp [parseIPv4_length parsed]
      refine ⟨by rw [List.length_append, four]; omega, by rw [List.length_append, four]; omega, fun k member => ?_⟩
      have := inside k member
      rw [List.length_append, four]
      omega
    · have grown : LoopBytes (ip ++ two) e₁ := by
        refine ⟨by rw [List.length_append, pair]; omega, by rw [List.length_append, pair]; omega, fun k member => ?_⟩
        rw [List.length_append, pair]
        rcases fresh with rfl | rfl
        · have := inside k member
          omega
        · cases member
          omega
      rcases last with ⟨-, rfl, rfl, -⟩ | more
      · exact grown
      · exact parseIPv6Loop_bytes fuel _ _ _ grown more

theorem expandEllipsis_length {x : Option (Bytes × Option Nat × Bytes)} {ip : IP}
    (holds : ∀ q e r, x = some (q, e, r) → LoopBytes q e) (ok : expandEllipsis x = some ip) : ip.length = 16 := by
  unfold expandEllipsis at ok
  split at ok
  · rename_i q e
    obtain ⟨_, bound, inside⟩ := holds q e [] rfl
    split at ok
    · split at ok
      · rename_i k
        cases ok
        have := inside k rfl
        simp only [List.length_append, List.length_take, List.length_replicate, List.length_drop]
        omega
      · cases ok
    · split at ok
      · cases ok
      · cases ok
        omega
  · cases ok

theorem parseIPv6_length {s : Bytes} {ip : IP} (ok : parseIPv6 s = some ip) : ip.length = 16 := by
  have loop : ∀ e s, LoopBytes [] e → expandEllipsis (parseIPv6Loop 8 [] e s) = some ip → ip.length = 16 :=
    fun e s start ok => expandEllipsis_length (fun q e' r read => parseIPv6Loop_bytes 8 [] e s start read) ok
  unfold parseIPv6 at ok
  split at ok
  · split at ok
    · cases ok
      rfl
    · exact loop _ _ ⟨rfl, by simp, by simp⟩ ok
  · exact loop _ _ ⟨rfl, by simp, by simp⟩ ok

theorem parseIP_length {s : Bytes} {ip : IP} (ok : parseIP s = some ip) : ip.length = 16 := by
  unfold parseIP at ok
  split at ok
  · exact parseIPv4_length ok
  · exact parseIPv6_length ok
  · cases ok

end Go.Net
