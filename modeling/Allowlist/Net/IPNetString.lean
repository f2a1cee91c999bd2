import Allowlist.Net.IPNet
import Allowlist.Net.Accepted

namespace Go.Net

open Go

set_option maxRecDepth 4000 in
theorem leadingOnes_byte : ∀ n : Fin 256, n.val.toUInt8 ≠ 0xff →
    (leadingOnes 8 0 n.val.toUInt8).1 < 8 ∧ ((leadingOnes 8 0 n.val.toUInt8).2 = 0 →
      n.val.toUInt8 = ~~~((0xff : UInt8) >>> (leadingOnes 8 0 n.val.toUInt8).1.toUInt8)) := by
  decide

theorem leadingOnes_canonical {v : UInt8} (notFull : v ≠ 0xff) :
    (leadingOnes 8 0 v).1 < 8 ∧
      ((leadingOnes 8 0 v).2 = 0 → v = ~~~((0xff : UInt8) >>> (leadingOnes 8 0 v).1.toUInt8)) := by
  rw [← toUInt8_toNat v] at notFull ⊢
  exact leadingOnes_byte ⟨v.toNat, v.toNat_lt_size⟩ notFull

theorem leadingOnes_count : ∀ (fuel n : Nat) (v : UInt8),
    leadingOnes fuel n v = ((leadingOnes fuel 0 v).1 + n, (leadingOnes fuel 0 v).2)
  | 0, n, v => by simp [leadingOnes]
  | fuel + 1, n, v => by
    unfold leadingOnes
    split
    · rw [leadingOnes_count fuel (n + 1), leadingOnes_count fuel (0 + 1)]
      simp only [Prod.mk.injEq, and_true]
      omega
    · simp

theorem simpleMaskLengthFrom_full (n : Nat) (t : IPMask) :
    simpleMaskLengthFrom n (0xff :: t) = simpleMaskLengthFrom (n + 8) t := by
  simp [simpleMaskLengthFrom]

theorem simpleMaskLengthFrom_notFull {n : Nat} {w : UInt8} (notFull : w ≠ 0xff) (t : IPMask) :
    simpleMaskLengthFrom n (w :: t) =
      if (leadingOnes 8 0 w).2 ≠ 0 then (-1 : Int)
      else if t.all (· = 0) then (((leadingOnes 8 0 w).1 + n : Nat) : Int) else -1 := by
  rw [simpleMaskLengthFrom, if_neg notFull, leadingOnes_count]

theorem simpleMaskLengthFrom_bounds : ∀ (s : IPMask) (n : Nat),
    simpleMaskLengthFrom n s = -1 ∨ (n ≤ simpleMaskLengthFrom n s ∧ simpleMaskLengthFrom n s ≤ n + 8 * s.length)
  | [], n => by simp [simpleMaskLengthFrom]
  | v :: s, n => by
    by_cases full : v = 0xff
    · rw [full, simpleMaskLengthFrom_full]
      rcases simpleMaskLengthFrom_bounds s (n + 8) with none | ⟨low, high⟩
      · exact .inl none
      · refine .inr ⟨by omega, ?_⟩
        simp only [List.length_cons]
        omega
    · have few := (leadingOnes_canonical full).1
      rw [simpleMaskLengthFrom_notFull full]
      split_ifs
      · exact .inl rfl
      · refine .inr ⟨by omega, ?_⟩
        simp only [List.length_cons]
        omega
      · exact .inl rfl

@[simp] theorem length_cidrMaskFrom : ∀ (k l : Nat), (cidrMaskFrom k l).length = k
  | 0, _ => rfl
  | k + 1, l => by
    unfold cidrMaskFrom
    split <;> rw [List.length_cons, length_cidrMaskFrom k]

theorem cidrMaskFrom_zero : ∀ k, cidrMaskFrom k 0 = List.replicate k 0
  | 0 => rfl
  | k + 1 => by
    rw [cidrMaskFrom, if_neg (by omega), cidrMaskFrom_zero k]
    rfl

theorem cidrMaskFrom_of_simpleMaskLengthFrom : ∀ (s : IPMask) (n : Nat), simpleMaskLengthFrom n s ≠ -1 →
    s = cidrMaskFrom s.length (simpleMaskLengthFrom n s - n).toNat
  | [], _, _ => rfl
  | v :: s, n, simple => by
    by_cases full : v = 0xff
    · subst full
      rw [simpleMaskLengthFrom_full] at simple ⊢
      have low := (simpleMaskLengthFrom_bounds s (n + 8)).resolve_left simple
      rw [List.length_cons, cidrMaskFrom, if_pos (by omega),
        ← show (simpleMaskLengthFrom (n + 8) s - ((n + 8 : Nat) : Int)).toNat = _ - 8 by omega,
        ← cidrMaskFrom_of_simpleMaskLengthFrom s (n + 8) simple]
    · obtain ⟨few, canonical⟩ := leadingOnes_canonical full
      rw [simpleMaskLengthFrom_notFull full] at simple ⊢
      split_ifs at simple ⊢ with rest zeros
      · exact absurd rfl simple
      · have bytes : s = List.replicate s.length 0 := by
          simpa only [List.eq_replicate_iff, true_and, List.all_eq_true, decide_eq_true_eq] using zeros
        rw [List.length_cons, cidrMaskFrom, if_neg (by omega), cidrMaskFrom_zero,
          show (((leadingOnes 8 0 v).1 + n : Nat) - (n : Int)).toNat = (leadingOnes 8 0 v).1 by omega,
          ← canonical (not_not.mp rest), ← bytes]
      · exact absurd rfl simple

theorem simpleMaskLengthFrom_inj {s t : IPMask} {n : Nat} (same : s.length = t.length)
    (equal : simpleMaskLengthFrom n s = simpleMaskLengthFrom n t) (simple : simpleMaskLengthFrom n s ≠ -1) : s = t := by
  rw [cidrMaskFrom_of_simpleMaskLengthFrom s n simple, cidrMaskFrom_of_simpleMaskLengthFrom t n (equal ▸ simple),
    equal, same]

theorem uitoa_eq_ubtoa {l : Nat} (small : l < 256) : uitoa l = ubtoa l.toUInt8 := by
  rw [uitoa, ubtoa, toNat_toUInt8, Nat.mod_eq_of_lt small]
  by_cases zero : l = 0
  · subst zero
    rfl
  rw [if_neg zero, uitoaLoop]
  by_cases one : l < 10
  · rw [if_neg (by omega), if_pos one]
  rw [if_pos (by omega), uitoaLoop, if_neg one]
  by_cases two : l < 100
  · rw [if_neg (by omega), if_pos two]
  rw [if_pos (by omega), uitoaLoop, if_neg two, if_neg (by omega), Nat.div_div_eq_div_mul]

theorem uitoa_inj {l l' : Nat} (small : l < 256) (small' : l' < 256) (same : uitoa l = uitoa l') : l = l' := by
  rw [uitoa_eq_ubtoa small, uitoa_eq_ubtoa small'] at same
  have read := dtoi_ubtoa l.toUInt8 (show ∀ c ∈ ([] : Bytes).head?, isDigit c = false by simp)
  rw [same, dtoi_ubtoa l'.toUInt8 (by simp)] at read
  have := (Prod.mk.inj read).1
  rw [toNat_toUInt8, toNat_toUInt8, Nat.mod_eq_of_lt small, Nat.mod_eq_of_lt small'] at this
  exact this.symm

theorem length_ubtoa (v : UInt8) : (ubtoa v).length ≤ 3 := by
  unfold ubtoa; split_ifs <;> simp

theorem length_hexString (b : Bytes) : (hexString b).length = 2 * b.length := by
  induction b with
  | nil => rfl
  | cons v b ih => simp [hexString] at ih ⊢; omega

theorem hexString_inj : ∀ {b b' : Bytes}, hexString b = hexString b' → b = b'
  | [], [], _ => rfl
  | [], _ :: _, same | _ :: _, [], same => absurd (congrArg List.length same) (by simp only [length_hexString, List.length_cons, List.length_nil]; omega)
  | v :: b, v' :: b', same => by
    simp only [hexString, List.flatMap_cons, List.cons_append, List.nil_append, List.cons.injEq] at same
    obtain ⟨high, low, rest⟩ := same
    have high' := congrArg hexValue high
    have low' := congrArg hexValue low
    rw [hexValue_hexDigit ⟨_, by have := v.toNat_lt_size; simp only [UInt8.size] at this; omega⟩,
      hexValue_hexDigit ⟨_, by have := v'.toNat_lt_size; simp only [UInt8.size] at this; omega⟩] at high'
    rw [hexValue_hexDigit ⟨_, Nat.mod_lt _ (by omega)⟩, hexValue_hexDigit ⟨_, Nat.mod_lt _ (by omega)⟩] at low'
    have byte : v.toNat = v'.toNat := by
      simp only [Option.some.injEq] at high' low'
      omega
    rw [UInt8.eq_iff_toNat.mpr byte, hexString_inj rest]

theorem maskSuffix_inj {m m' : IPMask} (len : m.length = 4 ∨ m.length = 16) (same : m.length = m'.length)
    (text : (if simpleMaskLength m = -1 then IPMask.string m else uitoa (simpleMaskLength m).toNat) =
      (if simpleMaskLength m' = -1 then IPMask.string m' else uitoa (simpleMaskLength m').toNat)) : m = m' := by
  have bounds := simpleMaskLengthFrom_bounds m 0
  have bounds' := simpleMaskLengthFrom_bounds m' 0
  have hexLength : ∀ k : IPMask, k.length = m.length → (IPMask.string k).length = 2 * m.length := by
    intro k len'
    rw [IPMask.string, if_neg (by omega), length_hexString, len']
  have decimal : ∀ k : IPMask, k.length = m.length → simpleMaskLength k ≠ -1 →
      simpleMaskLength k ≤ 128 ∧ (uitoa (simpleMaskLength k).toNat).length ≤ 3 := by
    intro k len' simple
    have := (simpleMaskLengthFrom_bounds k 0).resolve_left simple
    rw [simpleMaskLength]
    refine ⟨by omega, ?_⟩
    rw [uitoa_eq_ubtoa (by omega)]
    exact length_ubtoa _
  unfold simpleMaskLength at text decimal
  by_cases canonical : simpleMaskLengthFrom 0 m = -1 <;> by_cases canonical' : simpleMaskLengthFrom 0 m' = -1
  · rw [if_pos canonical, if_pos canonical', IPMask.string, IPMask.string, if_neg (by omega),
      if_neg (by omega)] at text
    exact hexString_inj text
  · rw [if_pos canonical, if_neg canonical'] at text
    have := congrArg List.length text
    rw [hexLength m rfl] at this
    have := (decimal m' same.symm canonical').2
    omega
  · rw [if_neg canonical, if_pos canonical'] at text
    have := congrArg List.length text
    rw [hexLength m' same.symm] at this
    have := (decimal m rfl canonical).2
    omega
  · rw [if_neg canonical, if_neg canonical'] at text
    have small := (decimal m rfl canonical).1
    have small' := (decimal m' same.symm canonical').1
    have count := uitoa_inj (by omega) (by omega) text
    exact simpleMaskLengthFrom_inj same (by omega) canonical

theorem to4_length {ip p4 : IP} (to4 : ip.to4 = some p4) : p4.length = 4 := by
  unfold IP.to4 at to4
  split at to4
  · cases to4
    assumption
  · split at to4
    · cases to4
      simp [*]
    · cases to4

theorem networkNumberAndMask_spec {n : IPNet} {nn : IP} {m : IPMask} (split : n.networkNumberAndMask = some (nn, m)) :
    (nn.length = 4 ∨ (nn.length = 16 ∧ nn.to4 = none)) ∧ m.length = nn.length := by
  unfold IPNet.networkNumberAndMask at split
  cases to4 : n.ip.to4 with
  | some ip =>
    have four := to4_length to4
    simp only [to4, Option.bind_eq_bind, Option.some_bind] at split
    split_ifs at split with mask4 four' mask16 <;> cases split
    · exact ⟨.inl four, mask4.trans four.symm⟩
    · simp [four, mask16]
  | none =>
    by_cases sixteen : n.ip.length = 16
    · simp only [to4, sixteen, if_true, Option.bind_eq_bind, Option.some_bind] at split
      split_ifs at split with mask4 four mask16 <;> cases split <;> exact ⟨.inr ⟨sixteen, to4⟩, by omega⟩
    · simp only [to4, sixteen, if_false, Option.bind_eq_bind, Option.none_bind, reduceCtorEq] at split

theorem string_inj {a b : IP} (canonA : a.length = 4 ∨ (a.length = 16 ∧ a.to4 = none))
    (canonB : b.length = 4 ∨ (b.length = 16 ∧ b.to4 = none)) (same : a.string = b.string) : a = b := by
  have forms : a.to16 = b.to16 := by
    rw [← parseIP_string (by omega), ← parseIP_string (by omega), same]
  rcases canonA with fourA | ⟨sixteenA, noneA⟩ <;> rcases canonB with fourB | ⟨sixteenB, noneB⟩
  · rw [to16_four fourA, to16_four fourB, Option.some.injEq] at forms
    exact List.append_cancel_left forms
  · rw [to16_four fourA, to16_sixteen sixteenB, Option.some.injEq] at forms
    rw [← forms, to4_v4InV6Prefix_append fourA] at noneB
    cases noneB
  · rw [to16_sixteen sixteenA, to16_four fourB, Option.some.injEq] at forms
    rw [forms, to4_v4InV6Prefix_append fourB] at noneA
    cases noneA
  · rwa [to16_sixteen sixteenA, to16_sixteen sixteenB, Option.some.injEq] at forms

theorem slash_not_mem_string {ip : IP} (valid : ip.length = 4 ∨ ip.length = 16) : 47 ∉ ip.string :=
  fun slash => (ipChar_separators (ipChar_of_mem_string valid 47 slash)).2.2.2 rfl

theorem append_slash_inj : ∀ {a a' b b' : Bytes}, 47 ∉ a → 47 ∉ a' → a ++ ascii "/" ++ b = a' ++ ascii "/" ++ b' →
    a = a' ∧ b = b'
  | [], [], _, _, _, _, same => ⟨rfl, by simpa [show ascii "/" = [47] from rfl] using same⟩
  | [], c :: _, _, _, _, noSlash', same => by
    simp only [show ascii "/" = [47] from rfl, List.nil_append, List.cons_append, List.singleton_append,
      List.cons.injEq] at same
    exact absurd (same.1 ▸ List.mem_cons_self _ _) noSlash'
  | c :: _, [], _, _, noSlash, _, same => by
    simp only [show ascii "/" = [47] from rfl, List.nil_append, List.cons_append, List.singleton_append,
      List.cons.injEq] at same
    exact absurd (same.1.symm ▸ List.mem_cons_self _ _) noSlash
  | c :: a, c' :: a', b, b', noSlash, noSlash', same => by
    simp only [List.cons_append, List.cons.injEq] at same
    obtain ⟨rest, tail⟩ := append_slash_inj (fun slash => noSlash (List.mem_cons_of_mem c slash))
      (fun slash => noSlash' (List.mem_cons_of_mem c' slash)) same.2
    exact ⟨by rw [same.1, rest], tail⟩

theorem string_none {n : IPNet} (split : n.networkNumberAndMask = none) : IPNet.string (some n) = ascii "<nil>" := by
  rw [IPNet.string, split]

theorem string_some {n : IPNet} {nn : IP} {m : IPMask} (split : n.networkNumberAndMask = some (nn, m)) :
    IPNet.string (some n) =
      nn.string ++ ascii "/" ++ (if simpleMaskLength m = -1 then IPMask.string m else uitoa (simpleMaskLength m).toNat) := by
  rw [IPNet.string, split]
  dsimp only
  split_ifs <;> rfl

theorem networkNumberAndMask_of_string {a b : IPNet} (same : IPNet.string (some a) = IPNet.string (some b)) :
    a.networkNumberAndMask = b.networkNumberAndMask := by
  have nilText : ∀ {n : IPNet} {nn : IP} {m : IPMask}, n.networkNumberAndMask = some (nn, m) →
      IPNet.string (some n) ≠ ascii "<nil>" := by
    intro n nn m split text
    have slash : 47 ∈ IPNet.string (some n) := by rw [string_some split]; simp [show ascii "/" = [47] from rfl]
    rw [text] at slash
    exact absurd slash (by decide)
  cases splitA : a.networkNumberAndMask with
  | none =>
    cases splitB : b.networkNumberAndMask with
    | none => rfl
    | some pair =>
      rw [string_none splitA] at same
      exact absurd same.symm (nilText splitB)
  | some pairA =>
    cases splitB : b.networkNumberAndMask with
    | none =>
      rw [string_none splitB] at same
      exact absurd same (nilText splitA)
    | some pairB =>
      obtain ⟨nn, m⟩ := pairA
      obtain ⟨nn', m'⟩ := pairB
      obtain ⟨canon, len⟩ := networkNumberAndMask_spec splitA
      obtain ⟨canon', len'⟩ := networkNumberAndMask_spec splitB
      rw [string_some splitA, string_some splitB] at same
      obtain ⟨numbers, suffixes⟩ := append_slash_inj (slash_not_mem_string (by omega))
        (slash_not_mem_string (by omega)) same
      have number := string_inj canon canon' numbers
      subst number
      rw [maskSuffix_inj (by omega) (by omega) suffixes]

theorem contains_of_string {a b : IPNet} (same : IPNet.string (some a) = IPNet.string (some b)) (ip : IP) :
    a.contains ip = b.contains ip := by
  rw [IPNet.contains, IPNet.contains, networkNumberAndMask_of_string same]

theorem contains_of_to16 (n : IPNet) {x y t : IP} (toX : x.to16 = some t) (toY : y.to16 = some t) :
    n.contains x = n.contains y := by
  rw [IPNet.contains, IPNet.contains, to4_getD_of_to16 toX, to4_getD_of_to16 toY]

end Go.Net
