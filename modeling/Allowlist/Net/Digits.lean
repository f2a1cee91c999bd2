import Allowlist.Net.Parse

namespace Go.Net

open Go

theorem digitByte_toNat {d : Nat} (small : d < 10) : (digitByte d).toNat = 48 + d := by
  rw [digitByte, toNat_toUInt8]
  omega

theorem isDigit_digitByte {d : Nat} (small : d < 10) : isDigit (digitByte d) = true := by
  simp [isDigit, digitByte_toNat small]
  omega

theorem dtoiLoop_digit (n i d : Nat) (s : Bytes) (small : d < 10) (room : n * 10 + d < big) :
    dtoiLoop n i (digitByte d :: s) = dtoiLoop (n * 10 + d) (i + 1) s := by
  have value : (digitByte d).toNat - 48 = d := by rw [digitByte_toNat small]; omega
  simp only [dtoiLoop, isDigit_digitByte small, value, if_true, if_neg (Nat.not_le.mpr room)]

theorem dtoiLoop_stop (n i : Nat) {s : Bytes} (stop : ∀ c ∈ s.head?, isDigit c = false)
    (read : 0 < i) : dtoiLoop n i s = (n, i, true) := by
  cases s with
  | nil => simp [dtoiLoop, Nat.pos_iff_ne_zero.mp read]
  | cons c s =>
    simp only [List.head?_cons, Option.mem_def, Option.some.injEq, forall_eq'] at stop
    simp [dtoiLoop, stop, Nat.pos_iff_ne_zero.mp read]

theorem dtoi_ubtoa (v : UInt8) {rest : Bytes} (stop : ∀ c ∈ rest.head?, isDigit c = false) :
    dtoi (ubtoa v ++ rest) = (v.toNat, (ubtoa v).length, true) := by
  have bound := v.toNat_lt_size
  simp only [UInt8.size] at bound
  unfold ubtoa dtoi
  split_ifs with one two
  · rw [List.singleton_append, dtoiLoop_digit _ _ _ _ one (by simp [big]; omega),
      dtoiLoop_stop _ _ stop (by omega)]
    simp
  · simp only [List.cons_append, List.nil_append]
    rw [dtoiLoop_digit _ _ _ _ (by omega) (by simp [big]; omega),
      dtoiLoop_digit _ _ _ _ (by omega) (by simp [big]; omega), dtoiLoop_stop _ _ stop (by omega)]
    simp only [List.length_cons, List.length_nil, Prod.mk.injEq, and_true]
    omega
  · simp only [List.cons_append, List.nil_append]
    rw [dtoiLoop_digit _ _ _ _ (by omega) (by simp [big]; omega),
      dtoiLoop_digit _ _ _ _ (by omega) (by simp [big]; omega),
      dtoiLoop_digit _ _ _ _ (by omega) (by simp [big]; omega), dtoiLoop_stop _ _ stop (by omega)]
    simp only [List.length_cons, List.length_nil, Prod.mk.injEq, and_true]
    omega

theorem ubtoa_digits (v : UInt8) : ∀ c ∈ ubtoa v, isDigit c = true := by
  have bound := v.toNat_lt_size
  simp only [UInt8.size] at bound
  unfold ubtoa
  split_ifs <;> intro c member <;> simp only [List.mem_cons, List.mem_singleton,
    List.not_mem_nil, or_false] at member <;> rcases member with rfl | rfl | rfl <;>
    exact isDigit_digitByte (by omega)

theorem ubtoa_leading (v : UInt8) : (ubtoa v).length > 1 → (ubtoa v).head? ≠ some 48 := by
  have bound := v.toNat_lt_size
  simp only [UInt8.size] at bound
  have zero : (48 : UInt8).toNat = 48 := rfl
  unfold ubtoa
  split_ifs with one two
  · simp
  · intro _ first
    have digit := digitByte_toNat (show v.toNat / 10 < 10 by omega)
    rw [Option.some.inj first, zero] at digit
    omega
  · intro _ first
    have digit := digitByte_toNat (show v.toNat / 100 < 10 by omega)
    rw [Option.some.inj first, zero] at digit
    omega

theorem ubtoa_ne_nil (v : UInt8) : ubtoa v ≠ [] := by
  unfold ubtoa; split_ifs <;> simp

theorem hexValue_hexDigit : ∀ n : Fin 16, hexValue (hexDigit.getD n.val 0) = some n.val := by decide

theorem hexDigit_mem : ∀ n : Fin 16, hexDigit.getD n.val 0 ∈ hexDigit := by decide

theorem appendHexFrom_acc (i : Nat) : ∀ j dst, appendHexFrom dst i j = dst ++ appendHexFrom [] i j
  | 0, dst => by simp [appendHexFrom]
  | j + 1, dst => by
    simp only [appendHexFrom]
    rw [appendHexFrom_acc i j]
    conv_rhs => rw [appendHexFrom_acc i j]
    split <;> simp

theorem appendHex_acc (dst : Bytes) (i : Nat) : appendHex dst i = dst ++ appendHex [] i := by
  unfold appendHex
  split
  · simp
  · exact appendHexFrom_acc i 8 dst

theorem appendHexFrom_ne_nil {i : Nat} (pos : 0 < i) : ∀ j dst, appendHexFrom dst i (j + 1) ≠ []
  | 0, dst => by simp [appendHexFrom, pos]
  | j + 1, dst => appendHexFrom_ne_nil pos j _

theorem appendHexFrom_digits (i : Nat) :
    ∀ j, ∀ c ∈ appendHexFrom [] i j, c ∈ hexDigit
  | 0 => by simp [appendHexFrom]
  | j + 1 => by
    intro c member
    simp only [appendHexFrom] at member
    rw [appendHexFrom_acc] at member
    rcases List.mem_append.mp member with first | rest
    · split at first
      · simp only [List.nil_append, List.mem_singleton] at first
        subst first
        exact hexDigit_mem ⟨_, Nat.mod_lt _ (by omega)⟩
      · simp at first
    · exact appendHexFrom_digits i j c rest

theorem shiftRight_nibble (i j : Nat) :
    (i >>> (4 * (j + 1))) * 16 + (i >>> (4 * j)) % 16 = i >>> (4 * j) := by
  have split : i >>> (4 * (j + 1)) = (i >>> (4 * j)) / 16 := by
    simp only [Nat.shiftRight_eq_div_pow, Nat.mul_succ, Nat.pow_add, Nat.div_div_eq_div_mul]
  rw [split]
  omega

theorem xtoiLoop_hex {n i d : Nat} {c : UInt8} (s : Bytes) (value : hexValue c = some d)
    (room : n * 16 + d < big) : xtoiLoop n i (c :: s) = xtoiLoop (n * 16 + d) (i + 1) s := by
  simp only [xtoiLoop, value, if_neg (Nat.not_le.mpr room)]

theorem xtoiLoop_appendHexFrom (i : Nat) (bound : i < big) (rest : Bytes) :
    ∀ j cnt, xtoiLoop (i >>> (4 * j)) cnt (appendHexFrom [] i j ++ rest) =
      xtoiLoop i (cnt + (appendHexFrom [] i j).length) rest
  | 0, cnt => by simp [appendHexFrom]
  | j + 1, cnt => by
    have step := shiftRight_nibble i j
    have below : i >>> (4 * j) ≤ i := by
      rw [Nat.shiftRight_eq_div_pow]; exact Nat.div_le_self _ _
    simp only [appendHexFrom]
    rw [appendHexFrom_acc]
    split
    · rename_i started
      have value := hexValue_hexDigit ⟨(i >>> (4 * j)) % 16, Nat.mod_lt _ (by omega)⟩
      simp only [List.nil_append, List.singleton_append, List.cons_append, List.length_cons]
      rw [xtoiLoop_hex _ value (by simp only [step]; omega), step,
        xtoiLoop_appendHexFrom i bound rest j]
      congr 1
      omega
    · rename_i stopped
      have zero : i >>> (4 * (j + 1)) = i >>> (4 * j) := by omega
      simp only [List.nil_append]
      rw [zero, xtoiLoop_appendHexFrom i bound rest j]

theorem xtoiLoop_stop (n i : Nat) {s : Bytes} (stop : ∀ c ∈ s.head?, hexValue c = none)
    (read : 0 < i) : xtoiLoop n i s = (n, i, true) := by
  cases s with
  | nil => simp [xtoiLoop, Nat.pos_iff_ne_zero.mp read]
  | cons c s =>
    simp only [List.head?_cons, Option.mem_def, Option.some.injEq, forall_eq'] at stop
    simp [xtoiLoop, stop, Nat.pos_iff_ne_zero.mp read]

theorem xtoi_appendHex {g : Nat} (small : g < 0x10000) (rest : Bytes)
    (stop : ∀ c ∈ rest.head?, hexValue c = none) :
    xtoi (appendHex [] g ++ rest) = (g, (appendHex [] g).length, true) := by
  unfold appendHex xtoi
  split
  · rename_i zero
    subst zero
    rw [show ascii "0" = [48] from rfl, List.nil_append, List.singleton_append,
      xtoiLoop_hex _ (show hexValue 48 = some 0 by decide) (by decide), xtoiLoop_stop _ _ stop (by omega)]
    rfl
  · rename_i pos
    have top : g >>> (4 * 8) = 0 := by
      rw [Nat.shiftRight_eq_div_pow]; exact Nat.div_eq_of_lt (by omega)
    have entire := xtoiLoop_appendHexFrom g (by simp [big]; omega) rest 8 0
    rw [top] at entire
    rw [entire, Nat.zero_add, xtoiLoop_stop _ _ stop]
    exact List.length_pos.mpr (appendHexFrom_ne_nil (by omega) 7 [])

theorem appendHex_digits (g : Nat) : ∀ c ∈ appendHex [] g, c ∈ hexDigit := by
  unfold appendHex
  split
  · decide
  · exact appendHexFrom_digits g 8

theorem appendHex_ne_nil (g : Nat) : appendHex [] g ≠ [] := by
  unfold appendHex
  split
  · decide
  · exact appendHexFrom_ne_nil (by omega) 7 []

end Go.Net
