import Allowlist.Net.Digits

namespace Go.Net

open Go

def groupsFrom (p : IP) (k m : Nat) : List Nat := (List.range' k (m - k)).map fun j => group p (2 * j)

def colonGroups (gs : List Nat) : Bytes := gs.flatMap fun g => ascii ":" ++ appendHex [] g

def ZeroGroups (p : IP) (a b : Nat) : Prop := ∀ j, a ≤ j → j < b → group p (2 * j) = 0

def fullText (p : IP) : Bytes := appendHex [] (group p 0) ++ colonGroups (groupsFrom p 1 8)

def runText (p : IP) (a b : Nat) : Bytes :=
  (if a = 0 then [] else appendHex [] (group p 0) ++ colonGroups (groupsFrom p 1 a)) ++
    ascii "::" ++ (if b = 8 then [] else appendHex [] (group p (2 * b)) ++ colonGroups (groupsFrom p (b + 1) 8))

theorem groupsFrom_cons (p : IP) {k m : Nat} (below : k < m) :
    groupsFrom p k m = group p (2 * k) :: groupsFrom p (k + 1) m := by
  rw [groupsFrom, show m - k = (m - (k + 1)) + 1 by omega, List.range'_succ]
  rfl

theorem groupsFrom_self (p : IP) (k : Nat) : groupsFrom p k k = [] := by simp [groupsFrom]

@[simp] theorem colonGroups_nil : colonGroups [] = [] := rfl

@[simp] theorem colonGroups_cons (g : Nat) (gs : List Nat) :
    colonGroups (g :: gs) = ascii ":" ++ appendHex [] g ++ colonGroups gs := by
  simp [colonGroups]

theorem zeroRunEnd_spec (p : IP) :
    ∀ fuel k, k ≤ 8 → ∃ m, zeroRunEnd p fuel (2 * k) = 2 * m ∧ k ≤ m ∧ m ≤ 8 ∧ ZeroGroups p k m
  | 0, k, inside => ⟨k, rfl, le_refl k, inside, fun j low high => absurd high (by omega)⟩
  | fuel + 1, k, inside => by
    unfold zeroRunEnd
    split
    · rename_i zero
      obtain ⟨below, first, second⟩ := zero
      obtain ⟨m, found, low, high, zeros⟩ := zeroRunEnd_spec p fuel (k + 1) (by omega)
      refine ⟨m, by rw [show 2 * k + 2 = 2 * (k + 1) by omega, found], by omega, high, ?_⟩
      intro j lower upper
      rcases Nat.eq_or_lt_of_le lower with same | later
      · subst same
        simp only [group, first, second, UInt8.toNat_zero]
      · exact zeros j later upper
    · exact ⟨k, rfl, le_refl k, inside, fun j low high => absurd high (by omega)⟩

def RunBounds (p : IP) (e : Int × Int) : Prop :=
  e = (-1, -1) ∨
    ∃ a b : Nat, e = (((2 * a : Nat) : Int), ((2 * b : Nat) : Int)) ∧ a < b ∧ b ≤ 8 ∧ ZeroGroups p a b

theorem longestZeroRun_bounds (p : IP) :
    ∀ fuel k e, RunBounds p e → RunBounds p (longestZeroRun p fuel (2 * k) e)
  | 0, _, _, bounds => bounds
  | fuel + 1, k, (e0, e1), bounds => by
    unfold longestZeroRun
    split
    · obtain ⟨m, found, low, high, zeros⟩ := zeroRunEnd_spec p 8 k (by omega)
      rw [found]
      split
      · rename_i longer
        rw [show 2 * m + 2 = 2 * (m + 1) by omega]
        exact longestZeroRun_bounds p fuel (m + 1) _ (.inr ⟨k, m, rfl, by omega, high, zeros⟩)
      · rw [show 2 * k + 2 = 2 * (k + 1) by omega]
        exact longestZeroRun_bounds p fuel (k + 1) _ bounds
    · exact bounds

theorem zeroRun_cases (p : IP) :
    zeroRun p = (-1, -1) ∨
      ∃ a b : Nat, zeroRun p = (((2 * a : Nat) : Int), ((2 * b : Nat) : Int)) ∧ a + 2 ≤ b ∧ b ≤ 8 ∧
        ZeroGroups p a b := by
  have bounds := longestZeroRun_bounds p 8 0 (-1, -1) (.inl rfl)
  unfold zeroRun
  split
  rename_i e0 e1 found
  rw [Nat.mul_zero] at bounds
  rw [found] at bounds
  split
  · exact .inl rfl
  · rename_i long
    rcases bounds with none | ⟨a, b, same, _, high, zeros⟩
    · simp only [Prod.mk.injEq] at none
      omega
    · simp only [Prod.mk.injEq] at same
      obtain ⟨rfl, rfl⟩ := same
      exact .inr ⟨a, b, rfl, by omega, high, zeros⟩

theorem formatIPv6_end (p : IP) (e0 e1 : Int) (t : Bytes) : ∀ fuel, formatIPv6 p e0 e1 fuel 16 t = t
  | 0 => rfl
  | fuel + 1 => by simp [formatIPv6]

theorem formatIPv6_first (p : IP) {e0 e1 : Int} (away : (0 : Int) ≠ e0) (fuel : Nat) :
    formatIPv6 p e0 e1 (fuel + 1) 0 [] = formatIPv6 p e0 e1 fuel 2 (appendHex [] (group p 0)) := by
  simp [formatIPv6, away]

theorem formatIPv6_plain (p : IP) (e0 e1 : Int) {m : Nat} (bound : m ≤ 8) :
    ∀ n k fuel t, m - k = n → 0 < k → k ≤ m → n ≤ fuel →
      (∀ j, k ≤ j → j < m → ((2 * j : Nat) : Int) ≠ e0) →
      formatIPv6 p e0 e1 fuel (2 * k) t =
        formatIPv6 p e0 e1 (fuel - n) (2 * m) (t ++ colonGroups (groupsFrom p k m))
  | 0, k, fuel, t, gap, _, upper, _, _ => by
    rw [show k = m by omega, groupsFrom_self]
    simp
  | n + 1, k, fuel + 1, t, gap, pos, _, enough, away => by
    have step : formatIPv6 p e0 e1 (fuel + 1) (2 * k) t =
        formatIPv6 p e0 e1 fuel (2 * (k + 1)) (t ++ ascii ":" ++ appendHex [] (group p (2 * k))) := by
      simp only [formatIPv6]
      rw [if_pos (by omega), if_neg (away k le_rfl (by omega)), if_pos (by omega), appendHex_acc]
      rfl
    rw [step, formatIPv6_plain p e0 e1 bound n (k + 1) fuel _ (by omega) (by omega) (by omega) (by omega)
      (fun j low high => away j (by omega) high), groupsFrom_cons p (show k < m by omega)]
    simp

theorem formatIPv6_jump (p : IP) {a b : Nat} (inside : a < 8) (bound : b ≤ 8) (fuel : Nat) (t : Bytes) :
    formatIPv6 p ((2 * a : Nat) : Int) ((2 * b : Nat) : Int) (fuel + 1) (2 * a) t =
      if b = 8 then t ++ ascii "::"
      else formatIPv6 p (2 * a : Nat) (2 * b : Nat) fuel (2 * b + 2)
        (t ++ ascii "::" ++ appendHex [] (group p (2 * b))) := by
  have toNat : ((2 * b : Nat) : Int).toNat = 2 * b := Int.toNat_ofNat _
  rw [formatIPv6, if_pos (show 2 * a < 16 by omega), if_pos rfl, toNat]
  by_cases full : b = 8
  · rw [if_pos (show (16 : Int) ≤ ((2 * b : Nat) : Int) by omega), if_pos full]
  · rw [if_neg (show ¬ (16 : Int) ≤ ((2 * b : Nat) : Int) by omega), if_neg full]
    congr 1
    exact appendHex_acc _ _

theorem formatIPv6_full (p : IP) : formatIPv6 p (-1) (-1) 8 0 [] = fullText p := by
  rw [formatIPv6_first p (by decide),
    formatIPv6_plain p _ _ (le_refl 8) 7 1 7 _ rfl (by omega) (by omega) (le_refl 7) (by omega),
    formatIPv6_end]
  rfl

theorem formatIPv6_run (p : IP) {a b : Nat} (long : a + 2 ≤ b) (bound : b ≤ 8) :
    formatIPv6 p ((2 * a : Nat) : Int) ((2 * b : Nat) : Int) 8 0 [] = runText p a b := by
  have tail : ∀ fuel t, 7 - b ≤ fuel → b < 8 →
      formatIPv6 p (2 * a : Nat) (2 * b : Nat) fuel (2 * b + 2) t =
        t ++ colonGroups (groupsFrom p (b + 1) 8) := by
    intro fuel t enough short
    rw [show 2 * b + 2 = 2 * (b + 1) by omega,
      formatIPv6_plain p _ _ (le_refl 8) (7 - b) (b + 1) fuel t (by omega) (by omega) (by omega) enough
        (fun j low _ => by omega), formatIPv6_end]
  rcases Nat.eq_zero_or_pos a with zero | pos
  · subst zero
    have jump := formatIPv6_jump p (show 0 < 8 by omega) bound 7 []
    simp only [Nat.mul_zero] at jump tail
    rw [jump, runText, if_pos rfl]
    split_ifs with full
    · simp
    · rw [tail 7 _ (by omega) (by omega)]
      simp
  · rw [formatIPv6_first p (by omega),
      formatIPv6_plain p _ _ (show a ≤ 8 by omega) (a - 1) 1 7 _ rfl (by omega) (by omega) (by omega)
        (fun j low high => by omega),
      show 7 - (a - 1) = (7 - a) + 1 by omega, formatIPv6_jump p (by omega) bound, runText,
      if_neg (show a ≠ 0 by omega)]
    split_ifs with full
    · simp
    · rw [tail (7 - a) _ (by omega) (by omega)]
      simp

end Go.Net
