import Allowlist.Net.PrintIPv6

namespace Go.Net

open Go

def groupBytes (gs : List Nat) : Bytes := gs.flatMap fun g => [(g / 256).toUInt8, g.toUInt8]

@[simp] theorem groupBytes_nil : groupBytes [] = [] := rfl

@[simp] theorem groupBytes_cons (g : Nat) (gs : List Nat) :
    groupBytes (g :: gs) = (g / 256).toUInt8 :: g.toUInt8 :: groupBytes gs := rfl

@[simp] theorem length_groupBytes (gs : List Nat) : (groupBytes gs).length = 2 * gs.length := by
  induction gs <;> simp [*]; omega

theorem hexDigit_not_separator : ∀ c ∈ hexDigit, c ≠ 46 ∧ c ≠ 58 ∧ hexValue c ≠ none ∧ isGraphic c := by
  decide

theorem appendHex_head (g : Nat) (rest : Bytes) :
    ∃ c s, appendHex [] g ++ rest = c :: s ∧ c ∈ hexDigit := by
  obtain ⟨c, s, split⟩ := List.exists_cons_of_ne_nil (appendHex_ne_nil g)
  exact ⟨c, s ++ rest, by rw [split]; rfl, appendHex_digits g c (by rw [split]; simp)⟩

theorem group_lt (p : IP) (i : Nat) : group p i < 0x10000 := by
  have first := (p.getD i 0).toNat_lt_size
  have second := (p.getD (i + 1) 0).toNat_lt_size
  simp only [UInt8.size] at first second
  unfold group
  omega

section Pass

variable {g : Nat} (small : g < 0x10000) {ip : Bytes} (room : ip.length < 16) (fuel : Nat)
  (e : Option Nat)
include small room

theorem parseIPv6Loop_last :
    parseIPv6Loop (fuel + 1) ip e (appendHex [] g) = some (ip ++ groupBytes [g], e, []) := by
  have read := xtoi_appendHex small [] (by simp)
  rw [List.append_nil] at read
  simp [parseIPv6Loop, room, read, Nat.not_lt.mpr (Nat.le_of_lt_succ small), groupBytes]

theorem parseIPv6Loop_colon {c : UInt8} (next : c ≠ 58) (s : Bytes) :
    parseIPv6Loop (fuel + 1) ip e (appendHex [] g ++ 58 :: c :: s) =
      parseIPv6Loop fuel (ip ++ groupBytes [g]) e (c :: s) := by
  have read := xtoi_appendHex small (58 :: c :: s) (by simp; decide)
  have colon : (appendHex [] g ++ 58 :: c :: s)[(appendHex [] g).length]? = some 58 := by
    rw [List.getElem?_append_right (le_refl _), Nat.sub_self]; rfl
  simp [parseIPv6Loop, room, read, colon, Nat.not_lt.mpr (Nat.le_of_lt_succ small), groupBytes, next]

theorem parseIPv6Loop_ellipsis (s : Bytes) :
    parseIPv6Loop (fuel + 1) ip none (appendHex [] g ++ 58 :: 58 :: s) =
      if s = [] then some (ip ++ groupBytes [g], some (ip.length + 2), [])
      else parseIPv6Loop fuel (ip ++ groupBytes [g]) (some (ip.length + 2)) s := by
  have read := xtoi_appendHex small (58 :: 58 :: s) (by simp; decide)
  have colon : (appendHex [] g ++ 58 :: 58 :: s)[(appendHex [] g).length]? = some 58 := by
    rw [List.getElem?_append_right (le_refl _), Nat.sub_self]; rfl
  simp [parseIPv6Loop, room, read, colon, Nat.not_lt.mpr (Nat.le_of_lt_succ small), groupBytes]

end Pass

theorem parseIPv6Loop_groups (e : Option Nat) :
    ∀ (gs : List Nat) (g : Nat) (ip : Bytes) (fuel : Nat), g < 0x10000 → (∀ x ∈ gs, x < 0x10000) →
      ip.length + 2 * gs.length < 16 →
      parseIPv6Loop (fuel + gs.length + 1) ip e (appendHex [] g ++ colonGroups gs) =
        some (ip ++ groupBytes (g :: gs), e, [])
  | [], g, ip, fuel, small, _, room => by
    simpa using parseIPv6Loop_last small (by simpa using room) fuel e
  | h :: hs, g, ip, fuel, small, smalls, room => by
    obtain ⟨c, s, split, digit⟩ := appendHex_head h (colonGroups hs)
    have next : c ≠ 58 := (hexDigit_not_separator c digit).2.1
    have text : appendHex [] g ++ colonGroups (h :: hs) = appendHex [] g ++ 58 :: c :: s := by
      rw [colonGroups_cons, List.append_assoc, ← split]; rfl
    simp only [List.length_cons] at room ⊢
    rw [text, show fuel + (hs.length + 1) + 1 = (fuel + hs.length + 1) + 1 by omega,
      parseIPv6Loop_colon small (by omega) _ _ next, ← split,
      parseIPv6Loop_groups e hs h _ fuel (smalls h (by simp)) (fun x mem => smalls x (by simp [mem]))
        (by simp; omega)]
    simp

theorem parseIPv6Loop_groups_ellipsis (r : Bytes) :
    ∀ (gs : List Nat) (g : Nat) (ip : Bytes) (fuel : Nat), g < 0x10000 → (∀ x ∈ gs, x < 0x10000) →
      ip.length + 2 * gs.length < 16 →
      parseIPv6Loop (fuel + gs.length + 1) ip none (appendHex [] g ++ colonGroups gs ++ ascii "::" ++ r) =
        if r = [] then some (ip ++ groupBytes (g :: gs), some (ip.length + 2 * (gs.length + 1)), [])
        else parseIPv6Loop fuel (ip ++ groupBytes (g :: gs)) (some (ip.length + 2 * (gs.length + 1))) r
  | [], g, ip, fuel, small, _, room => by
    have pass := parseIPv6Loop_ellipsis small (by simpa using room) fuel r
    simpa [show ascii "::" = [58, 58] from rfl] using pass
  | h :: hs, g, ip, fuel, small, smalls, room => by
    obtain ⟨c, s, split, digit⟩ := appendHex_head h (colonGroups hs ++ ascii "::" ++ r)
    have next : c ≠ 58 := (hexDigit_not_separator c digit).2.1
    have text : appendHex [] g ++ colonGroups (h :: hs) ++ ascii "::" ++ r =
        appendHex [] g ++ 58 :: c :: s := by
      rw [colonGroups_cons, ← split]; simp [show ascii ":" = [58] from rfl]
    simp only [List.length_cons] at room ⊢
    rw [text, show fuel + (hs.length + 1) + 1 = (fuel + hs.length + 1) + 1 by omega,
      parseIPv6Loop_colon small (by omega) _ _ next, ← split]
    simp only [← List.append_assoc]
    rw [parseIPv6Loop_groups_ellipsis r hs h _ fuel (smalls h (by simp)) (fun x mem => smalls x (by simp [mem]))
        (by simp; omega)]
    have total : (ip ++ groupBytes [g]).length + 2 * (hs.length + 1) = ip.length + 2 * (hs.length + 1 + 1) := by
      simp; omega
    rw [total]
    simp only [groupBytes_cons, groupBytes_nil, List.append_assoc, List.cons_append, List.nil_append]

theorem group_high (p : IP) (i : Nat) : (group p i / 256).toUInt8 = p.getD i 0 := by
  have first := (p.getD i 0).toNat_lt_size
  have second := (p.getD (i + 1) 0).toNat_lt_size
  simp only [UInt8.size] at first second
  rw [group, show ((p.getD i 0).toNat * 256 + (p.getD (i + 1) 0).toNat) / 256 = (p.getD i 0).toNat by omega,
    toUInt8_toNat]

theorem group_low (p : IP) (i : Nat) : (group p i).toUInt8 = p.getD (i + 1) 0 := by
  have second := (p.getD (i + 1) 0).toNat_lt_size
  simp only [UInt8.size] at second
  apply UInt8.toNat.inj
  rw [toNat_toUInt8, group]
  omega

theorem groupBytes_append (xs ys : List Nat) : groupBytes (xs ++ ys) = groupBytes xs ++ groupBytes ys :=
  List.flatMap_append ..

theorem groupBytes_groupsFrom {p : IP} (len : p.length = 16) :
    ∀ n k, k + n ≤ 8 → groupBytes (groupsFrom p k (k + n)) = (p.drop (2 * k)).take (2 * n)
  | 0, k, _ => by simp [groupsFrom_self]
  | n + 1, k, inside => by
    have first : 2 * k < p.length := by omega
    have second : 2 * k + 1 < p.length := by omega
    have bytes : (p.drop (2 * k)).take (2 * (n + 1)) =
        p[2 * k] :: p[2 * k + 1] :: (p.drop (2 * (k + 1))).take (2 * n) := by
      rw [List.drop_eq_getElem_cons first, List.drop_eq_getElem_cons second,
        show 2 * (n + 1) = 2 * n + 1 + 1 by omega, show 2 * (k + 1) = 2 * k + 1 + 1 by omega]
      rfl
    rw [groupsFrom_cons p (by omega), groupBytes_cons, show k + (n + 1) = (k + 1) + n by omega,
      groupBytes_groupsFrom len n (k + 1) (by omega), group_high, group_low, bytes]
    simp [List.getElem?_eq_getElem first, List.getElem?_eq_getElem second]

theorem groupsFrom_append (p : IP) {k l m : Nat} (kl : k ≤ l) (lm : l ≤ m) :
    groupsFrom p k l ++ groupsFrom p l m = groupsFrom p k m := by
  have ranges := List.range'_append k (l - k) (m - l) 1
  rw [show k + 1 * (l - k) = l by omega, show m - l + (l - k) = m - k by omega] at ranges
  simp only [groupsFrom, ← List.map_append, ranges]

theorem groupsFrom_zero {p : IP} {a b : Nat} (zeros : ZeroGroups p a b) :
    groupsFrom p a b = List.replicate (b - a) 0 := by
  rw [List.eq_replicate_iff]
  refine ⟨by simp [groupsFrom], ?_⟩
  intro g member
  simp only [groupsFrom, List.mem_map, List.mem_range'] at member
  obtain ⟨j, ⟨i, bound, rfl⟩, rfl⟩ := member
  exact zeros _ (by omega) (by omega)

theorem groupBytes_replicate : ∀ n, groupBytes (List.replicate n 0) = List.replicate (2 * n) 0
  | 0 => rfl
  | n + 1 => by
    rw [List.replicate_succ, groupBytes_cons, groupBytes_replicate n,
      show 2 * (n + 1) = 2 * n + 1 + 1 by omega]
    rfl

theorem bytes_around_run {p : IP} (len : p.length = 16) {a b : Nat} (ab : a ≤ b) (bound : b ≤ 8)
    (zeros : ZeroGroups p a b) :
    groupBytes (groupsFrom p 0 a) ++ List.replicate (2 * (b - a)) 0 ++ groupBytes (groupsFrom p b 8) = p := by
  have whole := groupBytes_groupsFrom len 8 0 (le_refl 8)
  simp only [Nat.zero_add, Nat.mul_zero, List.drop_zero] at whole
  rw [← groupBytes_replicate, ← groupsFrom_zero zeros, ← groupBytes_append, ← groupBytes_append,
    List.append_assoc, groupsFrom_append p ab bound, groupsFrom_append p (Nat.zero_le a) (by omega)]
  rw [whole, List.take_of_length_le (by omega)]

theorem groupsFrom_length (p : IP) (k m : Nat) : (groupsFrom p k m).length = m - k := by
  simp [groupsFrom]

theorem groupsFrom_small (p : IP) (k m : Nat) : ∀ x ∈ groupsFrom p k m, x < 0x10000 := by
  intro x member
  simp only [groupsFrom, List.mem_map] at member
  obtain ⟨j, _, rfl⟩ := member
  exact group_lt p _

theorem parseIPv6_hex_first {c : UInt8} {s : Bytes} (digit : c ∈ hexDigit) :
    parseIPv6 (c :: s) = expandEllipsis (parseIPv6Loop 8 [] none (c :: s)) := by
  have notEllipsis : (c :: s).take 2 ≠ ascii "::" := by
    intro same
    have head := congrArg List.head? same
    simp only [List.take_succ_cons, List.head?_cons] at head
    exact (hexDigit_not_separator c digit).2.1 (Option.some.inj head)
  rw [parseIPv6, if_neg notEllipsis]

theorem parseIPv6_ellipsis_first (r : Bytes) :
    parseIPv6 (ascii "::" ++ r) =
      if r = [] then some (List.replicate 16 0) else expandEllipsis (parseIPv6Loop 8 [] (some 0) r) := by
  simp [parseIPv6, show ascii "::" = [58, 58] from rfl]

theorem expandEllipsis_full {ip : Bytes} (len : ip.length = 16) : expandEllipsis (some (ip, none, [])) = some ip := by
  simp [expandEllipsis, len]

theorem expandEllipsis_at {ip : Bytes} {e : Nat} (short : ip.length < 16) :
    expandEllipsis (some (ip, some e, [])) =
      some (ip.take e ++ List.replicate (16 - ip.length) 0 ++ ip.drop e) := by
  simp [expandEllipsis, short]

theorem parseIPv6_fullText {p : IP} (len : p.length = 16) : parseIPv6 (fullText p) = some p := by
  obtain ⟨c, s, split, digit⟩ := appendHex_head (group p 0) (colonGroups (groupsFrom p 1 8))
  have loop := parseIPv6Loop_groups none (groupsFrom p 1 8) (group p 0) [] 0 (group_lt p 0)
    (groupsFrom_small p 1 8) (by simp [groupsFrom_length])
  rw [groupsFrom_length, ← groupsFrom_cons p (show 0 < 8 by omega), split] at loop
  have whole := groupBytes_groupsFrom len 8 0 (le_refl 8)
  rw [Nat.zero_add, Nat.mul_zero, List.drop_zero, List.take_of_length_le (by omega)] at whole
  rw [fullText, split, parseIPv6_hex_first digit, show (8 : Nat) = 0 + (8 - 1) + 1 from rfl, loop,
    List.nil_append, expandEllipsis_full (by simp [groupsFrom_length]), whole]

theorem expandEllipsis_afterRun {p : IP} (len : p.length = 16) {a b : Nat} (long : a + 2 ≤ b) (short : b < 8)
    (zeros : ZeroGroups p a b) :
    expandEllipsis (parseIPv6Loop (8 - a) (groupBytes (groupsFrom p 0 a)) (some (2 * a))
      (appendHex [] (group p (2 * b)) ++ colonGroups (groupsFrom p (b + 1) 8))) = some p := by
  have prefixLength : (groupBytes (groupsFrom p 0 a)).length = 2 * a := by
    rw [length_groupBytes, groupsFrom_length, Nat.sub_zero]
  have loop := parseIPv6Loop_groups (some (2 * a)) (groupsFrom p (b + 1) 8) (group p (2 * b))
    (groupBytes (groupsFrom p 0 a)) (b - a) (group_lt p _) (groupsFrom_small p _ 8)
    (by rw [prefixLength, groupsFrom_length]; omega)
  rw [groupsFrom_length, ← groupsFrom_cons p short, show b - a + (8 - (b + 1)) + 1 = 8 - a by omega] at loop
  have total : (groupBytes (groupsFrom p 0 a) ++ groupBytes (groupsFrom p b 8)).length = 2 * a + 2 * (8 - b) := by
    rw [List.length_append, prefixLength, length_groupBytes, groupsFrom_length]
  rw [loop, expandEllipsis_at (by omega), List.take_left' prefixLength, List.drop_left' prefixLength, total,
    show 16 - (2 * a + 2 * (8 - b)) = 2 * (b - a) by omega]
  exact congrArg some (bytes_around_run len (by omega) short.le zeros)

theorem expandEllipsis_trailingRun {p : IP} (len : p.length = 16) {a : Nat} (long : a + 2 ≤ 8)
    (zeros : ZeroGroups p a 8) :
    expandEllipsis (some (groupBytes (groupsFrom p 0 a), some (2 * a), [])) = some p := by
  have prefixLength : (groupBytes (groupsFrom p 0 a)).length = 2 * a := by
    rw [length_groupBytes, groupsFrom_length, Nat.sub_zero]
  have around := bytes_around_run len (by omega) le_rfl zeros
  rw [groupsFrom_self, groupBytes_nil, List.append_nil] at around
  rw [expandEllipsis_at (by omega), List.take_of_length_le (by omega), List.drop_of_length_le (by omega),
    List.append_nil, prefixLength, show 16 - 2 * a = 2 * (8 - a) by omega]
  exact congrArg some around

theorem parseIPv6_runText {p : IP} (len : p.length = 16) {a b : Nat} (long : a + 2 ≤ b) (bound : b ≤ 8)
    (zeros : ZeroGroups p a b) : parseIPv6 (runText p a b) = some p := by
  rcases Nat.eq_zero_or_pos a with zero | pos
  · subst zero
    rw [runText, if_pos rfl, List.nil_append, parseIPv6_ellipsis_first]
    by_cases full : b = 8
    · subst full
      have around := bytes_around_run len (by omega) le_rfl zeros
      simp only [groupsFrom_self, groupBytes_nil, List.nil_append, List.append_nil] at around
      rw [if_pos rfl, if_pos rfl, ← around]
    · rw [if_neg full, if_neg (by simp [appendHex_ne_nil])]
      simpa only [Nat.sub_zero, Nat.mul_zero, groupsFrom_self, groupBytes_nil] using
        expandEllipsis_afterRun len long (by omega) zeros
  · obtain ⟨c, s, split, digit⟩ := appendHex_head (group p 0)
      (colonGroups (groupsFrom p 1 a) ++ ascii "::" ++
        if b = 8 then [] else appendHex [] (group p (2 * b)) ++ colonGroups (groupsFrom p (b + 1) 8))
    have loop := parseIPv6Loop_groups_ellipsis
      (if b = 8 then [] else appendHex [] (group p (2 * b)) ++ colonGroups (groupsFrom p (b + 1) 8))
      (groupsFrom p 1 a) (group p 0) [] (8 - a) (group_lt p 0) (groupsFrom_small p 1 a)
      (by rw [groupsFrom_length, List.length_nil]; omega)
    rw [groupsFrom_length, ← groupsFrom_cons p pos, show 8 - a + (a - 1) + 1 = 8 by omega, List.nil_append,
      List.length_nil, Nat.zero_add, show a - 1 + 1 = a by omega] at loop
    simp only [List.append_assoc] at loop split
    rw [runText, if_neg (show a ≠ 0 by omega), List.append_assoc, List.append_assoc, split,
      parseIPv6_hex_first digit, ← split, loop]
    by_cases full : b = 8
    · subst full
      rw [if_pos rfl, if_pos rfl]
      exact expandEllipsis_trailingRun len long zeros
    · rw [if_neg full, if_neg (by simp [appendHex_ne_nil])]
      exact expandEllipsis_afterRun len long (by omega) zeros
theorem isDigit_dot : isDigit 46 = false := rfl

theorem octet_fits (v : UInt8) : ¬ (!true || decide (v.toNat > 0xFF)) = true := by
  have bound := v.toNat_lt_size
  simp only [UInt8.size] at bound
  simp only [Bool.not_true, Bool.false_or, decide_eq_true_eq]
  omega

theorem ubtoa_no_leading_zero (v : UInt8) (rest : Bytes) :
    ¬ ((ubtoa v).length > 1 ∧ (ubtoa v ++ rest).head? = some 48) := by
  rw [List.head?_append_of_ne_nil _ (ubtoa_ne_nil v)]
  exact fun ⟨long, zero⟩ => ubtoa_leading v long zero

theorem parseIPv4Octets_first (p : Bytes) (v : UInt8) {rest : Bytes}
    (stop : ∀ c ∈ rest.head?, isDigit c = false) (k : Nat) :
    parseIPv4Octets 0 p (ubtoa v ++ rest) (k + 1) = parseIPv4Octets 1 (p ++ [v]) rest k := by
  simp only [parseIPv4Octets, dtoi_ubtoa v stop, List.append_eq_nil, ubtoa_ne_nil, false_and,
    if_false, Nat.lt_irrefl, octet_fits, ubtoa_no_leading_zero, List.drop_left, toUInt8_toNat,
    Bool.false_eq_true]

theorem parseIPv4Octets_dot (i : Nat) (p : Bytes) (v : UInt8) {rest : Bytes}
    (stop : ∀ c ∈ rest.head?, isDigit c = false) (k : Nat) :
    parseIPv4Octets (i + 1) p (46 :: (ubtoa v ++ rest)) (k + 1) =
      parseIPv4Octets (i + 2) (p ++ [v]) rest k := by
  simp only [parseIPv4Octets, List.cons_ne_nil, if_false, List.head?_cons, ne_eq, not_true,
    and_false, Nat.succ_pos, if_true, List.tail_cons, dtoi_ubtoa v stop, octet_fits,
    ubtoa_no_leading_zero, List.drop_left, toUInt8_toNat, Bool.false_eq_true]

theorem parseIPv4_dottedDecimal (p4 : IP) :
    parseIPv4 (dottedDecimal p4) = some (IPv4 (p4.getD 0 0) (p4.getD 1 0) (p4.getD 2 0) (p4.getD 3 0)) := by
  have dot : ∀ c ∈ (46 :: (ubtoa (p4.getD 0 0))).head?, isDigit c = false := by simp [isDigit_dot]
  have text : dottedDecimal p4 = ubtoa (p4.getD 0 0) ++ 46 :: (ubtoa (p4.getD 1 0) ++ 46 ::
      (ubtoa (p4.getD 2 0) ++ 46 :: (ubtoa (p4.getD 3 0) ++ []))) := by
    simp [dottedDecimal, show ascii "." = [46] from rfl]
  rw [parseIPv4, text, parseIPv4Octets_first _ _ (by simp [isDigit_dot]),
    parseIPv4Octets_dot _ _ _ (by simp [isDigit_dot]), parseIPv4Octets_dot _ _ _ (by simp [isDigit_dot]),
    parseIPv4Octets_dot _ _ _ (by simp)]
  rfl

theorem parseIP_of_digits_dot {s : Bytes} (digits : ∀ c ∈ s, isDigit c = true) (rest : Bytes) :
    parseIP (s ++ 46 :: rest) = parseIPv4 (s ++ 46 :: rest) := by
  have skip : ∀ c ∈ s, ¬ decide (c = 46 ∨ c = 58) = true := by
    intro c mem separator
    have digit := digits c mem
    rcases of_decide_eq_true separator with rfl | rfl <;> exact absurd digit (by decide)
  rw [parseIP, List.find?_append, List.find?_eq_none.mpr skip, List.find?_cons_of_pos _ (by decide)]
  rfl

theorem parseIP_of_colon {s : Bytes} (colon : 58 ∈ s) (noDot : 46 ∉ s) : parseIP s = parseIPv6 s := by
  unfold parseIP
  split
  · rename_i found
    exact absurd (List.mem_of_find?_eq_some found) noDot
  · rfl
  · rename_i missing
    exact absurd (by decide) (List.find?_eq_none.mp missing 58 colon)

theorem parseIP_dottedDecimal (p4 : IP) :
    parseIP (dottedDecimal p4) = some (IPv4 (p4.getD 0 0) (p4.getD 1 0) (p4.getD 2 0) (p4.getD 3 0)) := by
  have text : dottedDecimal p4 = ubtoa (p4.getD 0 0) ++ 46 :: (ubtoa (p4.getD 1 0) ++ ascii "." ++
      ubtoa (p4.getD 2 0) ++ ascii "." ++ ubtoa (p4.getD 3 0)) := by
    simp [dottedDecimal, show ascii "." = [46] from rfl]
  rw [← parseIPv4_dottedDecimal, text, parseIP_of_digits_dot (ubtoa_digits _)]

theorem colonGroups_chars (gs : List Nat) : ∀ c ∈ colonGroups gs, c = 58 ∨ c ∈ hexDigit := by
  intro c member
  simp only [colonGroups, List.mem_flatMap, List.mem_append] at member
  obtain ⟨g, _, colon | digit⟩ := member
  · exact .inl (by simpa [show ascii ":" = [58] from rfl] using colon)
  · exact .inr (appendHex_digits g c digit)

theorem no_dot_of_chars {t : Bytes} (chars : ∀ c ∈ t, c = 58 ∨ c ∈ hexDigit) : 46 ∉ t := fun dot =>
  (chars 46 dot).elim (by decide) fun digit => (hexDigit_not_separator 46 digit).1 rfl

theorem fullText_chars (p : IP) : ∀ c ∈ fullText p, c = 58 ∨ c ∈ hexDigit := by
  intro c member
  rcases List.mem_append.mp member with first | rest
  · exact .inr (appendHex_digits _ c first)
  · exact colonGroups_chars _ c rest

theorem runText_chars (p : IP) (a b : Nat) : ∀ c ∈ runText p a b, c = 58 ∨ c ∈ hexDigit := by
  intro c member
  simp only [runText, List.mem_append] at member
  rcases member with (first | colons) | last
  · split at first
    · simp at first
    · rcases List.mem_append.mp first with digit | rest
      · exact .inr (appendHex_digits _ c digit)
      · exact colonGroups_chars _ c rest
  · exact .inl (by simpa [show ascii "::" = [58, 58] from rfl] using colons)
  · split at last
    · simp at last
    · rcases List.mem_append.mp last with digit | rest
      · exact .inr (appendHex_digits _ c digit)
      · exact colonGroups_chars _ c rest

theorem parseIP_formatIPv6 {p : IP} (len : p.length = 16) :
    parseIP (formatIPv6 p (zeroRun p).1 (zeroRun p).2 8 0 []) = some p := by
  rcases zeroRun_cases p with none | ⟨a, b, run, long, bound, zeros⟩
  · have colon : 58 ∈ fullText p := by
      rw [fullText, groupsFrom_cons p (by omega), colonGroups_cons]
      simp [show ascii ":" = [58] from rfl]
    rw [none, formatIPv6_full, parseIP_of_colon colon (no_dot_of_chars (fullText_chars p)),
      parseIPv6_fullText len]
  · have colon : 58 ∈ runText p a b := by
      simp [runText, show ascii "::" = [58, 58] from rfl]
    rw [run, formatIPv6_run p long bound, parseIP_of_colon colon (no_dot_of_chars (runText_chars p a b)),
      parseIPv6_runText len long bound zeros]

theorem IPv4_getD {p4 : IP} (len : p4.length = 4) :
    IPv4 (p4.getD 0 0) (p4.getD 1 0) (p4.getD 2 0) (p4.getD 3 0) = v4InV6Prefix ++ p4 := by
  match p4, len with
  | [_, _, _, _], _ => rfl

theorem mapped_of_to4 {ip p4 : IP} (sixteen : ip.length = 16) (to4 : ip.to4 = some p4) :
    ip.take 12 = v4InV6Prefix ∧ ip.drop 12 = p4 := by
  unfold IP.to4 at to4
  rw [if_neg (by omega)] at to4
  split at to4
  · exact ⟨‹_ ∧ _›.2, Option.some.inj to4⟩
  · cases to4

theorem to16_four {ip : IP} (four : ip.length = 4) : ip.to16 = some (v4InV6Prefix ++ ip) := by
  simp [IP.to16, four]

theorem to16_sixteen {ip : IP} (sixteen : ip.length = 16) : ip.to16 = some ip := by
  simp [IP.to16, sixteen]

theorem string_of_to4 {ip p4 : IP} (nonzero : ip.length ≠ 0) (to4 : ip.to4 = some p4) :
    ip.string = dottedDecimal p4 := by
  rw [IP.string, if_neg nonzero, to4]

theorem string_of_v6 {ip : IP} (sixteen : ip.length = 16) (to4 : ip.to4 = none) :
    ip.string = formatIPv6 ip (zeroRun ip).1 (zeroRun ip).2 8 0 [] := by
  rw [IP.string, if_neg (by omega), to4]
  exact if_neg (not_not.mpr sixteen)

theorem parseIP_string {ip : IP} (valid : ip.length = 4 ∨ ip.length = 16) : parseIP ip.string = ip.to16 := by
  rcases valid with four | sixteen
  · rw [string_of_to4 (by omega) (show ip.to4 = some ip by simp [IP.to4, four]), parseIP_dottedDecimal, IPv4_getD four,
      to16_four four]
  · cases to4 : ip.to4 with
    | some p4 =>
      obtain ⟨start, rfl⟩ := mapped_of_to4 sixteen to4
      rw [string_of_to4 (by omega) to4, parseIP_dottedDecimal, IPv4_getD (by simp [sixteen]), ← start,
        List.take_append_drop, to16_sixteen sixteen]
    | none => rw [string_of_v6 sixteen to4, parseIP_formatIPv6 sixteen, to16_sixteen sixteen]

theorem to4_v4InV6Prefix_append {p4 : IP} (four : p4.length = 4) : (v4InV6Prefix ++ p4).to4 = some p4 := by
  simp [IP.to4, four, v4InV6Prefix]

theorem to4_getD_of_to16 {ip t : IP} (to16 : ip.to16 = some t) : ip.to4.getD ip = t.to4.getD t := by
  unfold IP.to16 at to16
  split_ifs at to16 with four sixteen
  · cases to16
    rw [to4_v4InV6Prefix_append four]
    simp [IP.to4, four]
  · cases to16
    rfl

theorem string_to16 {ip q : IP} (to16 : ip.to16 = some q) : q.string = ip.string := by
  unfold IP.to16 at to16
  split at to16
  · rename_i four
    cases to16
    rw [string_of_to4 (by simp [four]) (to4_v4InV6Prefix_append four),
      string_of_to4 (by omega) (show ip.to4 = some ip by simp [IP.to4, four])]
  · split at to16
    · cases to16
      rfl
    · cases to16

theorem equal_iff_to16 {a b : IP} (validA : a.length = 4 ∨ a.length = 16) (validB : b.length = 4 ∨ b.length = 16) :
    a.equal b = true ↔ a.to16 = b.to16 := by
  have prefixLength : v4InV6Prefix.length = 12 := rfl
  rcases validA with fourA | sixteenA <;> rcases validB with fourB | sixteenB
  · simp [IP.equal, to16_four fourA, to16_four fourB, fourA, fourB]
  · rw [to16_four fourA, to16_sixteen sixteenB, Option.some.injEq]
    simp only [IP.equal, fourA, sixteenB, if_true, and_self, Bool.and_eq_true, beq_iff_eq,
      show ¬ (4 : Nat) = 16 by decide, if_false]
    constructor
    · rintro ⟨start, rest⟩
      rw [← start, rest, List.take_append_drop]
    · rintro rfl
      exact ⟨List.take_left' prefixLength, (List.drop_left' prefixLength).symm⟩
  · rw [to16_sixteen sixteenA, to16_four fourB, Option.some.injEq]
    simp [IP.equal, fourB, sixteenA]
    constructor
    · rintro ⟨start, rest⟩
      rw [← start, ← rest, List.take_append_drop]
    · rintro rfl
      exact ⟨List.take_left' prefixLength, List.drop_left' prefixLength⟩
  · simp [IP.equal, to16_sixteen sixteenA, to16_sixteen sixteenB, sixteenA, sixteenB]

theorem string_eq_iff_equal {a b : IP} (validA : a.length = 4 ∨ a.length = 16) (validB : b.length = 4 ∨ b.length = 16) :
    a.string = b.string ↔ a.equal b = true := by
  rw [equal_iff_to16 validA validB]
  constructor
  · intro same
    rw [← parseIP_string validA, ← parseIP_string validB, same]
  · intro same
    obtain ⟨q, to16⟩ : ∃ q, a.to16 = some q := by
      rcases validA with four | sixteen
      · exact ⟨_, to16_four four⟩
      · exact ⟨_, to16_sixteen sixteen⟩
    have to16' : b.to16 = some q := same ▸ to16
    rw [← string_to16 to16, ← string_to16 to16']

/-- `IP.String` writes a valid address as a text `ParseIP` reads back, and writes two alike exactly when `Equal`. -/
theorem string_roundTrip {a b : IP} (validA : a.length = 4 ∨ a.length = 16) (validB : b.length = 4 ∨ b.length = 16) :
    parseIP a.string = a.to16 ∧ (a.string = b.string ↔ a.equal b = true) :=
  ⟨parseIP_string validA, string_eq_iff_equal validA validB⟩

theorem string_roundTrip_mapped :
    ((v4InV6Prefix ++ [10, 0, 0, 1]).length = 4 ∨ (v4InV6Prefix ++ [10, 0, 0, 1]).length = 16) ∧
      (([10, 0, 0, 1] : IP).length = 4 ∨ ([10, 0, 0, 1] : IP).length = 16) ∧
      parseIP (v4InV6Prefix ++ [10, 0, 0, 1]).string = (v4InV6Prefix ++ [10, 0, 0, 1]).to16 ∧
      ((v4InV6Prefix ++ [10, 0, 0, 1]).string = IP.string [10, 0, 0, 1] ↔
        (v4InV6Prefix ++ [10, 0, 0, 1]).equal [10, 0, 0, 1] = true) :=
  have validA : (v4InV6Prefix ++ [10, 0, 0, 1]).length = 4 ∨ (v4InV6Prefix ++ [10, 0, 0, 1]).length = 16 := .inr rfl
  have validB : ([10, 0, 0, 1] : IP).length = 4 ∨ ([10, 0, 0, 1] : IP).length = 16 := .inl rfl
  ⟨validA, validB, string_roundTrip validA validB⟩

end Go.Net
