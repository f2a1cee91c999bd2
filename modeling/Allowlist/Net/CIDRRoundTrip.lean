import Allowlist.Net.IPNetString

namespace Go.Net

open Go

theorem and_and_self : ∀ (a b : UInt8), a &&& b &&& b = a &&& b
  | ⟨a⟩, ⟨b⟩ => congrArg UInt8.mk (show a &&& b &&& b = a &&& b by rw [BitVec.and_assoc, BitVec.and_self])

theorem zipWith_and_idem : ∀ (a m : Bytes),
    List.zipWith (· &&& ·) (List.zipWith (· &&& ·) a m) m = List.zipWith (· &&& ·) a m
  | [], _ => rfl
  | _ :: _, [] => rfl
  | x :: a, y :: m => by
    rw [List.zipWith_cons_cons, List.zipWith_cons_cons, and_and_self, zipWith_and_idem a m]

theorem drop_cidrMaskFrom : ∀ (j k l : Nat), (cidrMaskFrom (j + k) l).drop j = cidrMaskFrom k (l - 8 * j)
  | 0, k, l => by rw [Nat.zero_add, List.drop_zero, Nat.mul_zero, Nat.sub_zero]
  | j + 1, k, l => by
    rw [show j + 1 + k = (j + k) + 1 by omega, cidrMaskFrom]
    split
    · rw [List.drop_succ_cons, drop_cidrMaskFrom j k (l - 8), show l - 8 - 8 * j = l - 8 * (j + 1) by omega]
    · rw [List.drop_succ_cons, drop_cidrMaskFrom j k 0, show 0 - 8 * j = l - 8 * (j + 1) by omega]

theorem leadingOnes_partial : ∀ l : Fin 8,
    leadingOnes 8 0 (~~~((0xff : UInt8) >>> l.val.toUInt8)) = (l.val, 0) ∧ ~~~((0xff : UInt8) >>> l.val.toUInt8) ≠ 0xff := by
  decide

theorem simpleMaskLengthFrom_cidrMaskFrom : ∀ (k l n : Nat), l ≤ 8 * k →
    simpleMaskLengthFrom n (cidrMaskFrom k l) = ((n + l : Nat) : Int)
  | 0, l, n, short => by
    rw [show l = 0 by omega]
    rfl
  | k + 1, l, n, short => by
    rw [cidrMaskFrom]
    split
    · rw [simpleMaskLengthFrom_full, simpleMaskLengthFrom_cidrMaskFrom k (l - 8) (n + 8) (by omega),
        show n + 8 + (l - 8) = n + l by omega]
    · obtain ⟨counted, notFull⟩ := leadingOnes_partial ⟨l, by omega⟩
      rw [simpleMaskLengthFrom_notFull notFull, counted, cidrMaskFrom_zero, if_neg fun h => h rfl,
        if_pos (by simp), Nat.add_comm]

theorem simpleMaskLength_cidrMaskFrom {k l : Nat} (short : l ≤ 8 * k) : simpleMaskLength (cidrMaskFrom k l) = l := by
  rw [simpleMaskLength, simpleMaskLengthFrom_cidrMaskFrom k l 0 short, Nat.zero_add]

structure CIDRForm (nn : IP) (m : IPMask) (l : Nat) : Prop where
  size : nn.length = 4 ∨ nn.length = 16
  short : l ≤ 8 * nn.length
  mask_eq : m = cidrMaskFrom nn.length l
  masked : List.zipWith (· &&& ·) nn m = nn

theorem CIDRMask_eq {len l : Nat} (size : len = 4 ∨ len = 16) (short : l ≤ 8 * len) :
    CIDRMask l (8 * len) = cidrMaskFrom len l := by
  unfold CIDRMask
  rw [if_neg (by omega), if_neg (by omega)]
  congr 1
  omega

theorem parseIPv4_mapped {s : Bytes} {ip : IP} (ok : parseIPv4 s = some ip) :
    ∃ p4 : IP, p4.length = 4 ∧ ip = v4InV6Prefix ++ p4 := by
  unfold parseIPv4 at ok
  split at ok
  · cases ok
    exact ⟨[_, _, _, _], rfl, rfl⟩
  · cases ok

theorem mask_mapped {p4 m : Bytes} (four : p4.length = 4) (maskFour : m.length = 4) :
    IP.mask (v4InV6Prefix ++ p4) m = List.zipWith (· &&& ·) p4 m := by
  simp [IP.mask, four, maskFour, v4InV6Prefix]

theorem mask_sixteen {ip m : Bytes} (sixteen : ip.length = 16) (maskSixteen : m.length = 16) :
    IP.mask ip m = List.zipWith (· &&& ·) ip m := by
  simp [IP.mask, sixteen, maskSixteen]

theorem parseCIDR_cidrForm {s : Bytes} {ip : IP} {n : IPNet} (parsed : parseCIDR s = .ok (ip, n)) :
    ∃ l, CIDRForm n.ip n.mask l := by
  unfold parseCIDR at parsed
  split at parsed
  · cases parsed
  rename_i i _
  cases v4 : parseIPv4 (s.take i) with
  | some ip4 =>
    obtain ⟨p4, four, rfl⟩ := parseIPv4_mapped v4
    simp only [v4] at parsed
    rcases read : dtoi (s.drop (i + 1)) with ⟨l, j, _ | _⟩ <;> rw [read] at parsed
    · cases parsed
    dsimp only at parsed
    split at parsed
    · cases parsed
    rename_i fits
    obtain ⟨-, rfl⟩ := Prod.mk.inj (Except.ok.inj parsed)
    have size : (List.zipWith (· &&& ·) p4 (cidrMaskFrom 4 l)).length = 4 := by simp [four]
    dsimp only
    rw [CIDRMask_eq (.inl rfl) (by omega), mask_mapped four (length_cidrMaskFrom 4 l)]
    exact ⟨l, .inl size, by rw [size]; omega, by rw [size], zipWith_and_idem _ _⟩
  | none =>
    simp only [v4] at parsed
    cases v6 : parseIPv6 (s.take i) with
    | none =>
      simp only [v6] at parsed
      cases parsed
    | some ip6 =>
      have sixteen := parseIPv6_length v6
      simp only [v6] at parsed
      rcases read : dtoi (s.drop (i + 1)) with ⟨l, j, _ | _⟩ <;> rw [read] at parsed
      · cases parsed
      dsimp only at parsed
      split at parsed
      · cases parsed
      rename_i fits
      obtain ⟨-, rfl⟩ := Prod.mk.inj (Except.ok.inj parsed)
      have size : (List.zipWith (· &&& ·) ip6 (cidrMaskFrom 16 l)).length = 16 := by simp [sixteen]
      dsimp only
      rw [CIDRMask_eq (.inr rfl) (by omega), mask_sixteen sixteen (length_cidrMaskFrom 16 l)]
      exact ⟨l, .inr size, by rw [size]; omega, by rw [size], zipWith_and_idem _ _⟩

theorem networkNumberAndMask_canonical {nn : IP} {m : IPMask}
    (canon : nn.length = 4 ∨ (nn.length = 16 ∧ nn.to4 = none)) (size : m.length = nn.length) :
    IPNet.networkNumberAndMask ⟨nn, m⟩ = some (nn, m) := by
  rcases canon with four | ⟨sixteen, none4⟩
  · have to4 : nn.to4 = some nn := by simp [IP.to4, four]
    simp [IPNet.networkNumberAndMask, to4, four, size]
  · simp [IPNet.networkNumberAndMask, none4, sixteen, size]

theorem networkNumberAndMask_of_cidrForm {ip : IP} {mask : IPMask} {l : Nat} (form : CIDRForm ip mask l) :
    ∃ nn m l', IPNet.networkNumberAndMask ⟨ip, mask⟩ = some (nn, m) ∧ CIDRForm nn m l' ∧
      (nn.length = 4 ∨ (nn.length = 16 ∧ nn.to4 = none)) := by
  have size : mask.length = ip.length := by rw [form.mask_eq, length_cidrMaskFrom]
  rcases form.size with four | sixteen
  · exact ⟨ip, mask, l, networkNumberAndMask_canonical (.inl four) size, form, .inl four⟩
  cases to4 : ip.to4 with
  | none =>
    exact ⟨ip, mask, l, networkNumberAndMask_canonical (.inr ⟨sixteen, to4⟩) size, form, .inr ⟨sixteen, to4⟩⟩
  | some p4 =>
    obtain ⟨-, rfl⟩ := mapped_of_to4 sixteen to4
    have four : (ip.drop 12).length = 4 := by simp [sixteen]
    have maskDrop : mask.drop 12 = cidrMaskFrom 4 (l - 96) := by
      rw [form.mask_eq, sixteen]
      exact drop_cidrMaskFrom 12 4 l
    refine ⟨ip.drop 12, mask.drop 12, l - 96, ?_, ⟨.inl four, ?_, by rw [maskDrop, four], ?_⟩, .inl four⟩
    · simp [IPNet.networkNumberAndMask, to4, size, sixteen, four]
    · have := form.short
      omega
    · rw [← List.drop_zipWith, form.masked]

theorem dot_mem_of_parseIPv4Octets {i k : Nat} {p s q r : Bytes} (later : 0 < i)
    (ok : parseIPv4Octets i p s (k + 1) = some (q, r)) : 46 ∈ s := by
  unfold parseIPv4Octets at ok
  split at ok
  · cases ok
  split at ok
  · cases ok
  rename_i nonempty dot
  obtain ⟨c, rest, rfl⟩ := List.exists_cons_of_ne_nil nonempty
  have : c = 46 := by simpa using not_and.mp dot later
  exact this ▸ List.mem_cons_self _ _

theorem dot_mem_of_parseIPv4 {s : Bytes} {ip : IP} (ok : parseIPv4 s = some ip) : 46 ∈ s := by
  unfold parseIPv4 at ok
  split at ok
  · rename_i p read
    unfold parseIPv4Octets at read
    simp only [gt_iff_lt, Nat.lt_irrefl, false_and, if_false] at read
    split at read
    · cases read
    rcases octet : dtoi s with ⟨n, c, good⟩
    rw [octet] at read
    dsimp only at read
    split at read
    · cases read
    split at read
    · cases read
    exact List.mem_of_mem_drop (dot_mem_of_parseIPv4Octets Nat.one_pos read)
  · cases ok

theorem string_v6_chars {ip : IP} (sixteen : ip.length = 16) (to4 : ip.to4 = none) :
    ∀ c ∈ ip.string, c = 58 ∨ c ∈ hexDigit := by
  rw [string_of_v6 sixteen to4]
  rcases zeroRun_cases ip with none | ⟨a, b, run, long, bound, -⟩
  · rw [none, formatIPv6_full]
    exact fullText_chars ip
  · rw [run, formatIPv6_run ip long bound]
    exact runText_chars ip a b

theorem parseIPv6_of_parseIP {s : Bytes} {ip : IP} (parsed : parseIP s = some ip) (noDot : 46 ∉ s) :
    parseIPv6 s = some ip := by
  unfold parseIP at parsed
  split at parsed
  · rename_i found
    exact absurd (List.mem_of_find?_eq_some found) noDot
  · exact parsed
  · cases parsed

theorem dtoi_uitoa {l : Nat} (small : l < 256) : dtoi (uitoa l) = (l, (uitoa l).length, true) := by
  have read := dtoi_ubtoa l.toUInt8 (show ∀ c ∈ ([] : Bytes).head?, isDigit c = false by simp)
  rw [List.append_nil, toNat_toUInt8, Nat.mod_eq_of_lt small] at read
  rw [uitoa_eq_ubtoa small, read]

theorem indexOf?_slash {a : Bytes} (noSlash : 47 ∉ a) (b : Bytes) : (a ++ ascii "/" ++ b).indexOf? 47 = some a.length := by
  rw [List.append_assoc]
  exact indexOf?_append_cons noSlash b

theorem parseCIDR_canonical {nn : IP} {m : IPMask} {l : Nat} (form : CIDRForm nn m l)
    (canon : nn.length = 4 ∨ (nn.length = 16 ∧ nn.to4 = none)) :
    ∃ ip, parseCIDR (nn.string ++ ascii "/" ++ uitoa l) = .ok (ip, ⟨nn, m⟩) := by
  have short := form.short
  have suffix := dtoi_uitoa (show l < 256 by rcases form.size with size | size <;> omega)
  have slash := indexOf?_slash (slash_not_mem_string form.size) (uitoa l)
  have addr : (nn.string ++ ascii "/" ++ uitoa l).take nn.string.length = nn.string := by
    rw [List.append_assoc, List.take_left]
  have rest : (nn.string ++ ascii "/" ++ uitoa l).drop (nn.string.length + 1) = uitoa l :=
    List.drop_left' (by rw [List.length_append]; rfl)
  unfold parseCIDR
  rw [slash]
  dsimp only
  rw [addr, rest, suffix]
  rcases canon with four | ⟨sixteen, to4⟩
  · have v4 : parseIPv4 nn.string = some (v4InV6Prefix ++ nn) := by
      rw [string_of_to4 (by omega) (show nn.to4 = some nn by simp [IP.to4, four]), parseIPv4_dottedDecimal,
        IPv4_getD four]
    have mask4 : cidrMaskFrom 4 l = m := by rw [form.mask_eq, four]
    rw [v4]
    dsimp only
    rw [if_neg (by omega), CIDRMask_eq (.inl rfl) (by omega), mask4,
      mask_mapped four (by rw [← mask4, length_cidrMaskFrom]), form.masked]
    exact ⟨_, rfl⟩
  · have noDot : 46 ∉ nn.string := no_dot_of_chars (string_v6_chars sixteen to4)
    have v4 : parseIPv4 nn.string = none := by
      cases parsed : parseIPv4 nn.string with
      | none => rfl
      | some _ => exact absurd (dot_mem_of_parseIPv4 parsed) noDot
    have v6 : parseIPv6 nn.string = some nn :=
      parseIPv6_of_parseIP (by rw [parseIP_string (.inr sixteen), to16_sixteen sixteen]) noDot
    have mask16 : cidrMaskFrom 16 l = m := by rw [form.mask_eq, sixteen]
    rw [v4]
    dsimp only
    rw [v6]
    dsimp only
    rw [if_neg (by omega), CIDRMask_eq (.inr rfl) (by omega), mask16,
      mask_sixteen sixteen (by rw [← mask16, length_cidrMaskFrom]), form.masked]
    exact ⟨_, rfl⟩

theorem string_of_cidrForm {n : IPNet} {nn : IP} {m : IPMask} {l : Nat}
    (split : n.networkNumberAndMask = some (nn, m)) (form : CIDRForm nn m l) :
    IPNet.string (some n) = nn.string ++ ascii "/" ++ uitoa l := by
  rw [string_some split, form.mask_eq, simpleMaskLength_cidrMaskFrom form.short, if_neg (by omega),
    Int.toNat_ofNat]

theorem parseCIDR_string {s : Bytes} {ip : IP} {n : IPNet} (parsed : parseCIDR s = .ok (ip, n)) :
    ∃ ip' n', parseCIDR (IPNet.string (some n)) = .ok (ip', n') ∧ IPNet.string (some n') = IPNet.string (some n) := by
  obtain ⟨l, form⟩ := parseCIDR_cidrForm parsed
  obtain ⟨nn, m, l', split, form', canon⟩ := networkNumberAndMask_of_cidrForm form
  have size : m.length = nn.length := by rw [form'.mask_eq, length_cidrMaskFrom]
  have text := string_of_cidrForm (show n.networkNumberAndMask = some (nn, m) from split) form'
  obtain ⟨ip', reparsed⟩ := parseCIDR_canonical form' canon
  exact ⟨ip', ⟨nn, m⟩, text ▸ reparsed,
    (string_of_cidrForm (networkNumberAndMask_canonical canon size) form').trans text.symm⟩

theorem string_parseCIDR_chars {s : Bytes} {ip : IP} {n : IPNet} (parsed : parseCIDR s = .ok (ip, n)) :
    ∀ c ∈ IPNet.string (some n), isGraphic c = true ∧ c ≠ 44 := by
  obtain ⟨l, form⟩ := parseCIDR_cidrForm parsed
  obtain ⟨nn, m, l', split, form', -⟩ := networkNumberAndMask_of_cidrForm form
  have short := form'.short
  rw [string_of_cidrForm (show n.networkNumberAndMask = some (nn, m) from split) form',
    uitoa_eq_ubtoa (show l' < 256 by rcases form'.size with size | size <;> omega)]
  intro c member
  rcases List.mem_append.mp member with front | digit
  · rcases List.mem_append.mp front with number | slash
    · obtain ⟨graphic, comma, -⟩ := ipChar_separators (ipChar_of_mem_string form'.size c number)
      exact ⟨graphic, comma⟩
    · rw [show ascii "/" = [47] from rfl, List.mem_singleton] at slash
      subst slash
      exact ⟨rfl, by decide⟩
  · obtain ⟨graphic, comma, -⟩ := ipChar_separators (ipChar_of_isDigit (ubtoa_digits _ c digit))
    exact ⟨graphic, comma⟩

/-- `ParseCIDR` reads back the text of every network it returned, with the same text and addresses. -/
theorem parseCIDR_roundTrip {s : Bytes} {ip : IP} {n : IPNet} (parsed : parseCIDR s = .ok (ip, n)) :
    ∃ ip' n', parseCIDR (IPNet.string (some n)) = .ok (ip', n') ∧ IPNet.string (some n') = IPNet.string (some n) ∧
      ∀ x, n'.contains x = n.contains x := by
  obtain ⟨ip', n', reread, same⟩ := parseCIDR_string parsed
  exact ⟨ip', n', reread, same, contains_of_string same⟩

theorem parseCIDR_roundTrip_hostBits :
    parseCIDR (ascii "10.1.2.3/8") = .ok (IPv4 10 1 2 3, ⟨[10, 0, 0, 0], [255, 0, 0, 0]⟩) ∧
      ∃ ip' n', parseCIDR (IPNet.string (some ⟨[10, 0, 0, 0], [255, 0, 0, 0]⟩)) = .ok (ip', n') ∧
        IPNet.string (some n') = IPNet.string (some ⟨[10, 0, 0, 0], [255, 0, 0, 0]⟩) ∧
        ∀ x, n'.contains x = IPNet.contains ⟨[10, 0, 0, 0], [255, 0, 0, 0]⟩ x :=
  have parsed : parseCIDR (ascii "10.1.2.3/8") = .ok (IPv4 10 1 2 3, ⟨[10, 0, 0, 0], [255, 0, 0, 0]⟩) := by decide
  ⟨parsed, parseCIDR_roundTrip parsed⟩

end Go.Net
