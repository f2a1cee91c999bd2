import Allowlist.Go.Map
import Allowlist.Net.IPNetString

namespace Allowlist

open Go Go.Net

/-- `validIP`: only the length is checked. -/
def validIP (ip : IP) : Bool :=
  if ip.length = 4 then true
  else if ip.length = 16 then true
  else false

theorem validIP_iff {ip : IP} : validIP ip = true ↔ ip.length = 4 ∨ ip.length = 16 := by
  unfold validIP
  split_ifs <;> simp_all

theorem validIP_eq_isSome_to16 (ip : IP) : validIP ip = ip.to16.isSome := by
  unfold validIP IP.to16
  split_ifs <;> rfl

def errInvalidAllowlist : Bytes := ascii "allowlist: invalid allowlist"

/-- The quote check both `UnmarshalJSON` methods make, then the pieces between the quotes. -/
def unquote (inp : Bytes) : Except Panic (Option (List Bytes)) :=
  match inp with
  | [] => .error (.indexOutOfRange 0 0)
  | first :: _ =>
    if first ≠ 34 ∨ inp.getLast? ≠ some 34 then .ok none
    else if inp.length < 2 then .error (.sliceBoundsOutOfRange 1 (inp.length - 1))
    else .ok (some (split (trimSpace ((inp.drop 1).take (inp.length - 2))) 44))

/-- The bytes both `MarshalJSON` methods write for a list of entries. -/
def quoteJoin (ss : List Bytes) : Bytes := ascii "\"" ++ join ss 44 ++ ascii "\""

theorem unquote_returns {inp : Bytes} (nonempty : inp ≠ []) (notLoneQuote : inp ≠ [34]) :
    ∃ nets, unquote inp = .ok nets := by
  match inp, nonempty with
  | [first], _ =>
    have unquoted : first ≠ 34 := fun quote => notLoneQuote (congrArg ([·]) quote)
    exact ⟨none, by simp [unquote, unquoted]⟩
  | first :: second :: rest, _ =>
    simp only [unquote, show ¬(first :: second :: rest).length < 2 by simp, if_false]
    split <;> exact ⟨_, rfl⟩

theorem unquote_quoteJoin {ss : List Bytes} (graphic : ∀ s ∈ ss, ∀ c ∈ s, isGraphic c = true)
    (noComma : ∀ s ∈ ss, 44 ∉ s) : unquote (quoteJoin ss) = .ok (some (if ss = [] then [[]] else ss)) := by
  have body : ∀ c ∈ join ss 44, isGraphic c = true := by
    intro c member
    rcases mem_join member with rfl | ⟨s, inside, byte⟩
    · rfl
    · exact graphic s inside c byte
  have text : quoteJoin ss = 34 :: (join ss 44 ++ [34]) := rfl
  have middle : ((quoteJoin ss).drop 1).take ((quoteJoin ss).length - 2) = join ss 44 := by
    rw [text, List.drop_one, List.tail_cons, List.length_cons, List.length_append, List.length_singleton,
      show (join ss 44).length + 1 + 1 - 2 = (join ss 44).length by omega, List.take_left]
  have last : (34 :: (join ss 44 ++ [34])).getLast? = some 34 := by
    rw [← List.cons_append, List.getLast?_concat]
  rw [unquote.eq_def, text]
  simp only
  rw [if_neg (by simp [last]), if_neg (by simp), ← text, middle, trimSpace_of_graphic body]
  split
  · rename_i empty
    subst empty
    rfl
  · rw [split_join noComma ‹_›]

end Allowlist
