import Allowlist.Go.Strings

namespace Go

/-- A `map[string]bool` to which only `true` is ever written: its keys, each once. -/
structure BoolMap where
  keys : List Bytes
  nodup : keys.Nodup

namespace BoolMap

instance : DecidableEq BoolMap := fun a b =>
  decidable_of_iff (a.keys = b.keys) (by cases a; cases b; simp)

def empty : BoolMap := ⟨[], List.nodup_nil⟩

def get (m : BoolMap) (k : Bytes) : Bool := decide (k ∈ m.keys)

def set (m : BoolMap) (k : Bytes) : BoolMap :=
  if h : k ∈ m.keys then m else ⟨k :: m.keys, List.nodup_cons.mpr ⟨h, m.nodup⟩⟩

def delete (m : BoolMap) (k : Bytes) : BoolMap := ⟨m.keys.erase k, m.nodup.erase k⟩

@[simp] theorem keys_empty : empty.keys = [] := rfl

@[simp] theorem get_eq (m : BoolMap) (k : Bytes) : m.get k = decide (k ∈ m.keys) := rfl

@[simp] theorem mem_keys_set {m : BoolMap} {k k' : Bytes} : k' ∈ (m.set k).keys ↔ k' = k ∨ k' ∈ m.keys := by
  unfold set
  split
  · exact ⟨.inr, fun member => member.elim (fun same => same ▸ ‹_›) id⟩
  · exact List.mem_cons

@[simp] theorem mem_keys_delete {m : BoolMap} {k k' : Bytes} :
    k' ∈ (m.delete k).keys ↔ k' ≠ k ∧ k' ∈ m.keys :=
  m.nodup.mem_erase_iff

end BoolMap

/-- Reading a map: a nil map reads as empty. -/
def mapGet : Option BoolMap → Bytes → Bool
  | none, _ => false
  | some m, k => m.get k

/-- The keys `range` visits; a nil map has none. -/
def mapKeys : Option BoolMap → List Bytes
  | none => []
  | some m => m.keys

/-- `delete` is a no-op on a nil map. -/
def mapDelete : Option BoolMap → Bytes → Option BoolMap
  | none, _ => none
  | some m, k => some (m.delete k)

/-- Assigning to an entry of a nil map panics. -/
def mapSet : Option BoolMap → Bytes → Except Panic (Option BoolMap)
  | none, _ => .error .assignmentToEntryInNilMap
  | some m, k => .ok (some (m.set k))

theorem mapGet_eq (m : Option BoolMap) (k : Bytes) : mapGet m k = decide (k ∈ mapKeys m) := by
  cases m <;> simp [mapGet, mapKeys]

theorem mapKeys_nodup (m : Option BoolMap) : (mapKeys m).Nodup := by
  cases m
  · exact List.nodup_nil
  · exact BoolMap.nodup _

@[simp] theorem mem_mapKeys_delete {m : Option BoolMap} {k k' : Bytes} :
    k' ∈ mapKeys (mapDelete m k) ↔ k' ≠ k ∧ k' ∈ mapKeys m := by
  cases m <;> simp [mapDelete, mapKeys]

end Go
