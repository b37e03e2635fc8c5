/-!
Maps that keep the order of insertion.

A map is a list of pairs.  The order of its keys is the order in which they
were appended; removing a key leaves the others where they are.  The operations
keep keys distinct, which `DistinctKeys` states and the lemmas at the end show.
-/

namespace Interposition

/-- A finite map with ordered keys. -/
structure OrderedMap (κ α : Type) where
  pairs : List (κ × α)

namespace OrderedMap

variable {κ α : Type}

/-- The map without keys. -/
def empty : OrderedMap κ α := ⟨[]⟩

instance : Inhabited (OrderedMap κ α) := ⟨empty⟩

/-- The keys, in order. -/
def keys (map : OrderedMap κ α) : List κ :=
  map.pairs.map (·.1)

/-- The values, in the order of their keys. -/
def values (map : OrderedMap κ α) : List α :=
  map.pairs.map (·.2)

def size (map : OrderedMap κ α) : Nat :=
  map.pairs.length

def isEmpty (map : OrderedMap κ α) : Bool :=
  map.pairs.isEmpty

/-- No key occurs twice. -/
def DistinctKeys (map : OrderedMap κ α) : Prop :=
  map.keys.Nodup

section Lookup

variable [DecidableEq κ]

/-- The value at a key. -/
def get? (map : OrderedMap κ α) (key : κ) : Option α :=
  map.pairs.lookup key

def contains (map : OrderedMap κ α) (key : κ) : Bool :=
  (map.get? key).isSome

/-- The map without a key. -/
def erase (map : OrderedMap κ α) (key : κ) : OrderedMap κ α :=
  ⟨map.pairs.filter fun pair => pair.1 ≠ key⟩

/-- Bind a key at the end of the map, wherever it stood before. -/
def append (map : OrderedMap κ α) (key : κ) (value : α) : OrderedMap κ α :=
  ⟨(map.erase key).pairs ++ [(key, value)]⟩

end Lookup

/-- What a sweep over a map leaves and removes.  `seen` holds the values it
looked at, the latest first. -/
structure Sweep (κ α : Type) where
  kept : OrderedMap κ α
  removed : List α
  seen : List α

/-- Sweep over pairs.  The predicate is asked about one value after the other,
in order, and may use what it has seen before. -/
def sweepPairs (keep : List α → α → Bool) : List α → List (κ × α) → Sweep κ α
  | seen, [] => ⟨⟨[]⟩, [], seen⟩
  | seen, (key, value) :: rest =>
    let answer := keep seen value
    let tail := sweepPairs keep (value :: seen) rest
    if answer then { tail with kept := ⟨(key, value) :: tail.kept.pairs⟩ }
    else { tail with removed := value :: tail.removed }

/-- Split a map by a predicate that remembers what it has seen. -/
def sweep (map : OrderedMap κ α) (keep : List α → α → Bool) (seen : List α) :
    Sweep κ α :=
  sweepPairs keep seen map.pairs

theorem length_keys (map : OrderedMap κ α) : map.keys.length = map.size := by
  simp [keys, size]

theorem length_values (map : OrderedMap κ α) : map.values.length = map.size := by
  simp [values, size]

section Laws

variable [DecidableEq κ]

theorem get?_eq_none_iff {map : OrderedMap κ α} {key : κ} :
    map.get? key = none ↔ key ∉ map.keys := by
  simp only [get?, keys, List.lookup_eq_none_iff, List.mem_map, not_exists, not_and,
    bne_iff_ne, ne_eq]
  exact
    ⟨fun absent pair member equal => absent pair member equal.symm,
      fun absent pair member equal => absent pair member equal.symm⟩

theorem contains_eq_true_iff {map : OrderedMap κ α} {key : κ} :
    map.contains key = true ↔ key ∈ map.keys := by
  rw [contains, Option.isSome_iff_ne_none, ne_eq, get?_eq_none_iff,
    Classical.not_not]

/-- Erasing a key filters the keys. -/
theorem keys_erase (map : OrderedMap κ α) (key : κ) :
    (map.erase key).keys = map.keys.filter (· ≠ key) := by
  simp only [erase, keys, List.filter_map]
  rfl

/-- Binding a key puts it last. -/
theorem keys_append (map : OrderedMap κ α) (key : κ) (value : α) :
    (map.append key value).keys = map.keys.filter (· ≠ key) ++ [key] := by
  rw [append, ← keys_erase]
  simp [keys]

theorem DistinctKeys.erase {map : OrderedMap κ α} (distinct : map.DistinctKeys)
    (key : κ) : (map.erase key).DistinctKeys := by
  rw [DistinctKeys, keys_erase]
  exact distinct.filter _

theorem DistinctKeys.append {map : OrderedMap κ α} (distinct : map.DistinctKeys)
    (key : κ) (value : α) : (map.append key value).DistinctKeys := by
  rw [DistinctKeys, keys_append]
  refine List.nodup_append.mpr ⟨distinct.filter _, by simp, ?_⟩
  simp only [List.mem_filter, List.mem_singleton, decide_eq_true_eq]
  rintro first ⟨_, different⟩ second rfl
  exact different

end Laws

end OrderedMap
end Interposition
