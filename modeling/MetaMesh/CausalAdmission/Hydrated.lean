import MetaMesh.Lib.Table

/-!
# Hydrated values

Admission looks at the document before and after a change as hydrated values: nested maps
over texts, numbers and lists, where every entry of a map says whether it is in conflict.
The values come from the Automerge library, which is not part of the crate, so they are
any type with the three questions the crate asks of them: whether two compare equal,
whether one is a map, and whether one is a string.

A map compares equal to another if their entries do; `sameMap_eraseAll` says what is left
of that after some keys were removed, which is how the crate compares all but some fields.
-/

namespace MetaMesh

/-- An entry of a map in a document. -/
structure MapValue (V : Type) where
  value : V
  conflict : Bool

abbrev HydratedMap (V : Type) := Table String (MapValue V)

/-- Documents that can be read as nested maps. -/
class Hydrated (V : Type) where
  /-- `==` -/
  same : V → V → Bool
  /-- `map_value` -/
  map? : V → Option (HydratedMap V)
  /-- The text of a string or of a text object, as `scalar_string` reads it. -/
  string? : V → Option String

export Hydrated (map?)

variable {V : Type} [Hydrated V]

def getValue (m : HydratedMap V) (key : String) : Option V :=
  (m.lookup key).map MapValue.value

def scalarString (value : Option V) : Option String :=
  value.bind Hydrated.string?

/-! ## Equality -/

def sameValue : Option V → Option V → Bool
  | none, none => true
  | some a, some b => Hydrated.same a b
  | _, _ => false

def sameEntry : Option (MapValue V) → Option (MapValue V) → Bool
  | none, none => true
  | some a, some b => Hydrated.same a.value b.value && a.conflict == b.conflict
  | _, _ => false

def sameMap (left right : HydratedMap V) : Bool :=
  (left.keys ++ right.keys).all fun key => sameEntry (left.lookup key) (right.lookup key)

theorem sameMap_iff {left right : HydratedMap V} :
    sameMap left right = true ↔ ∀ key, sameEntry (left.lookup key) (right.lookup key) = true := by
  unfold sameMap
  rw [List.all_eq_true]
  constructor
  · intro same key
    by_cases held : key ∈ left.keys ++ right.keys
    · exact same key held
    · rw [List.mem_append, not_or] at held
      rw [AList.lookup_eq_none.mpr held.1, AList.lookup_eq_none.mpr held.2]
      rfl
  · exact fun same key _ => same key

/-- Equal values are both there or both absent. -/
theorem isSome_of_sameValue {left right : Option V} (same : sameValue left right = true) :
    left.isSome = right.isSome := by
  cases left <;> cases right <;> first | rfl | cases same

/-! ## All but some keys -/

/-- The maps agree outside the given keys. -/
def SameExcept (keys : List String) (left right : HydratedMap V) : Prop :=
  ∀ key, key ∉ keys → sameEntry (left.lookup key) (right.lookup key) = true

def eraseAll (keys : List String) (m : HydratedMap V) : HydratedMap V :=
  keys.foldl (fun m key => m.erase key) m

omit [Hydrated V] in
theorem lookup_eraseAll (keys : List String) (m : HydratedMap V) (key : String) :
    (eraseAll keys m).lookup key = if key ∈ keys then none else m.lookup key := by
  unfold eraseAll
  induction keys generalizing m with
  | nil => simp
  | cons first keys ih =>
    rw [List.foldl_cons, ih, Table.lookup_erase_ite]
    by_cases here : key = first
    · simp [here]
    · simp [here]

theorem sameMap_eraseAll {keys : List String} {left right : HydratedMap V} :
    sameMap (eraseAll keys left) (eraseAll keys right) = true ↔ SameExcept keys left right := by
  rw [sameMap_iff]
  refine forall_congr' fun key => ?_
  rw [lookup_eraseAll, lookup_eraseAll]
  by_cases removed : key ∈ keys
  · simp [removed, sameEntry]
  · simp [removed]

end MetaMesh
