import Mathlib.Data.Finmap
import MetaMesh.Browser.Text
import MetaMesh.CanonicalText

/-!
# Objects with arbitrary keys

`Record<string, T>` of the TypeScript packages, up to the order of its keys: nothing but
canonical text, which sorts them, tells two orders apart.
-/

namespace MetaMesh.Browser

abbrev Record (α : Type) := Finmap fun _ : String => α

namespace Record

variable {α : Type}

/-- `Object.entries`. -/
def items (r : Record α) : List (String × α) :=
  (sortedSet strKey strKey_injective r.keys).filterMap fun k => (r.lookup k).map fun v => (k, v)

@[simp] theorem mem_items {r : Record α} {k : String} {v : α} :
    (k, v) ∈ r.items ↔ r.lookup k = some v := by
  unfold items
  simp only [List.mem_filterMap, mem_sortedSet, Option.map_eq_some_iff, Prod.mk.injEq]
  constructor
  · rintro ⟨k', _, v', found, rfl, rfl⟩
    exact found
  · intro found
    exact ⟨k, Finmap.mem_keys.mpr (Finmap.mem_of_lookup_eq_some found), v, found, rfl, rfl⟩

theorem lookup_insert_ite (r : Record α) (k k' : String) (v : α) :
    (r.insert k v).lookup k' = if k' = k then some v else r.lookup k' := by
  split
  · next same => rw [same, Finmap.lookup_insert]
  · next other => exact Finmap.lookup_insert_of_ne r other

/-- An object written out. -/
def ofList (items : List (String × α)) : Record α :=
  items.foldl (fun r item => r.insert item.1 item.2) ∅

instance [Serialize α] : Serialize (Record α) :=
  ⟨fun r => .object (r.items.map fun item => (item.1, toValue item.2))⟩

theorem map_fst_items (r : Record α) :
    r.items.map Prod.fst = sortedSet strKey strKey_injective r.keys := by
  have keyed : ∀ keys : List String, (∀ k ∈ keys, k ∈ r) →
      (keys.filterMap fun k => (r.lookup k).map fun v => (k, v)).map Prod.fst = keys := by
    intro keys held
    induction keys with
    | nil => rfl
    | cons k keys ih =>
      rw [List.forall_mem_cons] at held
      obtain ⟨v, found⟩ := Finmap.mem_iff.mp held.1
      rw [List.filterMap_cons, found, Option.map_some, List.map_cons, ih held.2]
  refine keyed _ ?_
  intro k member
  exact Finmap.mem_keys.mp (mem_sortedSet _ |>.mp member)

instance [Serialize α] [Canonical α] : Canonical (Record α) where
  wellFormed r := by
    refine wellFormed_sorted_object ?_ ?_
    · rw [List.map_map]
      show (r.items.map Prod.fst).Nodup
      rw [map_fst_items]
      exact nodup_sortedSet _ _ _
    · intro field member
      obtain ⟨item, _, rfl⟩ := List.mem_map.mp member
      exact Canonical.wellFormed item.2
  injective a b same := by
    have perm := sorted_object_perm same
    rw [List.map_map, List.map_map] at perm
    have found : ∀ (r : Record α) k v, r.lookup k = some v ↔ (k, (toValue v).sorted) ∈ r.items.map
          ((fun field : String × Value => (field.1, field.2.sorted)) ∘
            fun item => (item.1, toValue item.2)) := by
      intro r k v
      simp only [List.mem_map, Function.comp, Prod.mk.injEq]
      constructor
      · intro found
        exact ⟨(k, v), mem_items.mpr found, rfl, rfl⟩
      · rintro ⟨⟨k', v'⟩, member, rfl, value⟩
        rw [← Canonical.injective v' v value]
        exact mem_items.mp member
    refine Finmap.ext_lookup fun k => Option.ext fun v => ?_
    rw [found a k v, found b k v, perm.mem_iff]

end Record

instance : Canonical Int where
  wellFormed n := by
    show (Value.number (integer n)).wellFormed = true
    unfold integer
    split <;> rfl
  injective a b same := by
    have numbers : integer a = integer b := Value.number.inj same
    unfold integer at numbers
    split at numbers <;> split at numbers <;> simp only [Number.posInt.injEq, Number.negInt.injEq,
      reduceCtorEq] at numbers <;> omega

end MetaMesh.Browser
