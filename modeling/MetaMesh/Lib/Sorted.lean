import Mathlib.Data.List.Sort
import Mathlib.Data.Finset.Card
import Mathlib.Order.Lex

/-!
# Sorting by a key

`sortBy key` is a stable sort.  Where the key tells the items of a list apart,
the sorted list depends on the items alone and not on the order they came in;
`sortedSet` is the sorted list of a finite set.
-/

section Sorted

variable {α κ : Type} [LinearOrder κ] (key : α → κ)

def sortBy (items : List α) : List α :=
  items.insertionSort fun a b => key a ≤ key b

theorem sortBy_perm (items : List α) : (sortBy key items).Perm items :=
  List.perm_insertionSort _ items

@[simp] theorem mem_sortBy {items : List α} {a : α} : a ∈ sortBy key items ↔ a ∈ items :=
  (sortBy_perm key items).mem_iff

theorem sortBy_pairwise (items : List α) : (sortBy key items).Pairwise fun a b => key a ≤ key b :=
  haveI : Std.Total fun a b : α => key a ≤ key b := ⟨fun a b => le_total (key a) (key b)⟩
  haveI : IsTrans α fun a b => key a ≤ key b := ⟨fun _ _ _ => le_trans⟩
  List.pairwise_insertionSort _ items

/-- Lists of the same items sort to the same list, if the key tells them apart. -/
theorem sortBy_eq_of_perm {left right : List α} (same : left.Perm right)
    (distinct : ∀ a ∈ left, ∀ b ∈ left, key a = key b → a = b) :
    sortBy key left = sortBy key right := by
  refine List.Perm.eq_of_pairwise ?_ (sortBy_pairwise key left) (sortBy_pairwise key right)
    ((sortBy_perm key left).trans (same.trans (sortBy_perm key right).symm))
  intro a b inLeft inRight below above
  exact distinct a ((mem_sortBy key).mp inLeft) b
    (same.mem_iff.mpr ((mem_sortBy key).mp inRight)) (le_antisymm below above)

/-- Sorting images by their keys. -/
theorem sortBy_map {β : Type} (f : β → α) (items : List β) :
    sortBy key (items.map f) = (sortBy (fun b => key (f b)) items).map f :=
  (List.map_insertionSort (fun a b => key (f a) ≤ key (f b)) (fun a b => key a ≤ key b) f items
    fun _ _ _ _ => Iff.rfl).symm

variable (injective : Function.Injective key)

/-- The elements of a finite set, least key first. -/
def sortedSet (s : Finset α) : List α :=
  Quot.liftOn s.val (sortBy key) fun _ _ same =>
    sortBy_eq_of_perm key same fun _ _ _ _ => @injective _ _

theorem coe_sortedSet (s : Finset α) : (sortedSet key injective s : Multiset α) = s.val := by
  rcases s with ⟨⟨items⟩, distinct⟩
  exact Quot.sound (sortBy_perm key items)

theorem mem_sortedSet {injective : Function.Injective key} {s : Finset α} {a : α} :
    a ∈ sortedSet key injective s ↔ a ∈ s := by
  rw [← Multiset.mem_coe, coe_sortedSet, Finset.mem_val]

theorem nodup_sortedSet (s : Finset α) : (sortedSet key injective s).Nodup := by
  rw [← Multiset.coe_nodup, coe_sortedSet]
  exact s.nodup

theorem sortedSet_eq_singleton {injective : Function.Injective key} {s : Finset α} {a : α} :
    sortedSet key injective s = [a] ↔ s = {a} := by
  constructor
  · intro single
    apply Finset.val_injective
    rw [← coe_sortedSet key injective, single]
    rfl
  · rintro rfl
    rfl

end Sorted
