import Mathlib.Data.List.Nodup
import Mathlib.Data.List.Perm.Lattice

/-!
# Unions of lists

Two ledgers are joined record by record.  `appendUnique` adds the records that are not
there yet.  `absorb` joins an item to the one with its key, or adds it; where items carry
parts, `Carries` says which parts stand under a key, and `carries_absorbAll` that joining
loses none and invents none.
-/

namespace Union

section Append

variable {α β : Type} [DecidableEq α] {current incoming : List α}

def appendUnique (current incoming : List α) : List α :=
  incoming.foldl (fun items a => if a ∈ items then items else items ++ [a]) current

theorem mem_insert_or {items : List α} {a b : α} {later : Prop} :
    (a ∈ if b ∈ items then items else items ++ [b]) ∨ later ↔ a ∈ items ∨ a = b ∨ later := by
  split
  · next known =>
    constructor
    · exact fun held => held.imp_right Or.inr
    · rintro (held | rfl | held)
      · exact .inl held
      · exact .inl known
      · exact .inr held
  · rw [List.mem_append, List.mem_singleton, or_assoc]

@[simp] theorem mem_appendUnique {a : α} :
    a ∈ appendUnique current incoming ↔ a ∈ current ∨ a ∈ incoming := by
  unfold appendUnique
  induction incoming generalizing current with
  | nil => simp
  | cons b incoming ih =>
    rw [List.foldl_cons, ih, List.mem_cons, mem_insert_or]

theorem nodup_appendUnique (distinct : current.Nodup) (incoming : List α) :
    (appendUnique current incoming).Nodup := by
  unfold appendUnique
  induction incoming generalizing current with
  | nil => exact distinct
  | cons b incoming ih =>
    rw [List.foldl_cons]
    split
    · exact ih distinct
    · next fresh => exact ih (List.concat_eq_append ▸ distinct.concat fresh)

/-- What a map tells apart in both lists it tells apart in their union. -/
theorem nodup_map_appendUnique {f : α → β} (distinct : (current.map f).Nodup)
    (distinct' : (incoming.map f).Nodup)
    (agree : ∀ a ∈ current, ∀ b ∈ incoming, f a = f b → a = b) :
    ((appendUnique current incoming).map f).Nodup := by
  have injective : ∀ {items : List α}, (items.map f).Nodup → ∀ a ∈ items, ∀ b ∈ items,
      f a = f b → a = b := fun distinct => List.inj_on_of_nodup_map distinct
  refine List.Nodup.map_on ?_ (nodup_appendUnique distinct.of_map _)
  intro a heldA b heldB same
  rcases mem_appendUnique.mp heldA with inCurrent | inIncoming
  · rcases mem_appendUnique.mp heldB with inCurrent' | inIncoming'
    · exact injective distinct a inCurrent b inCurrent' same
    · exact agree a inCurrent b inIncoming' same
  · rcases mem_appendUnique.mp heldB with inCurrent' | inIncoming'
    · exact (agree b inCurrent' a inIncoming same.symm).symm
    · exact injective distinct' a inIncoming b inIncoming' same

/-- The union with a list that holds everything is that list. -/
theorem appendUnique_perm {all : List α} (distinct : current.Nodup) (distinctAll : all.Nodup)
    (same : ∀ a, a ∈ current ∨ a ∈ incoming ↔ a ∈ all) : (appendUnique current incoming).Perm all :=
  (List.perm_ext_iff_of_nodup (nodup_appendUnique distinct _) distinctAll).mpr fun a =>
    mem_appendUnique.trans (same a)

end Append

section Absorb

variable {α κ β : Type} [DecidableEq κ] (key : α → κ) (join : α → α → α)

/-- The item joins the first with its key, or comes last. -/
def absorb (item : α) : List α → List α
  | [] => [item]
  | first :: rest =>
    if key first = key item then join first item :: rest else first :: absorb item rest

def absorbAll (current incoming : List α) : List α :=
  incoming.foldl (fun items item => absorb key join item items) current

variable {key join} (parts : α → List β)

variable (key) in
/-- Some item under the key has the part. -/
def Carries (items : List α) (k : κ) (r : β) : Prop :=
  ∃ a ∈ items, key a = k ∧ r ∈ parts a

variable {parts}

omit [DecidableEq κ] in
theorem mem_parts_iff {items : List α} (distinct : (items.map key).Nodup) {a : α}
    (held : a ∈ items) {r : β} : r ∈ parts a ↔ Carries key parts items (key a) r := by
  constructor
  · exact fun inA => ⟨a, held, rfl, inA⟩
  · rintro ⟨b, heldB, same, inB⟩
    exact List.inj_on_of_nodup_map distinct heldB held same ▸ inB

section

variable (keyJoin : ∀ a b, key (join a b) = key a)
include keyJoin

theorem map_key_absorb (item : α) (items : List α) :
    (absorb key join item items).map key =
      if key item ∈ items.map key then items.map key else items.map key ++ [key item] := by
  induction items with
  | nil => rfl
  | cons first rest ih =>
    unfold absorb
    by_cases same : key first = key item
    · rw [if_pos same, List.map_cons, keyJoin, List.map_cons, if_pos (by simp [same])]
    · rw [if_neg same, List.map_cons, ih, List.map_cons]
      by_cases later : key item ∈ rest.map key
      · rw [if_pos later, if_pos (List.mem_cons_of_mem _ later)]
      · rw [if_neg later, if_neg (by simp [Ne.symm same, later]), List.cons_append]

theorem carries_absorb (partsJoin : ∀ a b r, r ∈ parts (join a b) ↔ r ∈ parts a ∨ r ∈ parts b)
    {item : α} {items : List α} {k : κ} {r : β} :
    Carries key parts (absorb key join item items) k r ↔
      Carries key parts items k r ∨ key item = k ∧ r ∈ parts item := by
  unfold Carries
  induction items with
  | nil => simp [absorb]
  | cons first rest ih =>
    unfold absorb
    by_cases same : key first = key item
    · rw [if_pos same, List.exists_mem_cons_iff, List.exists_mem_cons_iff, keyJoin, partsJoin,
        ← same, and_or_left, or_right_comm]
    · rw [if_neg same, List.exists_mem_cons_iff, List.exists_mem_cons_iff, ih, or_assoc]

variable {current incoming : List α}

theorem nodup_keys_absorbAll (distinct : (current.map key).Nodup) (incoming : List α) :
    ((absorbAll key join current incoming).map key).Nodup := by
  induction incoming generalizing current with
  | nil => exact distinct
  | cons item incoming ih =>
    refine ih ?_
    rw [map_key_absorb keyJoin]
    split
    · exact distinct
    · next fresh => exact List.concat_eq_append ▸ distinct.concat fresh

theorem mem_keys_absorbAll {k : κ} :
    k ∈ (absorbAll key join current incoming).map key ↔
      k ∈ current.map key ∨ k ∈ incoming.map key := by
  unfold absorbAll
  induction incoming generalizing current with
  | nil => simp
  | cons item incoming ih =>
    rw [List.foldl_cons, ih, map_key_absorb keyJoin, List.map_cons, List.mem_cons, mem_insert_or]

/-- A part stands under a key of the joined list if it does in one of the two. -/
theorem carries_absorbAll (partsJoin : ∀ a b r, r ∈ parts (join a b) ↔ r ∈ parts a ∨ r ∈ parts b)
    {k : κ} {r : β} :
    Carries key parts (absorbAll key join current incoming) k r ↔
      Carries key parts current k r ∨ Carries key parts incoming k r := by
  unfold absorbAll
  induction incoming generalizing current with
  | nil => simp [Carries]
  | cons item incoming ih =>
    rw [List.foldl_cons, ih, carries_absorb keyJoin partsJoin, or_assoc]
    simp only [Carries, List.exists_mem_cons_iff]

end

end Absorb

end Union
