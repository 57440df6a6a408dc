import Mathlib.Data.List.AList
import Mathlib.Data.List.Induction
import MetaMesh.Lib.Sorted

/-!
# Tables

Finite maps with the interface of a hash map: `lookup`, `insert`, `erase` and
an `entries` list in some order.  `push` files a value under its key in a table
of lists, and `groupBy` files a whole list; `lookup_groupBy` says what each
group is.  `orderedValues` reads a table in the order of its keys, as a tree map
is read, and `insertAll` files items under their own keys.
-/

abbrev Table (κ α : Type) := AList (fun _ : κ => α)

namespace Table

variable {κ α β : Type} [DecidableEq κ]

theorem lookup_insert_ite (t : Table κ α) (k k' : κ) (v : α) :
    (t.insert k v).lookup k' = if k' = k then some v else t.lookup k' := by
  split
  · next same => subst same; exact AList.lookup_insert t
  · next other => exact AList.lookup_insert_ne other

theorem lookup_erase_ite (t : Table κ α) (k k' : κ) :
    (t.erase k).lookup k' = if k' = k then none else t.lookup k' := by
  split
  · next same => subst same; exact AList.lookup_erase k' t
  · next other => exact AList.lookup_erase_ne other

variable (t : Table κ (List α))

/-- `entry(k).or_default().push(v)`. -/
def push (k : κ) (v : α) : Table κ (List α) :=
  t.insert k ((t.lookup k).getD [] ++ [v])

theorem lookup_push (k k' : κ) (v : α) :
    (t.push k v).lookup k' = if k' = k then some ((t.lookup k).getD [] ++ [v]) else t.lookup k' :=
  lookup_insert_ite t k k' _

/-- A value is filed under a key of a table of lists. -/
def Holds (k : κ) (v : α) : Prop :=
  ∃ vs, t.lookup k = some vs ∧ v ∈ vs

variable {k : κ} {v : α}

theorem holds_push {t : Table κ (List α)} {k' : κ} {v' : α} :
    Holds (t.push k v) k' v' ↔ (k' = k ∧ v' = v) ∨ t.Holds k' v' := by
  unfold Holds
  rw [lookup_push]
  by_cases same : k' = k
  · subst same
    cases found : t.lookup k' <;> simp [or_comm]
  · simp [same]

variable (key : α → κ) (items : List α)

/-- `items` by their keys, each group in the order of `items`. -/
def groupBy : Table κ (List α) :=
  items.foldl (fun t a => t.push (key a) a) ∅

theorem groupBy_append_singleton (a : α) :
    groupBy key (items ++ [a]) = (groupBy key items).push (key a) a := by
  simp [groupBy]

theorem lookup_groupBy (k : κ) :
    (groupBy key items).lookup k =
      if items.filter (key · = k) = [] then none else some (items.filter (key · = k)) := by
  induction items using List.reverseRecOn with
  | nil => simp [groupBy]
  | append_singleton items a ih =>
    rw [groupBy_append_singleton, lookup_push, List.filter_append]
    by_cases here : k = key a
    · subst here
      rw [if_pos rfl, ih]
      by_cases first : items.filter (key · = key a) = [] <;> simp [first]
    · rw [if_neg here, ih]
      simp [Ne.symm here]

/-- All that is filed in a table of lists, with its keys. -/
def filed : List (κ × α) :=
  t.entries.flatMap fun entry => entry.2.map fun a => (entry.1, a)

theorem filed_erase_perm {t : Table κ (List α)} {k : κ} {vs : List α}
    (found : t.lookup k = some vs) :
    t.filed.Perm (vs.map (fun v => (k, v)) ++ filed (t.erase k)) := by
  obtain ⟨vs', before, after, _, split, erased⟩ := List.exists_of_kerase
    (AList.mem_keys.mp (AList.lookup_isSome.mp (by rw [found]; rfl)))
  obtain rfl : vs' = vs := by
    have held : (⟨k, vs'⟩ : (_ : κ) × List α) ∈ t.entries := by simp [split]
    exact Option.some.inj ((AList.mem_lookup_iff.mpr held).symm.trans found)
  unfold filed
  rw [show (t.erase k).entries = before ++ after from erased, split]
  simp only [List.flatMap_append, List.flatMap_cons]
  exact List.perm_append_comm_assoc _ _ _

theorem filed_push_perm (t : Table κ (List α)) (k : κ) (v : α) :
    (t.push k v).filed.Perm ((k, v) :: t.filed) := by
  unfold push
  cases found : t.lookup k with
  | none =>
    unfold filed
    rw [AList.entries_insert, List.flatMap_cons,
      List.kerase_of_notMem_keys (AList.lookup_eq_none.mp found)]
    exact List.Perm.refl _
  | some vs =>
    -- the group moves to the front, and the item to the front of it
    rw [Option.getD_some, filed, AList.entries_insert, List.flatMap_cons, List.map_append]
    exact (List.perm_append_comm.append_right _).trans ((filed_erase_perm found).symm.cons _)

/-- Grouped items are the items. -/
theorem filed_groupBy_perm : (groupBy key items).filed.Perm (items.map fun a => (key a, a)) := by
  induction items using List.reverseRecOn with
  | nil => exact List.Perm.refl _
  | append_singleton items a ih =>
    rw [groupBy_append_singleton, List.map_append]
    exact (filed_push_perm _ _ _).trans ((ih.cons _).trans (List.perm_append_singleton _ _).symm)

variable {t : Table κ α} {ω : Type}

/-- A table with no key looks up nothing. -/
theorem keys_eq_nil_iff : t.keys = [] ↔ ∀ k, t.lookup k = none := by
  constructor
  · intro empty k
    rw [AList.lookup_eq_none, AList.mem_keys, empty]
    exact List.not_mem_nil
  · intro none
    rw [List.eq_nil_iff_forall_not_mem]
    intro k member
    exact AList.lookup_eq_none.mp (none k) (AList.mem_keys.mpr member)

theorem length_keys_insert_of_fresh (v : α) (fresh : t.lookup k = none) :
    (t.insert k v).keys.length = t.keys.length + 1 := by
  have absent : k ∉ t.keys := fun member => AList.lookup_eq_none.mp fresh
    (AList.mem_keys.mpr member)
  rw [AList.keys_insert, List.length_cons, List.erase_of_not_mem absent]

/-- Tables that look up the same hold the same entries. -/
theorem entries_perm {u : Table κ α} (same : ∀ k, t.lookup k = u.lookup k) :
    t.entries.Perm u.entries := by
  refine (List.perm_ext_iff_of_nodup t.nodupKeys.nodup u.nodupKeys.nodup).mpr ?_
  rintro ⟨k, v⟩
  rw [← AList.mem_lookup_iff, ← AList.mem_lookup_iff, same k]

/-! ## Values -/

def values (t : Table κ α) : List α :=
  t.entries.map fun entry => entry.2

theorem mem_values : v ∈ t.values ↔ ∃ k, t.lookup k = some v := by
  rw [values, List.mem_map]
  constructor
  · rintro ⟨⟨k, v⟩, member, rfl⟩
    exact ⟨k, AList.mem_lookup_iff.mpr member⟩
  · rintro ⟨k, found⟩
    exact ⟨⟨k, v⟩, AList.mem_lookup_iff.mp found, rfl⟩

/-- The table with every value replaced. -/
def mapValues (f : α → β) (t : Table κ α) : Table κ β where
  entries := t.entries.map fun entry => ⟨entry.1, f entry.2⟩
  nodupKeys := by
    have nodup := t.nodupKeys
    simpa [List.NodupKeys, List.keys, Function.comp_def] using nodup

theorem lookup_mapValues (f : α → β) (t : Table κ α) (k : κ) :
    (t.mapValues f).lookup k = (t.lookup k).map f := by
  rcases t with ⟨entries, nodup⟩
  show (entries.map fun entry => (⟨entry.1, f entry.2⟩ : (_ : κ) × β)).dlookup k =
    (entries.dlookup k).map f
  clear nodup
  induction entries with
  | nil => rfl
  | cons entry entries ih =>
    rcases entry with ⟨key, value⟩
    by_cases same : k = key
    · subst same
      simp
    · rw [List.map_cons, List.dlookup_cons_ne _ _ same, ih, List.dlookup_cons_ne _ _ same]

/-- `retain`: only the entries that satisfy a test. -/
def retain (test : κ → α → Bool) (t : Table κ α) : Table κ α where
  entries := t.entries.filter fun entry => test entry.1 entry.2
  nodupKeys := by
    have nodup : (t.entries.map Sigma.fst).Nodup := t.nodupKeys
    exact nodup.sublist (List.filter_sublist.map _)

theorem retain_eq_self {test : κ → α → Bool} (all : ∀ k v, t.lookup k = some v → test k v = true) :
    t.retain test = t := by
  apply AList.ext
  apply List.filter_eq_self.mpr
  intro entry held
  exact all entry.1 entry.2 (AList.mem_lookup_iff.mpr held)

/-- The values in the order of their keys. -/
def orderedValues [LinearOrder ω] (order : κ → ω) (t : Table κ α) : List α :=
  (sortBy (fun entry : (_ : κ) × α => order entry.1) t.entries).map fun entry => entry.2

omit [DecidableEq κ] in
theorem orderedValues_perm [LinearOrder ω] (order : κ → ω) (t : Table κ α) :
    (t.orderedValues order).Perm t.values :=
  (sortBy_perm _ t.entries).map _

variable {order : κ → ω} {key : α → κ} {items : List α}

/-- Tables that look up the same are read the same. -/
theorem orderedValues_congr [LinearOrder ω] (injective : Function.Injective order) {u : Table κ α}
    (same : ∀ k, t.lookup k = u.lookup k) : t.orderedValues order = u.orderedValues order := by
  unfold orderedValues
  rw [sortBy_eq_of_perm _ (entries_perm same)]
  rintro ⟨k, v⟩ heldV ⟨k', w⟩ heldW equal
  obtain rfl := injective equal
  have looked := (AList.mem_lookup_iff.mpr heldV).symm.trans (AList.mem_lookup_iff.mpr heldW)
  rw [Option.some.inj looked]

theorem mem_orderedValues [LinearOrder ω] :
    v ∈ t.orderedValues order ↔ ∃ k, t.lookup k = some v := by
  rw [(orderedValues_perm order t).mem_iff, mem_values]

/-- A set filled from items. -/
theorem foldl_insert_empty :
    items.foldl (fun set a => insert (key a) set) ∅ = (items.map key).toFinset := by
  have filled : ∀ set : Finset κ,
      items.foldl (fun set a => insert (key a) set) set = (items.map key).toFinset ∪ set := by
    induction items with
    | nil => simp
    | cons a items ih => simp [ih]
  simp [filled]

/-- A table filled from items with distinct keys. -/
theorem lookup_foldl_insert {value : α → β} {t : Table κ β} (distinct : (items.map key).Nodup)
    {v : β} :
    (items.foldl (fun t a => t.insert (key a) (value a)) t).lookup k = some v ↔
      (∃ a ∈ items, key a = k ∧ value a = v) ∨ (k ∉ items.map key ∧ t.lookup k = some v) := by
  induction items generalizing t with
  | nil => simp
  | cons a items ih =>
    rw [List.map_cons, List.nodup_cons] at distinct
    rw [List.foldl_cons, ih distinct.2, lookup_insert_ite]
    by_cases same : k = key a
    · subst same
      have others : ¬ ∃ b ∈ items, key b = key a ∧ value b = v := by
        rintro ⟨b, held, key, _⟩
        exact distinct.1 (key ▸ List.mem_map_of_mem held)
      simp [others, distinct.1]
    · simp [same, Ne.symm same]

theorem lookup_union (s t : Table κ α) (k : κ) :
    (s ∪ t).lookup k = (s.lookup k).or (t.lookup k) := by
  by_cases held : k ∈ s
  · rw [AList.lookup_union_left held]
    obtain ⟨v, found⟩ := Option.isSome_iff_exists.mp (AList.lookup_isSome.mpr held)
    rw [found]
    rfl
  · rw [AList.lookup_union_right held, AList.lookup_eq_none.mpr held, Option.none_or]

/-! ## Values filed under their own keys -/

variable (key items) in
def insertAll (t : Table κ α) : Table κ α :=
  items.foldl (fun t a => t.insert (key a) a) t

theorem lookup_insertAll_mem (found : (t.insertAll key items).lookup k = some v) :
    t.lookup k = some v ∨ v ∈ items := by
  induction items generalizing t with
  | nil => exact .inl found
  | cons a items ih =>
    rcases @ih (t.insert (key a) a) found with held | held
    · rw [lookup_insert_ite] at held
      split at held
      · exact .inr (by simp [Option.some.inj held])
      · exact .inl held
    · exact .inr (List.mem_cons_of_mem a held)

/-- Every value stands under its own key. -/
def KeyedBy (key : α → κ) (t : Table κ α) : Prop :=
  ∀ k v, t.lookup k = some v → key v = k

theorem KeyedBy.empty (key : α → κ) : KeyedBy key (∅ : Table κ α) := by
  intro k v found
  simp at found

theorem KeyedBy.insert (keyed : KeyedBy key t) (a : α) : KeyedBy key (t.insert (key a) a) := by
  intro k v found
  rw [lookup_insert_ite] at found
  split at found
  · next here => rw [here, ← Option.some.inj found]
  · exact keyed k v found

theorem KeyedBy.insertAll (keyed : KeyedBy key t) (items : List α) : KeyedBy key
    (t.insertAll key items) := by
  induction items generalizing t with
  | nil => exact keyed
  | cons a items ih => exact ih (keyed.insert a)

theorem KeyedBy.mem_values (keyed : KeyedBy key t) : v ∈ t.values ↔ t.lookup (key v) = some v := by
  rw [Table.mem_values]
  constructor
  · rintro ⟨k, found⟩
    rwa [keyed k v found]
  · intro found
    exact ⟨key v, found⟩

/-- Values under their own keys have distinct keys. -/
theorem KeyedBy.nodup [LinearOrder ω] (keyed : KeyedBy key t) (order : κ → ω) :
    ((t.orderedValues order).map key).Nodup := by
  have keys : t.values.map key = t.keys := by
    rw [values, List.map_map]
    refine List.map_congr_left fun entry held => ?_
    exact keyed entry.1 entry.2 (AList.mem_lookup_iff.mpr held)
  rw [((orderedValues_perm order t).map key).nodup_iff, keys]
  exact t.nodupKeys

/-- Values under their own keys are read in strictly ascending order of the keys. -/
theorem KeyedBy.ascending [LinearOrder ω] (keyed : KeyedBy key t)
    (injective : Function.Injective order) :
    (t.orderedValues order).Pairwise fun a b => order (key a) < order (key b) := by
  have distinct := List.pairwise_map.mp (keyed.nodup order)
  unfold orderedValues at distinct ⊢
  rw [List.pairwise_map] at distinct ⊢
  refine ((sortBy_pairwise _ t.entries).and distinct).imp_of_mem ?_
  intro a b heldA heldB below
  have keyOf : ∀ entry ∈ sortBy (fun entry : (_ : κ) × α => order entry.1) t.entries,
      key entry.2 = entry.1 := by
    intro entry held
    exact keyed _ _ (AList.mem_lookup_iff.mpr ((mem_sortBy _).mp held))
  rw [keyOf a heldA, keyOf b heldB] at below ⊢
  exact lt_of_le_of_ne below.1 fun same => below.2 (injective same)

/-- Something stands under the key of an item that was filed. -/
theorem isSome_lookup_insertAll (t : Table κ α) {a : α} (held : a ∈ items) :
    ((t.insertAll key items).lookup (key a)).isSome = true := by
  induction items using List.reverseRecOn with
  | nil => cases held
  | append_singleton items b ih =>
    have last : t.insertAll key (items ++ [b]) = (t.insertAll key items).insert (key b) b := by
      simp [insertAll]
    rw [last, lookup_insert_ite]
    split
    · rfl
    · next other =>
      rcases List.mem_append.mp held with earlier | here
      · exact ih earlier
      · exact absurd (by rw [List.mem_singleton.mp here]) other

/-- Filing an item adds it, where its key has no other value. -/
theorem KeyedBy.mem_values_insert (keyed : KeyedBy key t) {a : α}
    (one : ∀ b ∈ t.values, key a = key b → a = b) {b : α} :
    b ∈ values (t.insert (key a) a) ↔ b ∈ t.values ∨ b = a := by
  rw [(keyed.insert a).mem_values, lookup_insert_ite, keyed.mem_values]
  by_cases same : key b = key a
  · rw [if_pos same, Option.some.injEq, eq_comm, or_iff_right_of_imp]
    intro found
    exact (one b (keyed.mem_values.mpr found) same.symm).symm
  · rw [if_neg same, or_iff_left_of_imp]
    rintro rfl
    exact absurd rfl same

/-- Where a key has one value, filing items adds exactly them. -/
theorem KeyedBy.mem_values_insertAll (keyed : KeyedBy key t)
    (one : ∀ a ∈ items, ∀ b, b ∈ t.values ∨ b ∈ items → key a = key b → a = b) :
    v ∈ (t.insertAll key items).values ↔ v ∈ t.values ∨ v ∈ items := by
  induction items generalizing t with
  | nil => simp [Table.insertAll]
  | cons a items ih =>
    have added : ∀ b, b ∈ values (t.insert (key a) a) ↔ b ∈ t.values ∨ b = a :=
      fun b => keyed.mem_values_insert fun c held => one a (by simp) c (.inl held)
    have rest := @ih (t.insert (key a) a) (keyed.insert a) (by
      intro c inItems b held same
      refine one c (List.mem_cons_of_mem a inItems) b ?_ same
      rcases held with held | held
      · rcases (added b).mp held with held | rfl
        · exact .inl held
        · exact .inr (by simp)
      · exact .inr (List.mem_cons_of_mem a held))
    show v ∈ values (Table.insertAll key items (t.insert (key a) a)) ↔ _
    rw [rest, added, List.mem_cons, or_assoc]

/-- Items filed under keys that tell them apart are all there. -/
theorem mem_values_insertAll (apart : ∀ a ∈ items, ∀ b ∈ items, key a = key b → a = b) :
    v ∈ (insertAll key items (∅ : Table κ α)).values ↔ v ∈ items := by
  rw [(KeyedBy.empty key).mem_values_insertAll]
  · simp [values]
  · rintro a held b (none | heldB)
    · simp [values] at none
    · exact apart a held b heldB

theorem lookup_insertAll_iff (apart : ∀ a ∈ items, ∀ b ∈ items, key a = key b → a = b) {k : κ}
    {v : α} : (insertAll key items (∅ : Table κ α)).lookup k = some v ↔ v ∈ items ∧ key v = k := by
  have keyed := (KeyedBy.empty key).insertAll items
  rw [← mem_values_insertAll apart, keyed.mem_values]
  constructor
  · intro found
    obtain rfl := keyed k v found
    exact ⟨found, rfl⟩
  · rintro ⟨found, rfl⟩
    exact found

/-- Items with distinct keys are filed over what stood under their keys. -/
theorem KeyedBy.mem_values_insertAll_iff (keyed : KeyedBy key t)
    (distinct : (items.map key).Nodup) :
    v ∈ (t.insertAll key items).values ↔ v ∈ items ∨ v ∈ t.values ∧ key v ∉ items.map key := by
  rw [(keyed.insertAll items).mem_values, keyed.mem_values, Table.insertAll,
    lookup_foldl_insert distinct, and_comm]
  refine or_congr_left ⟨?_, fun held => ⟨v, held, rfl, rfl⟩⟩
  rintro ⟨a, held, _, rfl⟩
  exact held

end Table
