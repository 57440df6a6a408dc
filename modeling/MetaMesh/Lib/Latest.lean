import Mathlib.Data.Set.Basic
import MetaMesh.Lib.Fallible
import MetaMesh.Lib.Table

/-!
# The best item under each key

Replicas that hold several versions of an item keep the one of highest rank.
`Best` is that choice for a set of items; `best_iff_of_dominated` says when a choice
that was made early changes nothing later.  `offer` is the choice as a loop makes it,
item by item in a table, and `lookup_foldl_offer` says that the loop finds the best.
-/

namespace Latest

open Fallible

variable {α κ ω : Type} [LinearOrder ω] (key : α → κ) (rank : α → ω)

/-- The item of highest rank among those with its key. -/
def Best (items : Set α) (a : α) : Prop :=
  a ∈ items ∧ ∀ b ∈ items, key b = key a → rank b ≤ rank a

/-- Items of one key and rank are one item. -/
def Told (items : Set α) : Prop :=
  ∀ a ∈ items, ∀ b ∈ items, key a = key b → rank a = rank b → a = b

variable {key rank}

theorem Best.unique {items : Set α} (told : Told key rank items) {a b : α}
    (bestA : Best key rank items a) (bestB : Best key rank items b) (same : key a = key b) :
    a = b :=
  told a bestA.1 b bestB.1 same (le_antisymm (bestB.2 a bestA.1 same) (bestA.2 b bestB.1 same.symm))

/-- Leaving out items that others of the same key outrank changes no choice. -/
theorem best_iff_of_dominated {few all : Set α} (told : Told key rank all)
    (inside : ∀ a ∈ few, a ∈ all)
    (dominated : ∀ a ∈ all, ∃ b ∈ few, key b = key a ∧ rank a ≤ rank b) {a : α} :
    Best key rank few a ↔ Best key rank all a := by
  constructor
  · intro best
    refine ⟨inside a best.1, fun b held same => ?_⟩
    obtain ⟨c, inFew, sameKey, below⟩ := dominated b held
    exact le_trans below (best.2 c inFew (sameKey.trans same))
  · intro best
    obtain ⟨c, inFew, sameKey, above⟩ := dominated a best.1
    have equal := told a best.1 c (inside c inFew) sameKey.symm
      (le_antisymm above (best.2 c (inside c inFew) sameKey))
    refine ⟨equal ▸ inFew, fun b held same => best.2 b (inside b held) same⟩

/-! ## The choice as a loop -/

section Loop

variable [DecidableEq κ] (key rank)

/-- A candidate replaces what it outranks. -/
def offer (t : Table κ α) (a : α) : Table κ α :=
  if (t.lookup (key a)).all fun current => rank current < rank a then t.insert (key a) a else t

variable {key rank}

theorem lookup_offer (t : Table κ α) (a : α) (k : κ) :
    (offer key rank t a).lookup k =
      if k = key a ∧ ((t.lookup (key a)).all fun current => rank current < rank a) = true then
        some a
      else t.lookup k := by
  unfold offer
  by_cases outranks : ((t.lookup (key a)).all fun current => rank current < rank a) = true
  · rw [if_pos outranks, Table.lookup_insert_ite]
    simp [outranks]
  · simp [outranks]

variable (key rank) in
/-- What the loop holds: under each key the best of the items seen so far. -/
structure Held (seen : List α) (t : Table κ α) : Prop where
  best : ∀ k a, t.lookup k = some a → key a = k ∧ Best key rank {b | b ∈ seen} a
  found : ∀ a ∈ seen, ∃ b, t.lookup (key a) = some b

theorem Held.offer {seen : List α} {t : Table κ α} (held : Held key rank seen t) (a : α) :
    Held key rank (seen ++ [a]) (offer key rank t a) := by
  refine ⟨?_, ?_⟩
  · intro k b found
    rw [lookup_offer] at found
    split at found
    · next replaced =>
      obtain ⟨rfl, outranks⟩ := replaced
      obtain rfl := Option.some.inj found
      refine ⟨rfl, by simp, ?_⟩
      intro c inSeen same
      rcases List.mem_append.mp inSeen with earlier | last
      · obtain ⟨current, known⟩ := held.found c earlier
        obtain ⟨_, best⟩ := held.best _ _ known
        rw [← same, known] at outranks
        have below : rank current < rank a := by simpa using outranks
        have top := best.2 c earlier (held.best _ _ known).1.symm
        exact le_of_lt (lt_of_le_of_lt top below)
      · rw [List.mem_singleton.mp last]
    · next kept =>
      obtain ⟨rfl, best⟩ := held.best k b found
      refine ⟨rfl, List.mem_append_left _ best.1, ?_⟩
      intro c inSeen same
      rcases List.mem_append.mp inSeen with earlier | last
      · exact best.2 c earlier same
      · rw [List.mem_singleton.mp last] at same ⊢
        by_contra above
        exact kept ⟨same.symm, by rw [same, found]; simpa using above⟩
  · intro c inSeen
    rw [lookup_offer]
    split
    · exact ⟨a, rfl⟩
    · next kept =>
      rcases List.mem_append.mp inSeen with earlier | last
      · exact held.found c earlier
      · rw [List.mem_singleton.mp last] at kept ⊢
        cases known : t.lookup (key a) with
        | none => simp [known] at kept
        | some b => exact ⟨b, rfl⟩

theorem held_foldl (items : List α) : Held key rank items (items.foldl (offer key rank) ∅) := by
  induction items using List.reverseRecOn with
  | nil => exact ⟨by simp, by simp⟩
  | append_singleton items a ih =>
    rw [List.foldl_append]
    exact ih.offer a

/-- The loop ends with the best item under each key. -/
theorem lookup_foldl_offer {items : List α} (told : Told key rank {b | b ∈ items}) {k : κ} {a : α} :
    (items.foldl (offer key rank) ∅).lookup k = some a ↔
      key a = k ∧ Best key rank {b | b ∈ items} a := by
  have held : Held key rank items _ := held_foldl items
  constructor
  · exact held.best k a
  · rintro ⟨rfl, best⟩
    obtain ⟨b, found⟩ := held.found a best.1
    obtain ⟨same, best'⟩ := held.best _ _ found
    rw [found, best'.unique told best same]

variable (rank) in
/-- The better of two choices; of equal rank, the first. -/
def better : Option α → Option α → Option α
  | none, b => b
  | some a, none => some a
  | some a, some b => some (if rank a < rank b then b else a)

theorem better_comm {a b : Option α}
    (told : ∀ x y, a = some x → b = some y → rank x = rank y → x = y) :
    better rank a b = better rank b a := by
  cases a with
  | none => cases b <;> rfl
  | some x =>
    cases b with
    | none => rfl
    | some y =>
      rcases lt_trichotomy (rank x) (rank y) with below | same | above
      · simp [better, below, below.asymm]
      · simp [better, told x y rfl rfl same]
      · simp [better, above, above.asymm]

/-- A loop that starts with choices compares them with its own. -/
theorem lookup_foldl_offer_from (start : Table κ α) (items : List α) (k : κ) :
    (items.foldl (offer key rank) start).lookup k =
      better rank (start.lookup k) ((items.foldl (offer key rank) ∅).lookup k) := by
  induction items using List.reverseRecOn with
  | nil => cases h : start.lookup k <;> simp [better, h]
  | append_singleton items a ih =>
    rw [List.foldl_append, List.foldl_append, List.foldl_cons, List.foldl_nil, List.foldl_cons,
      List.foldl_nil, lookup_offer, lookup_offer]
    by_cases here : k = key a
    · subst here
      rw [ih]
      cases start.lookup (key a) with
      | none => simp [better]
      | some x =>
        cases (items.foldl (offer key rank) ∅).lookup (key a) with
        | none => by_cases above : rank x < rank a <;> simp [better, above]
        | some y =>
          by_cases below : rank x < rank y
          · by_cases top : rank y < rank a
            · simp [better, below, top, below.trans top]
            · simp [better, below, top]
          · by_cases top : rank y < rank a
            · by_cases above : rank x < rank a <;> simp [better, below, top, above]
            · have under : ¬ rank x < rank a := fun above =>
                top (lt_of_le_of_lt (not_lt.mp below) above)
              simp [better, below, top, under]
    · simp [here, ih]

/-- Every item of a list is outranked by the best under its key. -/
theorem exists_best (items : List α) {a : α} (held : a ∈ items) :
    ∃ b, Best key rank {c | c ∈ items} b ∧ key b = key a ∧ rank a ≤ rank b := by
  have loop : Held key rank items _ := held_foldl items
  obtain ⟨b, found⟩ := loop.found a held
  obtain ⟨same, best⟩ := loop.best _ _ found
  exact ⟨b, best, same, best.2 a held same.symm⟩

/-- A loop that refuses bad items, skips some, and offers the others. -/
theorem foldlM_offer_ok {ε : Type} {step : Table κ α → α → Except ε (Table κ α)}
    {good : α → Prop} {skips : α → Bool}
    (accepts : ∀ t a, (∀ k b, t.lookup k = some b → good b) → good a →
      step t a = .ok (if skips a then t else offer key rank t a))
    (refuses : ∀ t a next, step t a = .ok next → good a) {items : List α}
    {start final : Table κ α} (clean : ∀ k b, start.lookup k = some b → good b) :
    items.foldlM step start = .ok final ↔ (∀ a ∈ items, good a) ∧
      final = (items.filter fun a => !skips a).foldl (offer key rank) start := by
  induction items generalizing start with
  | nil => simp [pure, Except.pure, eq_comm]
  | cons a items ih =>
    rw [List.foldlM_cons, List.forall_mem_cons]
    by_cases goodA : good a
    · have still : ∀ k b, (if skips a then start else offer key rank start a).lookup k = some b →
          good b := by
        intro k b found
        split at found
        · exact clean k b found
        · rw [lookup_offer] at found
          split at found
          · exact Option.some.inj found ▸ goodA
          · exact clean k b found
      rw [accepts start a clean goodA, ok_bind, ih still]
      cases skipped : skips a <;> simp [skipped, goodA]
    · constructor
      · intro ran
        obtain ⟨next, stepped, _⟩ := bind_ok.mp ran
        exact absurd (refuses start a next stepped) goodA
      · rintro ⟨⟨held, _⟩, _⟩
        exact absurd held goodA

end Loop

/-! ## Lists in the order of their keys -/

/-- Lists in strictly ascending order of a key hold the same items only if they are the
same. -/
theorem eq_of_ascending {key : α → ω} {left right : List α}
    (ascL : left.Pairwise fun a b => key a < key b) (ascR : right.Pairwise fun a b => key a < key b)
    (same : ∀ a, a ∈ left ↔ a ∈ right) : left = right := by
  have distinct : ∀ {items : List α}, (items.Pairwise fun a b => key a < key b) → items.Nodup := by
    intro items ascending
    refine ascending.imp ?_
    rintro a b below rfl
    exact lt_irrefl _ below
  refine List.Perm.eq_of_pairwise ?_ ascL ascR
    ((List.perm_ext_iff_of_nodup (distinct ascL) (distinct ascR)).mpr same)
  intro a b _ _ below above
  exact absurd (below.trans above) (lt_irrefl _)

end Latest
