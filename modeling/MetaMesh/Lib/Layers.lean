import MetaMesh.Lib.Ancestry
import MetaMesh.Lib.Loop
import MetaMesh.Lib.Table

/-!
# Dependency layers

The members of a finite graph in layers: first those that depend on no member,
then those whose dependencies have all been placed, and so on, each layer in the
order of its keys.  `order` counts for every member the dependencies that are
not placed yet and refuses when a cycle keeps some member from ever being
placed.  `order_ok` says that what it returns is the members, each once,
`order_scan` that it is what scanning all of them again and again finds, and
`order_error` that only a cycle is refused.
-/

namespace Layers

open Fallible

variable {α κ ω ε : Type} [DecidableEq κ] [LinearOrder ω]

/-- How many dependencies each member waits for, and who waits for it. -/
structure Links (κ : Type) where
  degrees : Table κ Nat
  children : Table κ (List κ)

/-- Where the sweep stands. -/
structure Progress (κ : Type) where
  degrees : Table κ Nat
  next : Finset κ
  ordered : List κ

section Order

variable (name : α → κ) (deps : α → List κ) (members : Finset κ)

/-- The dependencies of an item among the members, each once. -/
def parents (a : α) : List κ :=
  ((deps a).filter (· ∈ members)).dedup

def link (links : Links κ) (a : α) : Links κ :=
  if name a ∈ members then
    ⟨links.degrees.insert (name a) (parents deps members a).length,
      (parents deps members a).foldl (fun children dep => children.push dep (name a))
        links.children⟩
  else links

def links (items : List α) : Links κ :=
  items.foldl (link name deps members) ⟨∅, ∅⟩

/-- A child waits for one dependency less, and is next when it waits for none. -/
def release (p : Table κ Nat × Finset κ) (child : κ) : Table κ Nat × Finset κ :=
  let degree := (p.1.lookup child).getD 0 - 1
  (p.1.insert child degree, if degree = 0 then insert child p.2 else p.2)

def visit (children : Table κ (List κ)) (p : Progress κ) (k : κ) : Progress κ :=
  let released := ((children.lookup k).getD []).foldl release (p.degrees, p.next)
  ⟨released.1, released.2, p.ordered ++ [k]⟩

variable (key : κ → ω) (injective : Function.Injective key)

/-- One layer. -/
def layer (children : Table κ (List κ)) (p : Progress κ) : Except ε (Progress κ ⊕ List κ) :=
  if p.next = ∅ then .ok (.inr p.ordered)
  else .ok (.inl ((sortedSet key injective p.next).foldl (visit children) { p with next := ∅ }))

/-- Those that wait for nothing. -/
def roots (degrees : Table κ Nat) : Finset κ :=
  ((degrees.entries.filter fun entry => entry.2 = 0).map fun entry => entry.1).toFinset

def order (cyclic : ε) (items : List α) : Except ε (List κ) := do
  let start := links name deps members items
  let ordered ← run cyclic (layer key injective start.children) (members.card + 1)
    ⟨start.degrees, roots start.degrees, []⟩
  refuse (ordered.length ≠ members.card) cyclic
  .ok ordered

variable (items : List α)

/-- A member depends on another. -/
def Needs (k d : κ) : Prop :=
  k ∈ members ∧ d ∈ members ∧ ∃ a ∈ items, name a = k ∧ d ∈ deps a

/-- A member comes back to itself along what it needs. -/
def Cyclic : Prop := ∃ k, Relation.TransGen (Needs name deps members items) k k

/-- Those not placed whose dependencies among the members are all placed. -/
def ready (placed : List κ) : Finset κ :=
  members.filter fun k => k ∉ placed ∧
    ∃ a ∈ items, name a = k ∧ ∀ d ∈ deps a, d ∈ members → d ∈ placed

/-- One layer more, found by looking through all the members. -/
def scan (placed : List κ) : List κ :=
  placed ++ sortedSet key injective (ready name deps members items placed)

end Order

/-! ## The links -/

section Links

variable {name : α → κ} {deps : α → List κ} {members : Finset κ}

variable {k : κ}

theorem mem_parents {a : α} : k ∈ parents deps members a ↔ k ∈ deps a ∧ k ∈ members := by
  simp [parents]

omit [LinearOrder ω] in
theorem lookup_foldl_push {keys : List κ} (distinct : keys.Nodup) (t : Table κ (List κ)) (v k : κ) :
    ((keys.foldl (fun t k => t.push k v) t).lookup k).getD [] =
      (t.lookup k).getD [] ++ if k ∈ keys then [v] else [] := by
  induction keys generalizing t with
  | nil => simp
  | cons first keys ih =>
    rw [List.nodup_cons] at distinct
    rw [List.foldl_cons, ih distinct.2, Table.lookup_push]
    by_cases same : k = first
    · subst same
      simp [distinct.1]
    · simp [same]

theorem links_append_singleton (items : List α) (a : α) :
    links name deps members (items ++ [a]) =
      link name deps members (links name deps members items) a := by
  simp [links]

/-- Those who wait for `k`, in the order of the items. -/
theorem lookup_children (items : List α) (k : κ) :
    ((links name deps members items).children.lookup k).getD [] =
      (items.filter fun a => name a ∈ members ∧ k ∈ parents deps members a).map name := by
  induction items using List.reverseRecOn with
  | nil => simp [links]
  | append_singleton items a ih =>
    rw [links_append_singleton, link, List.filter_append, List.map_append]
    by_cases member : name a ∈ members
    · have unique : (parents deps members a).Nodup := List.nodup_dedup _
      rw [if_pos member, lookup_foldl_push unique, ih]
      by_cases waits : k ∈ parents deps members a <;> simp [member, waits]
    · rw [if_neg member, ih]
      simp [member]

theorem lookup_degrees {items : List α} (distinct : (items.map name).Nodup) {n : Nat} :
    (links name deps members items).degrees.lookup k = some n ↔
      ∃ a ∈ items, name a = k ∧ k ∈ members ∧ n = (parents deps members a).length := by
  induction items using List.reverseRecOn with
  | nil => simp [links]
  | append_singleton items a ih =>
    rw [List.map_append, List.map_singleton, List.nodup_append] at distinct
    have fresh : ∀ b ∈ items, name b ≠ name a := fun b held =>
      distinct.2.2 (name b) (List.mem_map_of_mem held) (name a) (by simp)
    rw [links_append_singleton]
    by_cases here : name a = k ∧ name a ∈ members
    · obtain ⟨rfl, member⟩ := here
      rw [link, if_pos member, Table.lookup_insert_ite, if_pos rfl]
      constructor
      · intro found
        exact ⟨a, by simp, rfl, member, (Option.some.inj found).symm⟩
      · rintro ⟨b, held, named, _, rfl⟩
        rcases List.mem_append.mp held with earlier | last
        · exact absurd named (fresh b earlier)
        · rw [List.mem_singleton.mp last]
    · -- the item says nothing about `k`
      have kept (l) : (link name deps members l a).degrees.lookup k = l.degrees.lookup k := by
        rw [link]
        split
        · next member =>
          exact AList.lookup_insert_ne fun same => here ⟨same.symm, member⟩
        · rfl
      rw [kept, ih distinct.1]
      constructor
      · rintro ⟨b, held, rest⟩
        exact ⟨b, List.mem_append_left _ held, rest⟩
      · rintro ⟨b, held, rfl, inside, rest⟩
        rcases List.mem_append.mp held with earlier | last
        · exact ⟨b, earlier, rfl, inside, rest⟩
        · rw [List.mem_singleton.mp last] at inside here
          exact absurd ⟨rfl, inside⟩ here

theorem mem_roots {degrees : Table κ Nat} : k ∈ roots degrees ↔ degrees.lookup k = some 0 := by
  rw [roots, List.mem_toFinset, List.mem_map]
  constructor
  · rintro ⟨⟨k, n⟩, held, rfl⟩
    rw [List.mem_filter, decide_eq_true_eq] at held
    exact held.2 ▸ AList.mem_lookup_iff.mpr held.1
  · intro found
    exact ⟨⟨k, 0⟩, List.mem_filter.mpr ⟨AList.mem_lookup_iff.mp found, by simp⟩, rfl⟩

end Links

/-! ## The layers -/

section Run

variable {name : α → κ} {deps : α → List κ} {members : Finset κ} {items : List α}

/-- Releasing children: each waits for one less, and those that now wait for
nothing are next. -/
theorem foldl_release {children : List κ} (distinct : children.Nodup)
    (p : Table κ Nat × Finset κ) (k : κ) :
    (children.foldl release p).1.lookup k =
        (if k ∈ children then some ((p.1.lookup k).getD 0 - 1) else p.1.lookup k) ∧
      (k ∈ (children.foldl release p).2 ↔
        k ∈ p.2 ∨ (k ∈ children ∧ (p.1.lookup k).getD 0 - 1 = 0)) := by
  induction children generalizing p with
  | nil => simp
  | cons child children ih =>
    rw [List.nodup_cons] at distinct
    obtain ⟨degree, next⟩ := ih distinct.2 (release p child)
    rw [List.foldl_cons, degree, next]
    unfold release
    by_cases same : k = child
    · subst same
      by_cases last : (p.1.lookup k).getD 0 - 1 = 0 <;> simp [distinct.1, last]
    · by_cases last : (p.1.lookup child).getD 0 - 1 = 0 <;> simp [same, last]

variable (name deps members items) in
/-- Between two visits of a layer, `rest` being what is left of it: placed is
what has been ordered, the degrees count what is not placed, and what is placed
or about to be is what waits for nothing more. -/
structure Placed (p : Progress κ) (rest : List κ) : Prop where
  nodup : (p.ordered ++ rest).Nodup
  fresh : ∀ k ∈ p.next, k ∉ p.ordered ++ rest
  degrees : ∀ a ∈ items, name a ∈ members → p.degrees.lookup (name a) =
    some ((parents deps members a).filter (· ∉ p.ordered)).length
  ready : ∀ k, k ∈ p.ordered ++ rest ∨ k ∈ p.next ↔
    ∃ a ∈ items, name a = k ∧ k ∈ members ∧ ∀ d ∈ parents deps members a, d ∈ p.ordered

variable {ds : List κ} {k : κ} {ordered : List κ}

/-- One dependency less is left when one more is placed. -/
theorem length_filter_placed (distinct : ds.Nodup) (waits : k ∈ ds) (fresh : k ∉ ordered) :
    (ds.filter (· ∉ ordered)).length - 1 = (ds.filter (· ∉ ordered ++ [k])).length := by
  have left : ds.filter (· ∉ ordered ++ [k]) = (ds.filter (· ∉ ordered)).erase k := by
    rw [(distinct.filter _).erase_eq_filter, List.filter_filter]
    apply List.filter_congr
    intro d _
    by_cases same : d = k <;> simp [same]
  rw [left, List.length_erase_of_mem]
  simp [waits, fresh]

theorem filter_placed_of_not_mem (waits : k ∉ ds) :
    ds.filter (· ∉ ordered ++ [k]) = ds.filter (· ∉ ordered) := by
  apply List.filter_congr
  intro d held
  have other : d ≠ k := fun same => waits (same ▸ held)
  simp [other]

/-- Who is released when `k` is placed. -/
theorem mem_children {a : α} (distinct : (items.map name).Nodup) (held : a ∈ items)
    (member : name a ∈ members) :
    name a ∈ ((links name deps members items).children.lookup k).getD [] ↔
      k ∈ parents deps members a := by
  rw [lookup_children, List.mem_map]
  constructor
  · rintro ⟨b, waits, same⟩
    rw [List.mem_filter, decide_eq_true_eq] at waits
    rw [← List.inj_on_of_nodup_map distinct waits.1 held same]
    exact waits.2.2
  · intro waits
    exact ⟨a, List.mem_filter.mpr ⟨held, by simp [member, waits]⟩, rfl⟩

theorem nodup_children (distinct : (items.map name).Nodup) :
    (((links name deps members items).children.lookup k).getD []).Nodup := by
  rw [lookup_children]
  exact distinct.sublist (List.filter_sublist.map name)

theorem length_filter_eq_zero : (ds.filter (· ∉ ordered)).length = 0 ↔ ∀ d ∈ ds, d ∈ ordered := by
  simp [List.length_eq_zero_iff, List.filter_eq_nil_iff]

variable {p : Progress κ} {rest : List κ}

section

variable (placed : Placed name deps members items p (k :: rest))
include placed

theorem Placed.unplaced : k ∉ p.ordered := by
  have apart := (List.nodup_append.mp placed.nodup).2.2
  exact fun held => apart k held k (by simp) rfl

/-- What a member waits for after `k` is placed. -/
theorem Placed.released {a : α} (held : a ∈ items) (member : name a ∈ members)
    (waits : k ∈ parents deps members a) :
    (p.degrees.lookup (name a)).getD 0 - 1 =
      ((parents deps members a).filter (· ∉ p.ordered ++ [k])).length := by
  rw [placed.degrees a held member]
  exact length_filter_placed (List.nodup_dedup _) waits placed.unplaced

variable (distinct : (items.map name).Nodup)
include distinct

/-- Who is next because `k` is placed. -/
theorem Placed.newlyNext {c : κ} :
    (c ∈ ((links name deps members items).children.lookup k).getD [] ∧
        (p.degrees.lookup c).getD 0 - 1 = 0) ↔
      ∃ a ∈ items, name a = c ∧ c ∈ members ∧ k ∈ parents deps members a ∧
        ∀ d ∈ parents deps members a, d ∈ p.ordered ++ [k] := by
  constructor
  · rintro ⟨waits, last⟩
    rw [lookup_children, List.mem_map] at waits
    obtain ⟨a, waits, rfl⟩ := waits
    rw [List.mem_filter, decide_eq_true_eq] at waits
    obtain ⟨held, member, waits⟩ := waits
    rw [placed.released held member waits, length_filter_eq_zero] at last
    exact ⟨a, held, rfl, member, waits, last⟩
  · rintro ⟨a, held, rfl, member, waits, all⟩
    refine ⟨(mem_children distinct held member).mpr waits, ?_⟩
    rw [placed.released held member waits]
    exact length_filter_eq_zero.mpr all

/-- Visiting the first of the rest keeps the invariant. -/
theorem Placed.visit :
    Placed name deps members items (visit (links name deps members items).children p k) rest := by
  have unique : (((links name deps members items).children.lookup k).getD []).Nodup :=
    nodup_children distinct
  have released := foldl_release unique (p.degrees, p.next)
  have next : ∀ c, c ∈ (Layers.visit (links name deps members items).children p k).next ↔
      c ∈ p.next ∨ ∃ a ∈ items, name a = c ∧ c ∈ members ∧ k ∈ parents deps members a ∧
        ∀ d ∈ parents deps members a, d ∈ p.ordered ++ [k] := by
    intro c
    rw [← placed.newlyNext distinct]
    exact (released c).2
  have split : p.ordered ++ k :: rest = (p.ordered ++ [k]) ++ rest := by simp
  refine ⟨?_, ?_, ?_, ?_⟩
  · exact split ▸ placed.nodup
  · intro c isNext
    show c ∉ (p.ordered ++ [k]) ++ rest
    rw [← split]
    rcases (next c).mp isNext with earlier | ⟨a, held, rfl, member, waits, _⟩
    · exact placed.fresh c earlier
    · -- `a` was waiting for `k`, so it was neither placed nor about to be
      intro before
      obtain ⟨b, held', same, _, all⟩ := (placed.ready (name a)).mp (.inl before)
      rw [List.inj_on_of_nodup_map distinct held' held same] at all
      exact placed.unplaced (all k waits)
  · intro a held member
    show ((((links name deps members items).children.lookup k).getD []).foldl release
      (p.degrees, p.next)).1.lookup (name a) = _
    rw [(released (name a)).1]
    by_cases waits : k ∈ parents deps members a
    · rw [if_pos ((mem_children distinct held member).mpr waits), placed.released held member waits]
      rfl
    · rw [if_neg (mt (mem_children distinct held member).mp waits), placed.degrees a held member]
      show _ = some ((parents deps members a).filter (· ∉ p.ordered ++ [k])).length
      rw [filter_placed_of_not_mem waits]
  · intro c
    show c ∈ (p.ordered ++ [k]) ++ rest ∨ _ ↔ ∃ a ∈ items, name a = c ∧ c ∈ members ∧
        ∀ d ∈ parents deps members a, d ∈ p.ordered ++ [k]
    rw [← split, next, ← or_assoc, placed.ready]
    constructor
    · rintro (⟨a, held, named, member, all⟩ | ⟨a, held, named, member, _, all⟩)
      · exact ⟨a, held, named, member, fun d waits => List.mem_append_left _ (all d waits)⟩
      · exact ⟨a, held, named, member, all⟩
    · rintro ⟨a, held, named, member, all⟩
      by_cases waits : k ∈ parents deps members a
      · exact .inr ⟨a, held, named, member, waits, all⟩
      · refine .inl ⟨a, held, named, member, fun d parent => ?_⟩
        rcases List.mem_append.mp (all d parent) with earlier | last
        · exact earlier
        · exact absurd (List.mem_singleton.mp last ▸ parent) waits

end

theorem Placed.visits (distinct : (items.map name).Nodup)
    (placed : Placed name deps members items p rest) :
    Placed name deps members items
        (rest.foldl (Layers.visit (links name deps members items).children) p) [] ∧
      (rest.foldl (Layers.visit (links name deps members items).children) p).ordered =
        p.ordered ++ rest := by
  induction rest generalizing p with
  | nil => exact ⟨placed, by simp⟩
  | cons k rest ih =>
    obtain ⟨kept, ordered⟩ := ih (placed.visit distinct)
    refine ⟨kept, ?_⟩
    rw [List.foldl_cons, ordered]
    simp [Layers.visit]

/-- At the start nothing is placed. -/
theorem Placed.start (distinct : (items.map name).Nodup) :
    Placed name deps members items ⟨(links name deps members items).degrees,
      roots (links name deps members items).degrees, []⟩ [] where
  nodup := List.nodup_nil
  fresh _ _ := List.not_mem_nil
  degrees a held member := by
    rw [(lookup_degrees distinct).mpr ⟨a, held, rfl, member, rfl⟩]
    simp
  ready k := by
    rw [mem_roots, lookup_degrees distinct]
    simp only [List.append_nil, List.not_mem_nil, false_or, imp_false,
      ← List.eq_nil_iff_forall_not_mem, eq_comm (a := 0), List.length_eq_zero_iff]

theorem Placed.mem_members (placed : Placed name deps members items p []) (held : k ∈ p.ordered) :
    k ∈ members := by
  obtain ⟨_, _, _, member, _⟩ := (placed.ready k).mp (.inl (by simpa using held))
  exact member

theorem Placed.length_le (placed : Placed name deps members items p []) :
    p.ordered.length ≤ members.card := by
  have unique : p.ordered.Nodup := by simpa using placed.nodup
  rw [← List.toFinset_card_of_nodup unique]
  apply Finset.card_le_card
  intro k held
  exact placed.mem_members (List.mem_toFinset.mp held)

variable (key : κ → ω) (injective : Function.Injective key)

/-- What is next becomes the rest of a layer. -/
theorem Placed.open (placed : Placed name deps members items p []) :
    Placed name deps members items { p with next := ∅ } (sortedSet key injective p.next) where
  nodup := by
    have unique := placed.nodup
    rw [List.append_nil] at unique
    refine List.nodup_append.mpr ⟨unique, nodup_sortedSet key injective p.next, ?_⟩
    rintro k held l isNext rfl
    exact placed.fresh k ((mem_sortedSet key).mp isNext) (by simpa using held)
  fresh k isNext := by simp at isNext
  degrees := placed.degrees
  ready k := by
    rw [← placed.ready k]
    simp [mem_sortedSet]

theorem Placed.next_eq (placed : Placed name deps members items p []) :
    p.next = Layers.ready name deps members items p.ordered := by
  ext k
  have reached := placed.ready k
  have fresh := placed.fresh k
  simp only [mem_parents, List.append_nil] at reached fresh
  simp only [Layers.ready, Finset.mem_filter]
  constructor
  · intro isNext
    obtain ⟨a, held, named, member, all⟩ := reached.mp (.inr isNext)
    exact ⟨member, fresh isNext, a, held, named, fun d needs inside => all d ⟨needs, inside⟩⟩
  · rintro ⟨member, unplaced, a, held, named, all⟩
    have known := reached.mpr ⟨a, held, named, member, fun d needs => all d needs.1 needs.2⟩
    exact known.resolve_left unplaced

variable (name deps members items) in
/-- Between two layers: what is placed is what the scans have placed so far. -/
structure Scanned (p : Progress κ) : Prop extends Placed name deps members items p [] where
  scans : ∃ n ≤ p.ordered.length, (scan name deps members key injective items)^[n] [] = p.ordered

variable (distinct : (items.map name).Nodup)
include distinct

/-- A layer places at least one more member, or nothing is next. -/
theorem Scanned.layer (scanned : Scanned name deps members items key injective p) :
    RoundSpec (Scanned name deps members items key injective)
      (fun p => members.card - p.ordered.length)
      (fun outcome : Except ε (List κ) => ∃ p, outcome = .ok p.ordered ∧
        Scanned name deps members items key injective p ∧ p.next = ∅) p
      (layer key injective (links name deps members items).children p) := by
  have placed := scanned.toPlaced
  unfold Layers.layer
  split
  · next none => exact ⟨p, rfl, scanned, none⟩
  · next some =>
    obtain ⟨kept, ordered⟩ := (placed.open key injective).visits distinct
    obtain ⟨k, isNext⟩ := Finset.nonempty_of_ne_empty some
    have first : k ∈ sortedSet key injective p.next := (mem_sortedSet key).mpr isNext
    have positive := List.length_pos_of_mem first
    have bound := kept.length_le
    obtain ⟨n, within, reached⟩ := scanned.scans
    refine ⟨⟨kept, n + 1, ?_, ?_⟩, ?_⟩
    · rw [ordered, List.length_append]
      dsimp only
      omega
    · rw [ordered, Function.iterate_succ_apply', reached, scan, ← placed.next_eq]
    · dsimp only
      rw [ordered, List.length_append] at bound ⊢
      dsimp only at bound ⊢
      omega

variable (deps members) in
/-- The layers come to an end, when nothing is left to place next. -/
theorem order_eq (cyclic : ε) :
    ∃ p, order name deps members key injective cyclic items =
        (if p.ordered.length = members.card then .ok p.ordered else .error cyclic) ∧
      Scanned name deps members items key injective p ∧ p.next = ∅ := by
  have ends : ∃ p, run cyclic (layer key injective (links name deps members items).children)
        (members.card + 1) ⟨(links name deps members items).degrees,
          roots (links name deps members items).degrees, []⟩ = .ok p.ordered ∧
      Scanned name deps members items key injective p ∧ p.next = ∅ :=
    run_spec (Scanned name deps members items key injective)
      (fun p => members.card - p.ordered.length) _
      (fun _ scanned => scanned.layer key injective distinct)
      ⟨Placed.start distinct, 0, by simp, rfl⟩ (by simp)
  obtain ⟨p, ran, rest⟩ := ends
  refine ⟨p, ?_, rest⟩
  rw [order, ran, ok_bind, refuse]
  by_cases full : p.ordered.length = members.card <;> simp [full]

/-- Scanning places what a member needs before the member. -/
theorem idxOf_scans (n : Nat) {d : κ} (needs : Needs name deps members items k d)
    (held : k ∈ (scan name deps members key injective items)^[n] []) :
    ((scan name deps members key injective items)^[n] []).idxOf d <
      ((scan name deps members key injective items)^[n] []).idxOf k := by
  induction n with
  | zero => cases held
  | succ n ih =>
    rw [Function.iterate_succ_apply', scan] at held ⊢
    set placed := (scan name deps members key injective items)^[n] []
    by_cases before : k ∈ placed
    · have lower := ih before
      rw [List.idxOf_append_of_mem before, List.idxOf_append_of_mem]
      · exact lower
      · exact List.idxOf_lt_length_iff.mp (lower.trans_le List.idxOf_le_length)
    · have isReady := (List.mem_append.mp held).resolve_left before
      rw [mem_sortedSet, ready, Finset.mem_filter] at isReady
      obtain ⟨_, _, a, known, rfl, all⟩ := isReady
      obtain ⟨_, inside, b, known', same, needs⟩ := needs
      rw [List.inj_on_of_nodup_map distinct known' known same] at needs
      have earlier := all d needs inside
      rw [List.idxOf_append_of_notMem before, List.idxOf_append_of_mem earlier]
      exact Nat.lt_add_right _ (List.idxOf_lt_length_iff.mpr earlier)

section

variable {cyclic : ε}
  (returned : order name deps members key injective cyclic items = .ok ordered)
include returned

theorem order_returned : ordered.length = members.card ∧
    ∃ p, Scanned name deps members items key injective p ∧ p.next = ∅ ∧ p.ordered = ordered := by
  obtain ⟨p, ran, scanned, none⟩ := order_eq deps members key injective distinct cyclic
  rw [ran] at returned
  split at returned
  · next full =>
    obtain rfl := Except.ok.inj returned
    exact ⟨full, p, scanned, none, rfl⟩
  · cases returned

/-- What is returned is the members, each once. -/
theorem order_ok : ordered.Nodup ∧ ∀ k, k ∈ ordered ↔ k ∈ members := by
  obtain ⟨full, p, scanned, _, rfl⟩ := order_returned key injective distinct returned
  have unique : p.ordered.Nodup := by simpa using scanned.nodup
  have all : p.ordered.toFinset = members := by
    apply Finset.eq_of_subset_of_card_le
    · intro k held
      exact scanned.mem_members (List.mem_toFinset.mp held)
    · rw [List.toFinset_card_of_nodup unique, full]
  exact ⟨unique, fun k => by rw [← all, List.mem_toFinset]⟩

/-- What is returned is what scanning for one layer after another comes to. -/
theorem order_scan {n : Nat} (enough : members.card ≤ n) :
    (scan name deps members key injective items)^[n] [] = ordered := by
  obtain ⟨full, p, scanned, none, rfl⟩ := order_returned key injective distinct returned
  have rests : scan name deps members key injective items p.ordered = p.ordered := by
    rw [scan, ← scanned.next_eq, none, List.append_right_eq_self, List.eq_nil_iff_forall_not_mem]
    simp [mem_sortedSet]
  obtain ⟨rounds, within, reached⟩ := scanned.scans
  obtain ⟨more, rfl⟩ := Nat.exists_eq_add_of_le (within.trans (full.trans_le enough))
  rw [Nat.add_comm, Function.iterate_add_apply, reached, Function.iterate_fixed rests]

/-- What a member needs is returned before the member. -/
theorem order_rises {d : κ} (needs : Needs name deps members items k d) :
    ordered.idxOf d < ordered.idxOf k := by
  have held := ((order_ok key injective distinct returned).2 k).mpr needs.1
  rw [← order_scan key injective distinct returned le_rfl] at held ⊢
  exact idxOf_scans key injective distinct _ needs held

end

/-- Members that do not depend on each other in a circle are all placed. -/
theorem order_total (cyclic : ε) (known : ∀ k ∈ members, ∃ a ∈ items, name a = k)
    (acyclic : ¬ Cyclic name deps members items) :
    ∃ ordered, order name deps members key injective cyclic items = .ok ordered := by
  obtain ⟨p, ran, scanned, none⟩ := order_eq deps members key injective distinct cyclic
  have unique : p.ordered.Nodup := by simpa using scanned.nodup
  -- the members are finitely many, so what they need is well-founded
  have founded := Ancestry.founded_of_acyclic members fun k loop => acyclic ⟨k, loop⟩
  have all : ∀ k : members, k.1 ∈ p.ordered := by
    intro k
    induction k using founded.induction with
    | _ k ih =>
      obtain ⟨a, held, named⟩ := known k k.2
      have waits : ∀ d ∈ parents deps members a, d ∈ p.ordered := by
        intro d parent
        obtain ⟨needs, inside⟩ := mem_parents.mp parent
        exact ih ⟨d, inside⟩ (.single ⟨k.2, inside, a, held, named, needs⟩)
      have reached := (scanned.ready k).mpr ⟨a, held, named, k.2, waits⟩
      simpa [none] using reached
  refine ⟨p.ordered, ?_⟩
  rw [ran, if_pos]
  rw [← List.toFinset_card_of_nodup unique]
  congr 1
  ext k
  rw [List.mem_toFinset]
  exact ⟨fun held => scanned.mem_members held, fun member => all ⟨k, member⟩⟩

omit [DecidableEq κ] distinct in
/-- No member that ranks above what it needs comes back to itself. -/
theorem acyclic_of_rank (rank : κ → Nat)
    (rises : ∀ k d, Needs name deps members items k d → rank d < rank k) :
    ¬ Cyclic name deps members items := by
  rintro ⟨k, loop⟩
  have falls : ∀ d, Relation.TransGen (Needs name deps members items) k d → rank d < rank k := by
    intro d path
    induction path with
    | single needs => exact rises _ _ needs
    | tail _ needs ih => exact (rises _ _ needs).trans ih
  exact lt_irrefl _ (falls k loop)

/-- The members are refused exactly when one of them depends on itself. -/
theorem order_error {cyclic e : ε} (known : ∀ k ∈ members, ∃ a ∈ items, name a = k) :
    order name deps members key injective cyclic items = .error e ↔
      e = cyclic ∧ Cyclic name deps members items := by
  obtain ⟨p, ran, _⟩ := order_eq deps members key injective distinct cyclic
  constructor
  · intro refused
    refine ⟨?_, ?_⟩
    · rw [ran] at refused
      split at refused
      · cases refused
      · exact (Except.error.inj refused).symm
    · by_contra acyclic
      obtain ⟨ordered, returned⟩ := order_total key injective distinct cyclic known acyclic
      cases returned.symm.trans refused
  · rintro ⟨rfl, loop⟩
    rw [ran, if_neg]
    intro full
    rw [if_pos full] at ran
    exact acyclic_of_rank p.ordered.idxOf
      (fun _ _ needs => order_rises key injective distinct ran needs) loop

end Run

end Layers
