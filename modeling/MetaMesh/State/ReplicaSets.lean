import Mathlib.Data.Prod.Lex
import MetaMesh.CanonicalText
import MetaMesh.Lib.Latest
import MetaMesh.Lib.MergeTree

/-!
# Replica sets

`reconcile_replica_sets` of `state.rs`.  A replica set holds records and tombstones by
id.  Of two entries with one id the later stays, and of two with one time the one with
the greater canonical text.  A record goes when a tombstone of its id is not older.

`IsJoin` is what a reconciliation is for: under each id the best of all tombstones, and
the best of all records that outlive them.  `reconcile_ok` says that this is what the
code computes; the laws follow from it.
-/

namespace MetaMesh

open Fallible Latest

def maxStateString : Nat := 256

/-- `char::is_whitespace`. -/
def isWhitespace (c : Char) : Bool :=
  let n := c.toNat
  (9 ≤ n && n ≤ 13) || n = 32 || n = 0x85 || n = 0xA0 || n = 0x1680 || (0x2000 ≤ n && n ≤ 0x200A) ||
    n = 0x2028 || n = 0x2029 || n = 0x202F || n = 0x205F || n = 0x3000

def requiredBounded (value : String) (maximum : Nat) (label : String) : Except String Unit :=
  refuse (value.toList.all isWhitespace = true ∨ maximum < value.utf8ByteSize) ("Invalid " ++ label)

/-- Texts compare as their bytes. -/
def textKey (text : List UInt8) : List Nat :=
  text.map UInt8.toNat

theorem textKey_injective : Function.Injective textKey :=
  List.map_injective_iff.mpr fun _ _ => UInt8.toNat_inj.mp

/-- A record of a set. -/
structure ReplicaRecord where
  id : String
  updatedAt : String
  value : JsonValue

/-- A deletion. -/
structure ReplicaTombstone where
  id : String
  deletedAt : String
deriving DecidableEq, Repr

/-- What a replica holds. -/
structure ReplicaSet where
  records : List ReplicaRecord
  tombstones : List ReplicaTombstone

-- `serde_json::to_value` orders the fields by name
instance : Serialize ReplicaRecord where
  toValue r := .object [("id", toValue r.id), ("updatedAt", toValue r.updatedAt),
    ("value", r.value.1)]

instance : Serialize ReplicaTombstone where
  toValue t := .object [("deletedAt", toValue t.deletedAt), ("id", toValue t.id)]

section Reconcile

variable (P : Primitives)

def timestampMs (value : String) : Except String Int := do
  let nanos ← okOr (P.parseRfc3339 value) "Invalid replica timestamp"
  .ok (nanos.tdiv 1000000)

/-- The later one, then the greater canonical text. -/
def preferTimestamped {T : Type} [Serialize T] (current : Option T) (candidate : T)
    (date : T → String) : Except String Bool := do
  let candidateTime ← timestampMs P (date candidate)
  match current with
  | none => .ok true
  | some current =>
    let currentTime ← timestampMs P (date current)
    if candidateTime ≠ currentTime then .ok (currentTime < candidateTime)
    else
      let candidate ← canonicalizeJson P (toValue candidate)
      let current ← canonicalizeJson P (toValue current)
      .ok (textKey current < textKey candidate)

/-- The candidate stays under its id if it is preferred. -/
def keepPreferred {T : Type} [Serialize T] (id date : T → String) (held : Table String T)
    (candidate : T) : Except String (Table String T) := do
  let replace ← preferTimestamped P (held.lookup (id candidate)) candidate date
  .ok (if replace then held.insert (id candidate) candidate else held)

variable (tombstones : Table String ReplicaTombstone)

def takeTombstone (candidate : ReplicaTombstone) :
    Except String (Table String ReplicaTombstone) := do
  requiredBounded candidate.id maxStateString "replica tombstone"
  keepPreferred P ReplicaTombstone.id ReplicaTombstone.deletedAt tombstones candidate

/-- A tombstone of the id that is not older than the record. -/
def isDeleted (candidate : ReplicaRecord) : Except String Bool :=
  match tombstones.lookup candidate.id with
  | none => .ok false
  | some deleted => do
      let deletedAt ← timestampMs P deleted.deletedAt
      let updatedAt ← timestampMs P candidate.updatedAt
      .ok (updatedAt ≤ deletedAt)

def takeReplicaRecord (records : Table String ReplicaRecord) (candidate : ReplicaRecord) :
    Except String (Table String ReplicaRecord) := do
  requiredBounded candidate.id maxStateString "replica record"
  if ← isDeleted P tombstones candidate then .ok records
  else keepPreferred P ReplicaRecord.id ReplicaRecord.updatedAt records candidate

/-- Tombstones first, then the records they leave. -/
def reconcileReplicaSets (left right : ReplicaSet) : Except String ReplicaSet := do
  let tombstones ← (left.tombstones ++ right.tombstones).foldlM (takeTombstone P) ∅
  let records ← (left.records ++ right.records).foldlM (takeReplicaRecord P tombstones) ∅
  .ok ⟨records.orderedValues strKey, tombstones.orderedValues strKey⟩

end Reconcile

/-! ## Entries by time and text -/

/-- What records and tombstones have in common. -/
class Entry (T : Type) extends Serialize T where
  id : T → String
  date : T → String
  wellFormed : ∀ t, (toValue t).wellFormed = true
  injective : Function.Injective toValue

instance : Entry ReplicaTombstone where
  id := ReplicaTombstone.id
  date := ReplicaTombstone.deletedAt
  wellFormed _ := rfl
  injective a b same := by
    simp only [toValue, Value.object.injEq, List.cons.injEq, Prod.mk.injEq, Value.string.injEq,
      true_and, and_true] at same
    exact ReplicaTombstone.mk.injEq _ _ _ _ ▸ ⟨same.2, same.1⟩

instance : Entry ReplicaRecord where
  id := ReplicaRecord.id
  date := ReplicaRecord.updatedAt
  wellFormed r := by
    refine wellFormed_object_iff.mpr
      ⟨ascendingKeys_of_sublist (List.Sublist.refl ["id", "updatedAt", "value"]) (by decide), ?_⟩
    simp [toValue, Value.wellFormed, r.value.2]
  injective a b same := by
    simp only [toValue, Value.object.injEq, List.cons.injEq, Prod.mk.injEq, Value.string.injEq,
      true_and, and_true] at same
    rcases a with ⟨_, _, left⟩
    rcases b with ⟨_, _, right⟩
    obtain ⟨rfl, rfl, value⟩ := same
    obtain rfl : left = right := Subtype.ext value
    rfl

section Spec

variable {P : Primitives} {T : Type} [Entry T]

namespace Entry

variable (P) in
def time (t : T) : Int :=
  ((P.parseRfc3339 (date t)).getD 0).tdiv 1000000

variable (P) in
/-- The later entry is preferred, then the one with the greater text. -/
def rank (t : T) : Int ×ₗ List Nat :=
  toLex (time P t, textKey (toValue t).toVec)

variable (P) in
/-- The id is neither blank nor too long, and the date is one. -/
structure Valid (t : T) : Prop where
  named : ¬ ((id t).toList.all isWhitespace = true ∨ maxStateString < (id t).utf8ByteSize)
  dated : ∃ nanos, P.parseRfc3339 (date t) = some nanos

theorem rank_injective : Function.Injective (rank P : T → Int ×ₗ List Nat) := by
  intro a b same
  have texts : textKey (toValue a).toVec = textKey (toValue b).toVec :=
    congrArg (fun pair => (ofLex pair).2) same
  exact injective (toVec_injective (wellFormed a) (wellFormed b) (textKey_injective texts))

theorem time_le_of_rank_le {a b : T} (below : rank P a ≤ rank P b) : time P a ≤ time P b := by
  rcases Prod.Lex.toLex_le_toLex.mp below with earlier | ⟨same, _⟩
  · exact le_of_lt earlier
  · exact le_of_eq same

variable {t candidate : T} {held : Table String T}

theorem timestampMs_eq (dated : ∃ nanos, P.parseRfc3339 (date t) = some nanos) :
    timestampMs P (date t) = .ok (time P t) := by
  obtain ⟨nanos, read⟩ := dated
  simp [timestampMs, time, read, okOr]

theorem dated_of_timestampMs {ms : Int} (read : timestampMs P (date t) = .ok ms) :
    ∃ nanos, P.parseRfc3339 (date t) = some nanos := by
  obtain ⟨nanos, found, _⟩ := bind_ok.mp read
  exact ⟨nanos, okOr_ok.mp found⟩

theorem preferTimestamped_eq {current : Option T}
    (dated : ∃ nanos, P.parseRfc3339 (date candidate) = some nanos)
    (held : ∀ t, current = some t → ∃ nanos, P.parseRfc3339 (date t) = some nanos) :
    preferTimestamped P current candidate date =
      .ok (current.all fun t => rank P t < rank P candidate) := by
  unfold preferTimestamped
  rw [timestampMs_eq dated, ok_bind]
  cases current with
  | none => rfl
  | some t =>
    dsimp only
    rw [timestampMs_eq (held t rfl), ok_bind]
    by_cases same : time P candidate = time P t
    · simp [same, rank, Prod.Lex.toLex_lt_toLex, canonicalizeJson_eq P (wellFormed candidate),
        canonicalizeJson_eq P (wellFormed t)]
    · simp [same, rank, Prod.Lex.toLex_lt_toLex, Ne.symm same]

theorem keepPreferred_eq (valid : Valid P candidate)
    (clean : ∀ k t, held.lookup k = some t → Valid P t) :
    keepPreferred P id date held candidate = .ok (offer id (rank P) held candidate) := by
  unfold keepPreferred
  rw [preferTimestamped_eq valid.dated fun t found => (clean _ t found).dated]
  rfl

theorem dated_of_keepPreferred {next : Table String T}
    (kept : keepPreferred P id date held candidate = .ok next) :
    ∃ nanos, P.parseRfc3339 (date candidate) = some nanos := by
  obtain ⟨_, preferred, _⟩ := bind_ok.mp kept
  obtain ⟨_, read, _⟩ := bind_ok.mp preferred
  exact dated_of_timestampMs read

theorem told (items : Set T) : Told id (rank P) items :=
  fun _ _ _ _ _ same => rank_injective same

variable (P) in
/-- The best entries by their ids. -/
abbrev kept (items : List T) : Table String T :=
  items.foldl (offer id (rank P)) ∅

theorem lookup_kept {items : List T} {k : String} :
    (kept P items).lookup k = some t ↔ id t = k ∧ Best id (rank P) {b | b ∈ items} t :=
  lookup_foldl_offer (told _)

end Entry

end Spec

/-! ## The join -/

open Entry (rank time Valid told kept lookup_kept timestampMs_eq time_le_of_rank_le
  dated_of_timestampMs)

section Join

variable (P : Primitives)

/-- Every tombstone of its id is older. -/
def Outlives (tombstones : Set ReplicaTombstone) (r : ReplicaRecord) : Prop :=
  ∀ t ∈ tombstones, t.id = r.id → Entry.time P t < Entry.time P r

/-- Under each id the best tombstone, and the best of the records that outlive them all;
both in the order of the ids. -/
structure IsJoin (records : Set ReplicaRecord) (tombstones : Set ReplicaTombstone)
    (result : ReplicaSet) : Prop where
  keptTombstones : ∀ t, t ∈ result.tombstones ↔ Best Entry.id (Entry.rank P) tombstones t
  keptRecords : ∀ r, r ∈ result.records ↔
    Best Entry.id (Entry.rank P) {r | r ∈ records ∧ Outlives P tombstones r} r
  tombstonesInOrder : result.tombstones.Pairwise fun a b => strKey a.id < strKey b.id
  recordsInOrder : result.records.Pairwise fun a b => strKey a.id < strKey b.id

/-- The entries of two sets. -/
def ReplicaSet.both (left right : ReplicaSet) : ReplicaSet :=
  ⟨left.records ++ right.records, left.tombstones ++ right.tombstones⟩

/-- The join of the entries of a set. -/
abbrev Folds (s : ReplicaSet) : ReplicaSet → Prop :=
  IsJoin P {r | r ∈ s.records} {t | t ∈ s.tombstones}

/-- Every entry is valid. -/
structure ReplicaSet.Valid (s : ReplicaSet) : Prop where
  records : ∀ r ∈ s.records, Entry.Valid P r
  tombstones : ∀ t ∈ s.tombstones, Entry.Valid P t

variable {P}

theorem IsJoin.unique {records : Set ReplicaRecord} {tombstones : Set ReplicaTombstone}
    {result other : ReplicaSet} (join : IsJoin P records tombstones result)
    (join' : IsJoin P records tombstones other) : result = other := by
  rcases result with ⟨rs, ts⟩
  rcases other with ⟨rs', ts'⟩
  obtain rfl : ts = ts' := eq_of_ascending join.tombstonesInOrder join'.tombstonesInOrder
    fun t => (join.keptTombstones t).trans (join'.keptTombstones t).symm
  obtain rfl : rs = rs' := eq_of_ascending join.recordsInOrder join'.recordsInOrder
    fun r => (join.keptRecords r).trans (join'.keptRecords r).symm
  rfl

variable {r : ReplicaRecord}

/-- Keeping the best of some tombstones loses none that matters. -/
theorem outlives_of_best {few all : Set ReplicaTombstone} (inside : ∀ t ∈ few, t ∈ all)
    (dominated : ∀ t ∈ all, ∃ b ∈ few, Entry.id b = Entry.id t ∧ rank P t ≤ rank P b) :
    Outlives P few r ↔ Outlives P all r := by
  constructor
  · intro outlives t held same
    obtain ⟨b, inFew, sameId, above⟩ := dominated t held
    exact lt_of_le_of_lt (time_le_of_rank_le above) (outlives b inFew (sameId.trans same))
  · intro outlives t held
    exact outlives t (inside t held)

theorem requiredBounded_ok {value label : String} :
    requiredBounded value maxStateString label = .ok () ↔
      ¬ (value.toList.all isWhitespace = true ∨ maxStateString < value.utf8ByteSize) :=
  refuse_ok

variable {tombstones : Table String ReplicaTombstone}

theorem takeTombstones_ok {items : List ReplicaTombstone} :
    items.foldlM (takeTombstone P) ∅ = .ok tombstones ↔ (∀ t ∈ items, Valid P t) ∧
      tombstones = kept P items := by
  have accepts : ∀ (held : Table String ReplicaTombstone) (t : ReplicaTombstone),
      (∀ k b, held.lookup k = some b → Valid P b) → Valid P t →
      takeTombstone P held t =
        .ok (if (fun _ => false) t = true then held else offer Entry.id (rank P) held t) := by
    intro held t clean valid
    exact bind_ok.mpr ⟨(), requiredBounded_ok.mpr valid.named, Entry.keepPreferred_eq valid clean⟩
  have refuses : ∀ (held : Table String ReplicaTombstone) (t : ReplicaTombstone) next,
      takeTombstone P held t = .ok next → Valid P t := by
    intro held t next taken
    obtain ⟨_, bounded, kept⟩ := bind_ok.mp taken
    exact ⟨requiredBounded_ok.mp bounded, Entry.dated_of_keepPreferred kept⟩
  refine (foldlM_offer_ok accepts refuses
    (fun k b (found : (∅ : Table String ReplicaTombstone).lookup k = some b) =>
      by simp at found)).trans
    ?_
  simp

variable (P) in
/-- The tombstone of the record's id is not older. -/
abbrev overtakes (tombstones : Table String ReplicaTombstone) (r : ReplicaRecord) : Bool :=
  (tombstones.lookup r.id).any fun t => time P r ≤ time P t

/-- The tombstone that is kept for the id of a record decides about it. -/
theorem isDeleted_eq (clean : ∀ k t, tombstones.lookup k = some t → Valid P t)
    (valid : Valid P r) : isDeleted P tombstones r = .ok (overtakes P tombstones r) := by
  unfold isDeleted overtakes
  cases found : tombstones.lookup r.id with
  | none => rfl
  | some t =>
    dsimp only
    rw [show timestampMs P t.deletedAt = .ok (time P t) from
        timestampMs_eq (clean _ t found).dated,
      show timestampMs P r.updatedAt = .ok (time P r) from timestampMs_eq valid.dated]
    rfl

theorem takeReplicaRecords_ok (clean : ∀ k t, tombstones.lookup k = some t → Valid P t)
    {items : List ReplicaRecord} {records : Table String ReplicaRecord} :
    items.foldlM (takeReplicaRecord P tombstones) ∅ = .ok records ↔ (∀ r ∈ items, Valid P r) ∧
      records = kept P (items.filter fun r => !overtakes P tombstones r) := by
  have accepts : ∀ (held : Table String ReplicaRecord) (r : ReplicaRecord),
      (∀ k b, held.lookup k = some b → Valid P b) → Valid P r →
      takeReplicaRecord P tombstones held r =
        .ok (if overtakes P tombstones r then held else offer Entry.id (rank P) held r) := by
    intro held r heldClean valid
    refine bind_ok.mpr ⟨(), requiredBounded_ok.mpr valid.named, ?_⟩
    rw [isDeleted_eq clean valid, ok_bind]
    split
    · rfl
    · exact Entry.keepPreferred_eq valid heldClean
  have refuses : ∀ (held : Table String ReplicaRecord) (r : ReplicaRecord) next,
      takeReplicaRecord P tombstones held r = .ok next → Valid P r := by
    intro held r next taken
    obtain ⟨_, bounded, taken⟩ := bind_ok.mp taken
    obtain ⟨deleted, checked, kept⟩ := bind_ok.mp taken
    refine ⟨requiredBounded_ok.mp bounded, ?_⟩
    cases deleted with
    | false => exact Entry.dated_of_keepPreferred kept
    | true =>
      -- a deleted record was compared with its tombstone
      unfold isDeleted at checked
      split at checked
      · cases checked
      · obtain ⟨_, _, checked⟩ := bind_ok.mp checked
        obtain ⟨_, read, _⟩ := bind_ok.mp checked
        exact dated_of_timestampMs read
  exact foldlM_offer_ok accepts refuses
    (fun k b (found : (∅ : Table String ReplicaRecord).lookup k = some b) => by simp at found)

/-- A table that is filled by offers holds the best entries, in the order of their ids. -/
theorem orderedValues_offer {T : Type} [Entry T] {items : List T} :
    (∀ a, a ∈ (kept P items).orderedValues strKey ↔ Best Entry.id (rank P) {b | b ∈ items} a) ∧
    ((kept P items).orderedValues strKey).Pairwise
      fun a b => strKey (Entry.id a) < strKey (Entry.id b) := by
  refine ⟨?_, ?_⟩
  · intro a
    rw [Table.mem_orderedValues]
    constructor
    · rintro ⟨k, held⟩
      exact (lookup_kept.mp held).2
    · intro best
      exact ⟨Entry.id a, lookup_kept.mpr ⟨rfl, best⟩⟩
  · refine Table.KeyedBy.ascending ?_ strKey_injective
    intro k a held
    exact (lookup_kept.mp held).1

variable (P) in
/-- What the loops leave of valid entries. -/
def joinOf (records : List ReplicaRecord) (tombstones : List ReplicaTombstone) : ReplicaSet :=
  let kept := tombstones.foldl (offer Entry.id (Entry.rank P)) ∅
  let living := records.filter fun r => !(kept.lookup r.id).any fun t =>
    Entry.time P r ≤ Entry.time P t
  ⟨(living.foldl (offer Entry.id (Entry.rank P)) ∅).orderedValues strKey, kept.orderedValues strKey⟩

/-- The best tombstone of its id stands for all of them. -/
theorem kept_any_iff {tombstones : List ReplicaTombstone} :
    overtakes P (kept P tombstones) r = false ↔ Outlives P {t | t ∈ tombstones} r := by
  unfold overtakes
  constructor
  · intro none t held same
    obtain ⟨b, best, sameId, above⟩ : ∃ b, Best Entry.id (rank P) {t | t ∈ tombstones} b ∧
        Entry.id b = Entry.id t ∧ rank P t ≤ rank P b := exists_best tombstones held
    rw [lookup_kept.mpr ⟨sameId.trans same, best⟩, Option.any_some, decide_eq_false_iff_not,
      not_le] at none
    exact lt_of_le_of_lt (time_le_of_rank_le above) none
  · intro outlives
    cases looked : (kept P tombstones).lookup r.id with
    | none => rfl
    | some t =>
      obtain ⟨same, best⟩ := lookup_kept.mp looked
      rw [Option.any_some, decide_eq_false_iff_not, not_le]
      exact outlives t best.1 same

theorem isJoin_joinOf {records : List ReplicaRecord} {tombstones : List ReplicaTombstone} :
    IsJoin P {r | r ∈ records} {t | t ∈ tombstones} (joinOf P records tombstones) := by
  obtain ⟨heldT, orderT⟩ := @orderedValues_offer P ReplicaTombstone _ tombstones
  obtain ⟨heldR, orderR⟩ := @orderedValues_offer P ReplicaRecord _ (records.filter fun r =>
    !overtakes P (kept P tombstones) r)
  refine ⟨heldT, ?_, orderT, orderR⟩
  have living : {b | b ∈ records.filter fun r => !overtakes P (kept P tombstones) r} =
      {r | r ∈ {r | r ∈ records} ∧ Outlives P {t | t ∈ tombstones} r} := by
    apply Set.ext
    intro r
    refine List.mem_filter.trans (and_congr_right fun _ => ?_)
    rw [Bool.not_eq_true', kept_any_iff]
  intro r
  rw [← living]
  exact heldR r

/-- Reconciliation succeeds on valid entries, and its result is their join. -/
theorem reconcile_ok {left right result : ReplicaSet} :
    reconcileReplicaSets P left right = .ok result ↔
      (left.Valid P ∧ right.Valid P) ∧ Folds P (left.both right) result := by
  have clean : (∀ t ∈ left.tombstones ++ right.tombstones, Valid P t) →
      ∀ k t, (kept P (left.tombstones ++ right.tombstones)).lookup k = some t → Valid P t := by
    intro valid k t found
    exact valid t (lookup_kept.mp found).2.1
  constructor
  · intro reconciled
    obtain ⟨tombstones, takenT, reconciled⟩ := bind_ok.mp reconciled
    obtain ⟨records, takenR, same⟩ := bind_ok.mp reconciled
    obtain ⟨validT, rfl⟩ := takeTombstones_ok.mp takenT
    obtain ⟨validR, rfl⟩ := (takeReplicaRecords_ok (clean validT)).mp takenR
    rw [List.forall_mem_append] at validT validR
    refine ⟨⟨⟨validR.1, validT.1⟩, ⟨validR.2, validT.2⟩⟩, ?_⟩
    rw [← Except.ok.inj same]
    exact isJoin_joinOf
  · rintro ⟨⟨validL, validR⟩, join⟩
    have validT := List.forall_mem_append.mpr ⟨validL.tombstones, validR.tombstones⟩
    rw [join.unique isJoin_joinOf]
    exact bind_ok.mpr ⟨_, takeTombstones_ok.mpr ⟨validT, rfl⟩, bind_ok.mpr ⟨_,
      (takeReplicaRecords_ok (clean validT)).mpr
        ⟨List.forall_mem_append.mpr ⟨validL.records, validR.records⟩, rfl⟩, rfl⟩⟩

end Join

/-! ## The laws -/

section Laws

variable {P : Primitives}

variable {mid all more a b c left right result : ReplicaSet} {r : ReplicaRecord}

/-- The best of the records that outlive some tombstones outranks each of them. -/
theorem IsJoin.outranked (join : Folds P all mid) (held : r ∈ all.records)
    (outlives : Outlives P {t | t ∈ all.tombstones} r) :
    ∃ b ∈ mid.records, b.id = r.id ∧ rank P r ≤ rank P b := by
  classical
  let living := all.records.filter fun r => Outlives P {t | t ∈ all.tombstones} r
  have same : {b | b ∈ living} =
      {r | r ∈ {r | r ∈ all.records} ∧ Outlives P {t | t ∈ all.tombstones} r} := by
    apply Set.ext
    intro r
    exact List.mem_filter.trans (and_congr_right fun _ => decide_eq_true_iff)
  obtain ⟨b, best, sameId, above⟩ : ∃ b, Best Entry.id (rank P) {b | b ∈ living} b ∧
      Entry.id b = Entry.id r ∧ rank P r ≤ rank P b :=
    exists_best _ (List.mem_filter.mpr ⟨held, decide_eq_true outlives⟩)
  rw [same] at best
  exact ⟨b, (join.keptRecords b).mpr best, sameId, above⟩

/-- The join of a join with more entries is the join of all of them. -/
theorem folds_absorb (join : Folds P all mid) :
    Folds P (mid.both more) result ↔ Folds P (all.both more) result := by
  have insideT : ∀ t ∈ {t | t ∈ (mid.both more).tombstones},
      t ∈ {t | t ∈ (all.both more).tombstones} := by
    intro t held
    rcases List.mem_append.mp held with kept | other
    · exact List.mem_append_left _ ((join.keptTombstones t).mp kept).1
    · exact List.mem_append_right _ other
  have outrankedT : ∀ t ∈ {t | t ∈ (all.both more).tombstones},
      ∃ b ∈ {t | t ∈ (mid.both more).tombstones}, Entry.id b = Entry.id t ∧
        rank P t ≤ rank P b := by
    intro t held
    rcases List.mem_append.mp held with earlier | other
    · obtain ⟨b, best, same, above⟩ : ∃ b, Best Entry.id (rank P) {t | t ∈ all.tombstones} b ∧
          Entry.id b = Entry.id t ∧ rank P t ≤ rank P b := exists_best _ earlier
      exact ⟨b, List.mem_append_left _ ((join.keptTombstones b).mpr best), same, above⟩
    · exact ⟨t, List.mem_append_right _ other, rfl, le_rfl⟩
  have bestT : ∀ t, Best Entry.id (rank P) {t | t ∈ (mid.both more).tombstones} t ↔
      Best Entry.id (rank P) {t | t ∈ (all.both more).tombstones} t :=
    fun t => best_iff_of_dominated (told _) insideT outrankedT
  have outlives_iff {r} := @outlives_of_best P r _ _ insideT outrankedT
  have bestR : ∀ r, Best Entry.id (rank P) {r | r ∈ {r | r ∈ (mid.both more).records} ∧
        Outlives P {t | t ∈ (mid.both more).tombstones} r} r ↔
      Best Entry.id (rank P) {r | r ∈ {r | r ∈ (all.both more).records} ∧
        Outlives P {t | t ∈ (all.both more).tombstones} r} r := by
    intro r
    apply best_iff_of_dominated (told _)
    · rintro r ⟨held, outlives⟩
      refine ⟨?_, outlives_iff.mp outlives⟩
      rcases List.mem_append.mp held with kept | other
      · exact List.mem_append_left _ ((join.keptRecords r).mp kept).1.1
      · exact List.mem_append_right _ other
    · rintro r ⟨held, outlives⟩
      rcases List.mem_append.mp held with earlier | other
      · -- what outlives all tombstones outlives the earlier ones, and so does what outranks it
        obtain ⟨b, kept, same, above⟩ := join.outranked earlier
          (fun t known => outlives t (List.mem_append_left _ known))
        refine ⟨b, ⟨List.mem_append_left _ kept, ?_⟩, same, above⟩
        apply outlives_iff.mpr
        intro t known sameId
        exact lt_of_lt_of_le (outlives t known (sameId.trans same)) (time_le_of_rank_le above)
      · exact ⟨r, ⟨List.mem_append_right _ other, outlives_iff.mpr outlives⟩, rfl, le_rfl⟩
  constructor
  · intro joined
    exact ⟨fun t => (joined.keptTombstones t).trans (bestT t),
      fun r => (joined.keptRecords r).trans (bestR r), joined.tombstonesInOrder,
      joined.recordsInOrder⟩
  · intro joined
    exact ⟨fun t => (joined.keptTombstones t).trans (bestT t).symm,
      fun r => (joined.keptRecords r).trans (bestR r).symm, joined.tombstonesInOrder,
      joined.recordsInOrder⟩

/-- The join depends on which entries there are. -/
theorem folds_congr (records : ∀ r, r ∈ a.records ↔ r ∈ b.records)
    (tombstones : ∀ t, t ∈ a.tombstones ↔ t ∈ b.tombstones) :
    Folds P a result ↔ Folds P b result := by
  simp only [Folds, records, tombstones]

theorem folds_comm : Folds P (a.both (b.both c)) result ↔ Folds P (b.both (a.both c)) result := by
  apply folds_congr
  · simp only [ReplicaSet.both, List.mem_append]
    tauto
  · simp only [ReplicaSet.both, List.mem_append]
    tauto

theorem reconcile_comm :
    reconcileReplicaSets P left right = .ok result ↔
      reconcileReplicaSets P right left = .ok result := by
  rw [reconcile_ok, reconcile_ok, and_comm (a := left.Valid P)]
  exact and_congr_right fun _ => folds_congr (fun _ => List.perm_append_comm.mem_iff)
    fun _ => List.perm_append_comm.mem_iff

/-- A result holds valid entries. -/
theorem valid_of_reconcile (reconciled : reconcileReplicaSets P left right = .ok result) :
    result.Valid P := by
  obtain ⟨⟨validL, validR⟩, join⟩ := reconcile_ok.mp reconciled
  refine ⟨?_, ?_⟩
  · intro r held
    rcases List.mem_append.mp ((join.keptRecords r).mp held).1.1 with inLeft | inRight
    · exact validL.records r inLeft
    · exact validR.records r inRight
  · intro t held
    rcases List.mem_append.mp ((join.keptTombstones t).mp held).1 with inLeft | inRight
    · exact validL.tombstones t inLeft
    · exact validR.tombstones t inRight

theorem exists_reconcile (validL : left.Valid P) (validR : right.Valid P) :
    ∃ result, reconcileReplicaSets P left right = .ok result :=
  ⟨_, reconcile_ok.mpr ⟨⟨validL, validR⟩, isJoin_joinOf⟩⟩

theorem both_assoc : (a.both b).both c = a.both (b.both c) := by
  simp [ReplicaSet.both]

theorem both_nil : a.both ⟨[], []⟩ = a := by
  simp [ReplicaSet.both]

/-- Three sets, the first two first. -/
theorem reconcile_twice_ok :
    (reconcileReplicaSets P a b >>= fun ab => reconcileReplicaSets P ab c) = .ok result ↔
      (a.Valid P ∧ b.Valid P ∧ c.Valid P) ∧ Folds P ((a.both b).both c) result := by
  constructor
  · intro ran
    obtain ⟨ab, first, second⟩ := bind_ok.mp ran
    obtain ⟨⟨validA, validB⟩, joinAB⟩ := reconcile_ok.mp first
    obtain ⟨⟨_, validC⟩, joinABC⟩ := reconcile_ok.mp second
    exact ⟨⟨validA, validB, validC⟩, (folds_absorb joinAB).mp joinABC⟩
  · rintro ⟨⟨validA, validB, validC⟩, joinABC⟩
    obtain ⟨ab, first⟩ := exists_reconcile validA validB
    obtain ⟨_, joinAB⟩ := reconcile_ok.mp first
    exact bind_ok.mpr ⟨ab, first, reconcile_ok.mpr
      ⟨⟨valid_of_reconcile first, validC⟩, (folds_absorb joinAB).mpr joinABC⟩⟩

theorem reconcile_assoc :
    (reconcileReplicaSets P a b >>= fun ab => reconcileReplicaSets P ab c) = .ok result ↔
      (reconcileReplicaSets P b c >>= fun bc => reconcileReplicaSets P a bc) = .ok result := by
  have swapped : (reconcileReplicaSets P b c >>= fun bc => reconcileReplicaSets P a bc) =
      .ok result ↔
      (reconcileReplicaSets P b c >>= fun bc => reconcileReplicaSets P bc a) = .ok result := by
    rw [bind_ok, bind_ok]
    exact exists_congr fun bc => and_congr_right fun _ => reconcile_comm
  rw [swapped, reconcile_twice_ok, reconcile_twice_ok]
  apply and_congr
  · exact and_rotate
  · rw [both_assoc, folds_comm]
    exact folds_congr (fun _ => by simp [ReplicaSet.both, or_comm]) fun _ => by
      simp [ReplicaSet.both, or_comm]

/-! ## Whole runs -/

variable (P) in
/-- A replica takes in what it receives. -/
def receive : Option ReplicaSet → ReplicaSet → Except String ReplicaSet
  | none, incoming => .ok incoming
  | some current, incoming => reconcileReplicaSets P current incoming

/-- All records that went into a tree of reconciliations. -/
def pooledRecords (tree : MergeTree ReplicaSet) : List ReplicaRecord :=
  tree.leaves.flatMap ReplicaSet.records

def pooledTombstones (tree : MergeTree ReplicaSet) : List ReplicaTombstone :=
  tree.leaves.flatMap ReplicaSet.tombstones

/-- All entries that went into a tree of reconciliations. -/
abbrev pooled (tree : MergeTree ReplicaSet) : ReplicaSet :=
  ⟨pooledRecords tree, pooledTombstones tree⟩

variable {s : ReplicaSet} {tree : MergeTree ReplicaSet}

/-- What a tree evaluates to stands for everything that went into it. -/
theorem eval_absorbs (evaluated : tree.eval (receive P) = .ok s) (more result : ReplicaSet) :
    Folds P (s.both more) result ↔ Folds P ((pooled tree).both more) result := by
  induction tree generalizing s more result with
  | leaf state =>
    rw [← Except.ok.inj evaluated]
    simp [pooled, pooledRecords, pooledTombstones, MergeTree.leaves]
  | adopt tree ih =>
    obtain ⟨inner, evaluated, same⟩ := bind_ok.mp evaluated
    rw [← Except.ok.inj same]
    exact ih evaluated more result
  | merge current incoming ihLeft ihRight =>
    obtain ⟨left, evalLeft, evaluated⟩ := bind_ok.mp evaluated
    obtain ⟨right, evalRight, reconciled⟩ := bind_ok.mp evaluated
    obtain ⟨_, join⟩ := reconcile_ok.mp reconciled
    have pool : pooled (.merge current incoming) = (pooled current).both (pooled incoming) := by
      simp [pooled, ReplicaSet.both, pooledRecords, pooledTombstones, MergeTree.leaves]
    rw [folds_absorb join, both_assoc, ihLeft evalLeft]
    -- the entries on the right, with the left ones as the rest
    rw [folds_comm, ihRight evalRight, folds_comm, pool, both_assoc]

/-- A reconciliation in a tree needs valid leaves. -/
theorem leaves_valid (evaluated : tree.eval (receive P) = .ok s) (valid : s.Valid P) :
    ∀ leaf ∈ tree.leaves, leaf.Valid P := by
  induction tree generalizing s with
  | leaf state =>
    intro leaf held
    rw [List.mem_singleton.mp held, Except.ok.inj evaluated]
    exact valid
  | adopt tree ih =>
    obtain ⟨inner, evaluated, same⟩ := bind_ok.mp evaluated
    exact ih evaluated (Except.ok.inj same ▸ valid)
  | merge current incoming ihLeft ihRight =>
    obtain ⟨left, evalLeft, evaluated⟩ := bind_ok.mp evaluated
    obtain ⟨right, evalRight, reconciled⟩ := bind_ok.mp evaluated
    obtain ⟨⟨validL, validR⟩, _⟩ := reconcile_ok.mp reconciled
    intro leaf held
    rcases List.mem_append.mp held with inLeft | inRight
    · exact ihLeft evalLeft validL leaf inLeft
    · exact ihRight evalRight validR leaf inRight

/-- A result takes in nothing new from what is in it already. -/
theorem reconcile_known {other : ReplicaSet} (valid : s.Valid P) (otherValid : other.Valid P)
    (join : Folds P all s)
    (known : (∀ r ∈ other.records, r ∈ all.records) ∧ ∀ t ∈ other.tombstones, t ∈ all.tombstones) :
    reconcileReplicaSets P s other = .ok s ∧ reconcileReplicaSets P other s = .ok s := by
  have reconciled : reconcileReplicaSets P s other = .ok s := by
    refine reconcile_ok.mpr ⟨⟨valid, otherValid⟩, ?_⟩
    rw [folds_absorb join]
    refine (folds_congr ?_ ?_).mp join
    · intro r
      exact (List.mem_append.trans (or_iff_left_of_imp (known.1 r))).symm
    · intro t
      exact (List.mem_append.trans (or_iff_left_of_imp (known.2 t))).symm
  exact ⟨reconciled, reconcile_comm.mp reconciled⟩

/-- Whatever went into a result changes nothing when it comes again. -/
theorem reconcile_again {current incoming : MergeTree ReplicaSet}
    (evaluated : (MergeTree.merge current incoming).eval (receive P) = .ok s) :
    reconcileReplicaSets P s s = .ok s ∧ ∀ leaf ∈ (MergeTree.merge current incoming).leaves,
        reconcileReplicaSets P s leaf = .ok s ∧ reconcileReplicaSets P leaf s = .ok s := by
  have split := evaluated
  obtain ⟨left, evalLeft, split⟩ := bind_ok.mp split
  obtain ⟨right, evalRight, reconciled⟩ := bind_ok.mp split
  have valid := valid_of_reconcile reconciled
  obtain ⟨_, join⟩ := reconcile_ok.mp reconciled
  have pooled : Folds P (pooled (.merge current incoming)) s := by
    have all := eval_absorbs evaluated ⟨[], []⟩ s
    rw [folds_absorb join, both_nil, both_nil] at all
    exact all.mp join
  refine ⟨?_, ?_⟩
  · refine (reconcile_known valid valid pooled ⟨?_, ?_⟩).1
    · intro r held
      exact ((pooled.keptRecords r).mp held).1.1
    · intro t held
      exact ((pooled.keptTombstones t).mp held).1
  · intro leaf held
    refine reconcile_known valid (leaves_valid evaluated valid leaf held) pooled ⟨?_, ?_⟩
    · intro r inLeaf
      exact List.mem_flatMap.mpr ⟨leaf, held, inLeaf⟩
    · intro t inLeaf
      exact List.mem_flatMap.mpr ⟨leaf, held, inLeaf⟩

variable (P) in
/-- One replica set comes from another by a reconciliation with anything. -/
def Reconciles (s next : ReplicaSet) : Prop :=
  ∃ other, reconcileReplicaSets P s other = .ok next ∨ reconcileReplicaSets P other s = .ok next

variable (P) in
/-- A known tombstone of its id is not older than the record. -/
def Buried (s : ReplicaSet) (r : ReplicaRecord) : Prop :=
  ∃ t ∈ s.tombstones, t.id = r.id ∧ Entry.time P r ≤ Entry.time P t

/-- What is buried stays buried, and is not in the result. -/
theorem Buried.step {s next : ReplicaSet} (buried : Buried P s r)
    (reconciles : Reconciles P s next) : Buried P next r ∧ r ∉ next.records := by
  obtain ⟨other, reconciled⟩ := reconciles
  have reconciled : reconcileReplicaSets P s other = .ok next :=
    reconciled.elim (fun first => first) reconcile_comm.mp
  obtain ⟨_, join⟩ := reconcile_ok.mp reconciled
  obtain ⟨t, held, same, older⟩ := buried
  have pooled : t ∈ s.tombstones ++ other.tombstones := List.mem_append_left _ held
  obtain ⟨b, best, sameId, above⟩ : ∃ b, Best Entry.id (rank P)
      {t | t ∈ s.tombstones ++ other.tombstones} b ∧ Entry.id b = Entry.id t ∧
        rank P t ≤ rank P b := exists_best _ pooled
  refine ⟨⟨b, (join.keptTombstones b).mpr best, sameId.trans same,
    le_trans older (time_le_of_rank_le above)⟩, ?_⟩
  intro kept
  have outlives := ((join.keptRecords r).mp kept).1.2 t pooled same
  exact absurd older (not_le.mpr outlives)

theorem Buried.run {later : ReplicaSet} (buried : Buried P s r)
    (run : Relation.TransGen (Reconciles P) s later) : Buried P later r ∧ r ∉ later.records := by
  induction run with
  | single step => exact buried.step step
  | tail _ step ih => exact ih.1.step step

/-- Reconciliation is a join: it succeeds on valid entries, in any order and grouping
with one result; what went into a result adds nothing to it; and a record that is not
newer than a known tombstone is in no later result. -/
theorem reconcile_is_join (P : Primitives) :
    (∀ a b, (∃ r, reconcileReplicaSets P a b = .ok r) ↔ a.Valid P ∧ b.Valid P) ∧
    (∀ a b r, reconcileReplicaSets P a b = .ok r ↔ reconcileReplicaSets P b a = .ok r) ∧
    (∀ a b c r, (reconcileReplicaSets P a b >>= fun ab => reconcileReplicaSets P ab c) = .ok r ↔
      (reconcileReplicaSets P b c >>= fun bc => reconcileReplicaSets P a bc) = .ok r) ∧
    (∀ current incoming r, (MergeTree.merge current incoming).eval (receive P) = .ok r →
      reconcileReplicaSets P r r = .ok r ∧
        ∀ leaf ∈ (MergeTree.merge current incoming).leaves,
          reconcileReplicaSets P r leaf = .ok r ∧ reconcileReplicaSets P leaf r = .ok r) ∧
    ∀ (s : ReplicaSet) (t : ReplicaTombstone) (record : ReplicaRecord) (deleted updated : Int),
      t ∈ s.tombstones → t.id = record.id → timestampMs P t.deletedAt = .ok deleted →
      timestampMs P record.updatedAt = .ok updated → updated ≤ deleted →
      ∀ later, Relation.TransGen (Reconciles P) s later → record ∉ later.records := by
  refine ⟨?_, fun _ _ _ => reconcile_comm, fun _ _ _ _ => reconcile_assoc,
    fun _ _ _ => reconcile_again, ?_⟩
  · intro a b
    constructor
    · rintro ⟨r, reconciled⟩
      exact (reconcile_ok.mp reconciled).1
    · rintro ⟨validA, validB⟩
      exact exists_reconcile validA validB
  · intro s t record deleted updated held same readT readR older later run
    have timeT := timestampMs_eq (@dated_of_timestampMs P _ _ t _ readT)
    have timeR := timestampMs_eq (@dated_of_timestampMs P _ _ record _ readR)
    have buried : Buried P s record := by
      refine ⟨t, held, same, ?_⟩
      rwa [← ok_unique timeT readT, ← ok_unique timeR readR] at older
    exact (buried.run run).2

end Laws

namespace Sample

def note : ReplicaRecord := ⟨"note", "2026-01-01T00:00:00Z", ⟨.null, rfl⟩⟩
def noteGone : ReplicaTombstone := ⟨"note", "2026-01-01T00:00:00Z"⟩

/-- A stale replica that still has the note, and one that knows it was deleted. -/
def stale : ReplicaSet := ⟨[note], []⟩
def cleaned : ReplicaSet := ⟨[], [noteGone]⟩

end Sample

open Sample

/-- The stale replica brings nothing back. -/
theorem reconcile_is_join_sample :
    reconcileReplicaSets primitives stale cleaned = .ok cleaned ∧
      reconcileReplicaSets primitives cleaned stale = .ok cleaned ∧
      ∀ later, Relation.TransGen (Reconciles primitives) cleaned later →
        Sample.note ∉ later.records := by
  obtain ⟨_, _, _, again, gone⟩ := reconcile_is_join primitives
  have reconciled : reconcileReplicaSets primitives stale cleaned = .ok cleaned := by
    rfl
  refine ⟨reconciled, ?_, ?_⟩
  · exact ((again (.leaf stale) (.leaf cleaned) _ reconciled).2 stale
      (by simp [MergeTree.leaves])).1
  · exact gone cleaned noteGone Sample.note 0 0 (by simp [cleaned]) rfl rfl
      rfl le_rfl

end MetaMesh
