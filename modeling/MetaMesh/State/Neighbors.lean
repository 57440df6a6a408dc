import Mathlib.Data.Prod.Lex
import MetaMesh.Json
import MetaMesh.Lib.Latest
import MetaMesh.Lib.Ring

/-!
# Gossip neighbours

`select_scoped_neighbors` of `state.rs`.  Each device chooses on its own whom it gossips with:
its successor and its predecessor in the ring of all device ids, and then the healthiest of
the others.

The choice depends on the healths of the eligible devices and on nothing else
(`selectFrom_congr`).  Devices that see the same membership build the same ring, so the
successors form a cycle through all of them: `gossip_connected`.
-/

namespace MetaMesh

open Fallible

/-- The limits of gossip. -/
structure GossipBounds where
  low : Nat
  target : Nat
  high : Nat
  eagerFanout : Nat
  maximumOfferHashes : Nat
  maximumWants : Nat
  maximumChanges : Nat
  maximumFrameBytes : Nat
  seenCapacity : Nat
  baseBackoffMs : Nat
deriving DecidableEq, Repr

def GossipBounds.default : GossipBounds :=
  ⟨2, 4, 6, 3, 64, 64, 32, 262144, 2048, 1000⟩

/-- A device that may be a neighbor. -/
structure GossipCandidate where
  deviceId : String
  health : Int
  backedOffUntil : Int
deriving DecidableEq, Repr

def validateGossipBounds (bounds : GossipBounds) : Except String Unit :=
  refuse (bounds.target < bounds.low ∨ bounds.high < bounds.target ∨
    bounds.high < bounds.eagerFanout ∨ bounds.maximumOfferHashes = 0 ∨ bounds.maximumWants = 0 ∨
    bounds.maximumChanges = 0 ∨ bounds.maximumFrameBytes = 0 ∨ bounds.seenCapacity = 0 ∨
    bounds.baseBackoffMs = 0) "Invalid gossip bounds"

/-- `char::encode_utf16`. -/
def utf16Units (c : Char) : List UInt32 :=
  if c.val < 65536 then [c.val]
  else [55296 + (c.val - 65536) / 1024, 56320 + (c.val - 65536) % 1024]

/-- The FNV-1a hash of the text's UTF-16 units. -/
def stableScore (localDeviceId candidate : String) (rotation : UInt32) : UInt32 :=
  let value := localDeviceId.toList ++ [Char.ofNat 0] ++ candidate.toList ++ [Char.ofNat 0] ++
    Nat.toDigits 10 rotation.toNat
  (value.flatMap utf16Units).foldl (fun hash unit => (hash ^^^ unit) * 16777619) 2166136261

section Selection

variable (localDeviceId : String)

def isEligible (now : Int) (candidate : GossipCandidate) : Bool :=
  candidate.deviceId ≠ "" ∧ candidate.deviceId ≠ localDeviceId ∧ candidate.backedOffUntil ≤ now

/-- The healthiest entry of each device, the first of them. -/
def candidatesByDevice (candidates : List GossipCandidate) (now : Int) :
    Table String GossipCandidate :=
  candidates.foldl (fun byDevice candidate =>
    if isEligible localDeviceId now candidate then
      Latest.offer GossipCandidate.deviceId GossipCandidate.health byDevice candidate
    else byDevice) ∅

def gossipRing (eligible : List GossipCandidate) : List String :=
  sortBy strKey (eligible.map GossipCandidate.deviceId ++ [localDeviceId])

/-- The neighbours in the ring, which the local device is always in. -/
def mandatoryNeighbors (ring : List String) (target : Nat) : List String :=
  let successor := if 1 < ring.length ∧ 0 < target then (Ring.successor ring localDeviceId).toList
    else []
  let predecessor :=
    if 2 < ring.length ∧ 1 < target then
      (Ring.predecessor ring localDeviceId).toList.filter (· ∉ successor)
    else []
  successor ++ predecessor

/-- The order of the others: healthiest first, then by score, then by id. -/
def neighborOrder (rotation : UInt32) (device : String × Int) : Int ×ₗ Nat ×ₗ List Nat :=
  toLex (-device.2, toLex ((stableScore localDeviceId device.1 rotation).toNat, strKey device.1))

def GossipCandidate.device (candidate : GossipCandidate) : String × Int :=
  (candidate.deviceId, candidate.health)

def selectFrom (eligible : List GossipCandidate) (bounds : GossipBounds) (rotation : UInt32) :
    List String :=
  let mandatory := mandatoryNeighbors localDeviceId (gossipRing localDeviceId eligible)
    bounds.target
  let others := eligible.filter fun candidate => candidate.deviceId ∉ mandatory
  let sorted := sortBy (fun candidate => neighborOrder localDeviceId rotation candidate.device)
    others
  (mandatory ++ sorted.map GossipCandidate.deviceId).take (min bounds.target bounds.high)

/-- The ring neighbours first, then others by rotation. -/
def selectScopedNeighbors (candidates : List GossipCandidate) (bounds : GossipBounds) (now : Int)
    (rotation : UInt32) : Except String (List String) := do
  validateGossipBounds bounds
  let eligible := (candidatesByDevice localDeviceId candidates now).values
  .ok (selectFrom localDeviceId eligible bounds rotation)

end Selection

/-! ## The eligible devices -/

open GossipCandidate (deviceId health device)

section Eligible

variable {localDeviceId : String} {candidates : List GossipCandidate} {now : Int}
  {other : List GossipCandidate}

theorem held_candidatesByDevice :
    Latest.Held deviceId health (candidates.filter (isEligible localDeviceId now))
      (candidatesByDevice localDeviceId candidates now) := by
  have isFold : candidatesByDevice localDeviceId candidates now =
      (candidates.filter (isEligible localDeviceId now)).foldl (Latest.offer deviceId health) ∅ :=
    List.foldl_filter.symm
  rw [isFold]
  exact Latest.held_foldl _

theorem keyed_candidatesByDevice :
    Table.KeyedBy deviceId (candidatesByDevice localDeviceId candidates now) :=
  fun k candidate found => (held_candidatesByDevice.best k candidate found).1

/-- A device is eligible if one of its candidates is. -/
theorem mem_eligible_ids {id : String} :
    id ∈ (candidatesByDevice localDeviceId candidates now).values.map deviceId ↔
      ∃ candidate ∈ candidates, candidate.deviceId = id ∧
        isEligible localDeviceId now candidate = true := by
  rw [List.mem_map]
  constructor
  · rintro ⟨candidate, held, rfl⟩
    obtain ⟨k, found⟩ := Table.mem_values.mp held
    obtain ⟨inside, eligible⟩ := List.mem_filter.mp (held_candidatesByDevice.best k _ found).2.1
    exact ⟨candidate, inside, rfl, eligible⟩
  · rintro ⟨candidate, inside, rfl, eligible⟩
    obtain ⟨best, found⟩ := held_candidatesByDevice.found candidate
      (List.mem_filter.mpr ⟨inside, eligible⟩)
    exact ⟨best, Table.mem_values.mpr ⟨_, found⟩, keyed_candidatesByDevice _ _ found⟩

/-- The candidates of one device that are best are equally healthy. -/
theorem health_lookup (same : ∀ candidate, candidate ∈ other ↔ candidate ∈ candidates)
    (id : String) :
    ((candidatesByDevice localDeviceId other now).lookup id).map health =
      ((candidatesByDevice localDeviceId candidates now).lookup id).map health := by
  have eligible : ∀ candidate, candidate ∈ other.filter (isEligible localDeviceId now) ↔
      candidate ∈ candidates.filter (isEligible localDeviceId now) := by
    simp [List.mem_filter, same]
  cases left : (candidatesByDevice localDeviceId other now).lookup id with
  | none =>
    cases right : (candidatesByDevice localDeviceId candidates now).lookup id with
    | none => rfl
    | some candidate =>
      obtain ⟨rfl, best⟩ := held_candidatesByDevice.best id candidate right
      obtain ⟨_, found⟩ := held_candidatesByDevice.found candidate ((eligible _).mpr best.1)
      cases left.symm.trans found
  | some candidate =>
    obtain ⟨rfl, best⟩ := held_candidatesByDevice.best id candidate left
    obtain ⟨top, right⟩ := held_candidatesByDevice.found candidate ((eligible _).mp best.1)
    obtain ⟨sameId, isTop⟩ := held_candidatesByDevice.best _ top right
    rw [right, Option.map_some, Option.map_some,
      le_antisymm (isTop.2 candidate ((eligible _).mp best.1) sameId.symm)
        (best.2 top ((eligible _).mpr isTop.1) sameId)]

/-- The eligible devices and their healths are those of the set of candidates. -/
theorem devices_perm (same : ∀ candidate, candidate ∈ other ↔ candidate ∈ candidates) :
    ((candidatesByDevice localDeviceId other now).values.map device).Perm
      ((candidatesByDevice localDeviceId candidates now).values.map device) := by
  have devices : ∀ candidates : List GossipCandidate,
      (candidatesByDevice localDeviceId candidates now).values.map device =
        ((candidatesByDevice localDeviceId candidates now).mapValues
          health).entries.map fun entry => (entry.1, entry.2) := by
    intro candidates
    rw [Table.values, Table.mapValues, List.map_map, List.map_map]
    refine List.map_congr_left fun entry held => ?_
    have id := keyed_candidatesByDevice entry.1 entry.2 (AList.mem_lookup_iff.mpr held)
    exact Prod.ext id rfl
  rw [devices, devices]
  refine (Table.entries_perm fun id => ?_).map _
  rw [Table.lookup_mapValues, Table.lookup_mapValues, health_lookup same]

theorem nodup_eligible_ids :
    ((candidatesByDevice localDeviceId candidates now).values.map deviceId).Nodup := by
  have keys : (candidatesByDevice localDeviceId candidates now).values.map
      deviceId = (candidatesByDevice localDeviceId candidates now).keys := by
    rw [Table.values, List.map_map]
    refine List.map_congr_left fun entry held => ?_
    exact keyed_candidatesByDevice entry.1 entry.2 (AList.mem_lookup_iff.mpr held)
  rw [keys]
  exact AList.keys_nodup _

end Eligible

/-! ## The choice among them -/

section Choice

variable {localDeviceId : String} {rotation : UInt32} {bounds : GossipBounds}

theorem neighborOrder_injective : Function.Injective (neighborOrder localDeviceId rotation) := by
  intro first second same
  have parts := Prod.mk.inj (toLex.injective same)
  have id := strKey_injective (Prod.mk.inj (toLex.injective parts.2)).2
  exact Prod.ext id (Int.neg_inj.mp parts.1)

/-- The choice depends on the eligible devices and their healths, in whatever order. -/
theorem selectFrom_congr {left right : List GossipCandidate}
    (same : (left.map device).Perm (right.map device)) :
    selectFrom localDeviceId left bounds rotation =
      selectFrom localDeviceId right bounds rotation := by
  have ids : (left.map deviceId).Perm (right.map deviceId) := by
    simpa [List.map_map, Function.comp_def, device] using same.map Prod.fst
  have ring : gossipRing localDeviceId left = gossipRing localDeviceId right :=
    sortBy_eq_of_perm strKey (ids.append_right _) fun _ _ _ _ => @strKey_injective _ _
  -- the others, as pairs of an id and a health
  have others : ∀ (mandatory : List String) (eligible : List GossipCandidate),
      (sortBy (fun candidate => neighborOrder localDeviceId rotation candidate.device)
        (eligible.filter fun candidate => candidate.deviceId ∉ mandatory)).map deviceId =
        (sortBy (neighborOrder localDeviceId rotation)
          ((eligible.map device).filter fun device => device.1 ∉ mandatory)).map Prod.fst := by
    intro mandatory eligible
    rw [List.filter_map, sortBy_map, List.map_map]
    rfl
  unfold selectFrom
  simp only [ring, others]
  rw [sortBy_eq_of_perm _ (same.filter _) fun _ _ _ _ => @neighborOrder_injective _ _ _ _]

section Ring

variable {eligible : List GossipCandidate}

theorem gossipRing_perm :
    (gossipRing localDeviceId eligible).Perm (localDeviceId :: eligible.map deviceId) :=
  (sortBy_perm strKey _).trans (List.perm_append_singleton _ _)

theorem mem_gossipRing {id : String} : id ∈ gossipRing localDeviceId eligible ↔
    id = localDeviceId ∨ id ∈ eligible.map deviceId := by
  rw [gossipRing_perm.mem_iff, List.mem_cons]

variable (distinct : (eligible.map GossipCandidate.deviceId).Nodup)
  (foreign : localDeviceId ∉ eligible.map GossipCandidate.deviceId)
include distinct foreign

theorem nodup_gossipRing : (gossipRing localDeviceId eligible).Nodup :=
  gossipRing_perm.nodup_iff.mpr (List.nodup_cons.mpr ⟨foreign, distinct⟩)

/-- The mandatory neighbours are other devices, and none twice. -/
theorem mandatoryNeighbors_sound (target : Nat) :
    (mandatoryNeighbors localDeviceId (gossipRing localDeviceId eligible) target).Nodup ∧
      localDeviceId ∉
        mandatoryNeighbors localDeviceId (gossipRing localDeviceId eligible) target := by
  have ringDistinct := nodup_gossipRing distinct foreign
  have inside : localDeviceId ∈ gossipRing localDeviceId eligible := mem_gossipRing.mpr (.inl rfl)
  have apart : ∀ {o : Option String}, o.toList.Nodup := fun {o} => by cases o <;> simp
  unfold mandatoryNeighbors
  constructor
  · rw [List.nodup_append]
    refine ⟨?_, ?_, ?_⟩
    · split
      · exact apart
      · exact List.nodup_nil
    · split
      · exact apart.filter _
      · exact List.nodup_nil
    · intro first isSuccessor second isPredecessor same
      split at isPredecessor
      · have other := (List.mem_filter.mp isPredecessor).2
        rw [← same] at other
        simp [isSuccessor] at other
      · cases isPredecessor
  · rw [List.mem_append]
    rintro (next | previous)
    · split at next
      · next two =>
        exact Ring.successor_ne ringDistinct two.1 inside (by simpa using next) rfl
      · cases next
    · split at previous
      · next three =>
        have held := (List.mem_filter.mp previous).1
        exact Ring.predecessor_ne ringDistinct (by omega) inside (by simpa using held) rfl
      · cases previous

/-- The chosen neighbours are other devices, none twice, and as many as the target at most. -/
theorem selectFrom_sound :
    (selectFrom localDeviceId eligible bounds rotation).Nodup ∧
      localDeviceId ∉ selectFrom localDeviceId eligible bounds rotation ∧
      (selectFrom localDeviceId eligible bounds rotation).length ≤ bounds.target := by
  obtain ⟨apart, others⟩ := mandatoryNeighbors_sound distinct foreign bounds.target
  have rest : ∀ mandatory : List String, ((sortBy
      (fun candidate => neighborOrder localDeviceId rotation candidate.device)
      (eligible.filter fun candidate => candidate.deviceId ∉ mandatory)).map deviceId).Perm
      ((eligible.filter fun candidate => candidate.deviceId ∉ mandatory).map
        deviceId) := fun mandatory => (sortBy_perm _ _).map _
  refine ⟨List.Nodup.sublist (List.take_sublist _ _) ?_, ?_, ?_⟩
  · rw [List.nodup_append]
    refine ⟨apart, ?_, ?_⟩
    · rw [(rest _).nodup_iff]
      exact distinct.sublist (List.filter_sublist.map _)
    · intro first isMandatory second isOther same
      rw [(rest _).mem_iff, List.mem_map] at isOther
      obtain ⟨candidate, held, rfl⟩ := isOther
      have excluded := (List.mem_filter.mp held).2
      rw [← same] at excluded
      simp [isMandatory] at excluded
  · intro chosen
    rcases List.mem_append.mp (List.mem_of_mem_take chosen) with isMandatory | isOther
    · exact others isMandatory
    · rw [(rest _).mem_iff, List.mem_map] at isOther
      obtain ⟨candidate, held, isLocal⟩ := isOther
      exact foreign (List.mem_map.mpr ⟨candidate, (List.mem_filter.mp held).1, isLocal⟩)
  · exact (List.length_take_le _ _).trans (Nat.min_le_left _ _)

omit distinct foreign in
/-- The successor is always chosen. -/
theorem successor_mem_selectFrom {next : String} (target : 1 ≤ bounds.target)
    (high : bounds.target ≤ bounds.high) (two : 2 ≤ (gossipRing localDeviceId eligible).length)
    (isNext : Ring.successor (gossipRing localDeviceId eligible) localDeviceId = some next) :
    next ∈ selectFrom localDeviceId eligible bounds rotation := by
  unfold selectFrom mandatoryNeighbors
  rw [if_pos ⟨two, target⟩, isNext, Nat.min_eq_left high]
  obtain ⟨count, isTarget⟩ := Nat.exists_eq_add_of_le' target
  rw [isTarget]
  exact List.mem_cons_self

end Ring

end Choice

/-! ## All devices -/

/-- What a device is given to choose from. -/
structure GossipView where
  candidates : List GossipCandidate
  bounds : GossipBounds
  now : Int
  rotation : UInt32

def GossipView.neighbors (view : GossipView) (localDeviceId : String) :
    Except String (List String) :=
  selectScopedNeighbors localDeviceId view.candidates view.bounds view.now view.rotation

/-- A device sees the whole membership, nobody backed off, and its bounds are good. -/
structure GossipView.Full (view : GossipView) (ids : List String) (localDeviceId : String) :
    Prop where
  members : ∀ id, id ≠ localDeviceId →
    (id ∈ view.candidates.map GossipCandidate.deviceId ↔ id ∈ ids)
  live : ∀ candidate ∈ view.candidates, candidate.backedOffUntil ≤ view.now
  bounds : validateGossipBounds view.bounds = .ok ()
  target : 1 ≤ view.bounds.target

/-- `first` chooses `second`. -/
def Selects (views : String → GossipView) (first second : String) : Prop :=
  ∃ neighbors, (views first).neighbors first = .ok neighbors ∧ second ∈ neighbors

section Devices

variable {ids : List String} {localDeviceId : String} {view : GossipView}
  {candidates : List GossipCandidate}

/-- The local device is none of its candidates. -/
theorem local_not_eligible {now : Int} :
    localDeviceId ∉ (candidatesByDevice localDeviceId candidates now).values.map deviceId := by
  intro held
  obtain ⟨candidate, _, rfl, eligible⟩ := mem_eligible_ids.mp held
  simp [isEligible] at eligible

/-- A device that sees the whole membership builds the ring of all ids. -/
theorem GossipView.Full.ring (full : view.Full ids localDeviceId) (distinct : ids.Nodup)
    (named : "" ∉ ids) (member : localDeviceId ∈ ids) :
    gossipRing localDeviceId
      (candidatesByDevice localDeviceId view.candidates view.now).values = sortBy strKey ids := by
  refine sortBy_eq_of_perm strKey ?_ fun _ _ _ _ => @strKey_injective _ _
  refine (List.perm_append_singleton _ _).trans ?_
  rw [List.perm_ext_iff_of_nodup (List.nodup_cons.mpr ⟨local_not_eligible, nodup_eligible_ids⟩)
    distinct]
  intro id
  rw [List.mem_cons, mem_eligible_ids]
  constructor
  · rintro (rfl | ⟨candidate, held, rfl, eligible⟩)
    · exact member
    · simp only [isEligible, decide_eq_true_eq] at eligible
      exact (full.members _ eligible.2.1).mp (List.mem_map.mpr ⟨candidate, held, rfl⟩)
  · intro isMember
    by_cases isLocal : id = localDeviceId
    · exact .inl isLocal
    · obtain ⟨candidate, held, rfl⟩ := List.mem_map.mp ((full.members id isLocal).mpr isMember)
      refine .inr ⟨candidate, held, rfl, ?_⟩
      simp only [isEligible, decide_eq_true_eq]
      exact ⟨fun empty => named (empty ▸ isMember), isLocal, full.live candidate held⟩

theorem selectScopedNeighbors_ok {bounds : GossipBounds} {now : Int} {rotation : UInt32}
    {neighbors : List String} :
    selectScopedNeighbors localDeviceId candidates bounds now rotation = .ok neighbors ↔
      validateGossipBounds bounds = .ok () ∧
        selectFrom localDeviceId (candidatesByDevice localDeviceId candidates now).values bounds
          rotation = neighbors := by
  constructor
  · intro chosen
    obtain ⟨_, valid, chosen⟩ := bind_ok.mp chosen
    exact ⟨valid, Except.ok.inj chosen⟩
  · rintro ⟨valid, rfl⟩
    exact bind_ok.mpr ⟨(), valid, rfl⟩

/-- A device that sees the whole membership chooses its successor in the ring of all ids. -/
theorem GossipView.Full.selects {views : String → GossipView}
    (full : (views localDeviceId).Full ids localDeviceId) (distinct : ids.Nodup)
    (two : 2 ≤ ids.length) (named : "" ∉ ids) (member : localDeviceId ∈ ids) {next : String}
    (isNext : Ring.successor (sortBy strKey ids) localDeviceId = some next) :
    Selects views localDeviceId next := by
  have ring := full.ring distinct named member
  have high : (views localDeviceId).bounds.target ≤ (views localDeviceId).bounds.high := by
    have valid := refuse_ok.mp full.bounds
    omega
  refine ⟨_, selectScopedNeighbors_ok.mpr ⟨full.bounds, rfl⟩,
    successor_mem_selectFrom full.target high ?_ (ring ▸ isNext)⟩
  rw [ring, (sortBy_perm strKey ids).length_eq]
  exact two

/-- The successors of all devices form one cycle, which each device's choice follows.  Every
choice is of other devices, none twice and no more than the target, and it depends on the set
of candidates alone. -/
theorem gossip_connected {ids : List String} (distinct : ids.Nodup) (two : 2 ≤ ids.length)
    (named : "" ∉ ids) (views : String → GossipView) (full : ∀ id ∈ ids, (views id).Full ids id) :
    (∃ ring : List String, ring.Perm ids ∧ ∀ id ∈ ring, ∃ next,
      Ring.successor ring id = some next ∧ Selects views id next) ∧
    (∀ first ∈ ids, ∀ second ∈ ids, Relation.ReflTransGen (Selects views) first second) ∧
    ∀ localDeviceId candidates bounds now rotation neighbors,
      selectScopedNeighbors localDeviceId candidates bounds now rotation = .ok neighbors →
        neighbors.Nodup ∧ localDeviceId ∉ neighbors ∧ neighbors.length ≤ bounds.target ∧
        ∀ other : List GossipCandidate, (∀ candidate, candidate ∈ other ↔ candidate ∈ candidates) →
          selectScopedNeighbors localDeviceId other bounds now rotation = .ok neighbors := by
  have ring := sortBy_perm strKey ids
  have selects : ∀ id next, Ring.successor (sortBy strKey ids) id = some next →
      id ∈ sortBy strKey ids → Selects views id next := by
    intro id next isNext inside
    have member := ring.mem_iff.mp inside
    exact (full id member).selects distinct two named member isNext
  refine ⟨⟨sortBy strKey ids, ring, ?_⟩, ?_, ?_⟩
  · intro id inside
    obtain ⟨next, isNext⟩ := Ring.exists_successor inside
    exact ⟨next, isNext, selects id next isNext inside⟩
  · intro first isFirst second isSecond
    exact Ring.reaches (ring.nodup_iff.mpr distinct) selects (ring.mem_iff.mpr isFirst)
      (ring.mem_iff.mpr isSecond)
  · intro localDeviceId candidates bounds now rotation neighbors chosen
    obtain ⟨valid, rfl⟩ := selectScopedNeighbors_ok.mp chosen
    obtain ⟨apart, others, few⟩ := selectFrom_sound nodup_eligible_ids local_not_eligible
    refine ⟨apart, others, few, ?_⟩
    intro other same
    exact selectScopedNeighbors_ok.mpr ⟨valid, selectFrom_congr (devices_perm same)⟩

end Devices

namespace Sample

/-- Everybody sees the same devices, with one bound that accepts a single neighbour. -/
def gossipView (ids : List String) : GossipView :=
  ⟨ids.map fun id => ⟨id, 0, 0⟩, { GossipBounds.default with low := 0, target := 1 }, 0, 0⟩

theorem gossipView_full (ids : List String) (localDeviceId : String) :
    (gossipView ids).Full ids localDeviceId := by
  refine ⟨?_, ?_, rfl, Nat.le_refl 1⟩
  · simp [gossipView]
  · intro candidate held
    obtain ⟨id, _, rfl⟩ := List.mem_map.mp held
    exact Int.le_refl 0

end Sample

open Sample

theorem gossip_connected_sample :
    Relation.ReflTransGen (Selects fun _ => gossipView ["c", "a", "b"]) "c" "a" ∧
      Relation.ReflTransGen (Selects fun _ => gossipView ["c", "a", "b"]) "a" "b" ∧
      Relation.ReflTransGen (Selects fun _ => gossipView ["c", "a", "b"]) "b" "c" := by
  have connected := (gossip_connected (by decide) (by decide) (by decide) _
    fun id _ => gossipView_full ["c", "a", "b"] id).2.1
  exact ⟨connected "c" (by decide) "a" (by decide), connected "a" (by decide) "b" (by decide),
    connected "b" (by decide) "c" (by decide)⟩

/-- A device with the empty id is chosen by nobody. -/
theorem unnamed_device_unreached :
    (∀ id ∈ ["", "a"], (gossipView ["", "a"]).Full ["", "a"] id) ∧
      ¬ Relation.ReflTransGen (Selects fun _ => gossipView ["", "a"]) "a" "" := by
  have alone : (gossipView ["", "a"]).neighbors "a" = .ok [] := by decide
  refine ⟨fun id _ => gossipView_full _ id, ?_⟩
  intro reached
  rcases Relation.ReflTransGen.cases_head reached with same | ⟨next, ⟨neighbors, chosen, held⟩, _⟩
  · exact absurd same (by decide)
  · obtain rfl := ok_unique alone chosen
    cases held

end MetaMesh
