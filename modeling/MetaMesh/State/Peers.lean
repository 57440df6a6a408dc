import Mathlib.Order.WithBot
import MetaMesh.Grant
import MetaMesh.State.ReplicaSets
import Mathlib.Data.Int.ConditionallyCompleteOrder
import Mathlib.Order.ConditionallyCompleteLattice.Basic

/-!
# Peer records

`merge_peer_records` of `state.rs`.  A peer record says how a device of a workspace is
reached.  Two records of one device are merged field by field: the dominant record, the
later one or the one with the greater canonical text, gives most fields, while routes,
the revocation and the granted role have rules of their own.

Some of these rules look at the second record only, so the merge depends on the order of
its arguments; `merge_peers_comm` says exactly when it does not, apart from the routes, and
what leaves the routes alone.
-/

namespace MetaMesh

open Fallible Latest

def maxEndpointLength : Nat := 2048
def maxSecretLength : Nat := 4096
def maxAuthBundleLength : Nat := 131072

instance : DecidableEq JsonValue := fun a b =>
  decidable_of_iff (a.1.toVec = b.1.toVec)
    ⟨fun same => Subtype.ext (toVec_injective a.2 b.2 same), fun same => by rw [same]⟩

instance : Repr JsonValue := ⟨fun v => reprPrec v.1⟩
instance : Serialize JsonValue := ⟨Subtype.val⟩

/-- One running instance of a device. -/
structure PeerTransportInstance where
  instanceId : String
  endpoint : String
  lastSeen : String
  advertisement : Option JsonValue
deriving DecidableEq, Repr

/-- A `WorkspacePeerRecord` as the store holds it, with all its fields. -/
structure PeerRecord where
  workspaceId : String
  deviceId : String
  instanceId : Option String
  personId : String
  endpoint : String
  transportSecret : JsonValue
  role : WorkspaceRole
  lastSeen : String
  /-- Absent, an explicit restore, or the time of a revocation. -/
  revokedAt : Option (Option String)
  advertisement : Option JsonValue
  instances : Option (List PeerTransportInstance)
deriving DecidableEq, Repr

-- the fields by name, as `serde_json::to_value` files them
instance : Serialize PeerTransportInstance where
  toValue i := .object (optionalField "advertisement" i.advertisement ++
    [("endpoint", toValue i.endpoint), ("instanceId", toValue i.instanceId),
      ("lastSeen", toValue i.lastSeen)])

instance : Serialize PeerRecord where
  toValue r := .object (optionalField "advertisement" r.advertisement ++
    ([("deviceId", toValue r.deviceId), ("endpoint", toValue r.endpoint)] ++
    (optionalField "instanceId" r.instanceId ++ (optionalField "instances" r.instances ++
    ([("lastSeen", toValue r.lastSeen), ("personId", toValue r.personId)] ++
    (optionalField "revokedAt" r.revokedAt ++
    [("role", toValue r.role), ("transportSecret", toValue r.transportSecret),
      ("workspaceId", toValue r.workspaceId)]))))))

/-! ## Fields of a value -/

namespace JsonValue

/-- `Value::get`. -/
def get? (key : String) (v : JsonValue) : Option JsonValue :=
  match found : v.1.get? key with
  | none => none
  | some w => some ⟨w, by
      rcases v with ⟨v, good⟩
      cases v with
      | object fields =>
        obtain ⟨_, _, split⟩ := List.lookup_eq_some_iff.mp found
        exact (wellFormed_object_iff.mp good).2 (key, w) (by simp [split.1])
      | _ => cases found⟩

end JsonValue

/-- `object.insert` on a value that is an object. -/
def JsonValue.insert (key : String) (v : JsonValue) : JsonValue → JsonValue
  | ⟨.object fields, good⟩ => ⟨.object (insertField key v.1 fields), by
      rw [wellFormed_object_iff] at good ⊢
      refine ⟨ascendingKeys_insertField good.1, ?_⟩
      intro field held
      rcases mem_insertField held with rfl | kept
      · exact v.2
      · exact good.2 field kept⟩
  | other => other

def copyGrant (target source : JsonValue) : JsonValue :=
  ["grant", "ownerPublicKey", "ownerCertificates"].foldl (fun target key =>
    match source.get? key with
    | some value => JsonValue.insert key value target
    | none => target) target

/-! ## The merge -/

def Value.asI64? : Value → Option Int
  | .number (.posInt n) => if n < 2 ^ 63 then some n else none
  | .number (.negInt n) => some (-n)
  | _ => none

/-- A nonempty string or byte array. -/
def isSecret : Value → Bool
  | .string s => s ≠ "" ∧ s.utf8ByteSize ≤ maxSecretLength
  | .array values => values.length ≠ 0 ∧ values.length ≤ maxSecretLength ∧
      (values.all fun value => value.asU64?.any fun byte => byte ≤ 255) = true
  | _ => false

def validateSecret (value : JsonValue) : Except String Unit :=
  refuse (isSecret value.1 = false)
    "Invalid peer record: transportSecret must be a non-empty string or byte array"

section Merge

variable (P : Primitives) (i : PeerTransportInstance)

def validateInstance : Except String Unit := do
  requiredBounded i.instanceId maxStateString "instanceId"
  requiredBounded i.endpoint maxEndpointLength "endpoint"
  let _ ← timestampMs P i.lastSeen

def validatePeerRecord (peer : PeerRecord) : Except String Unit := do
  requiredBounded peer.workspaceId maxStateString "workspaceId"
  requiredBounded peer.deviceId maxStateString "deviceId"
  requiredBounded peer.personId maxStateString "personId"
  requiredBounded peer.endpoint maxEndpointLength "endpoint"
  peer.instanceId.toList.forM fun instanceId =>
    requiredBounded instanceId maxStateString "instanceId"
  validateSecret peer.transportSecret
  let _ ← timestampMs P peer.lastSeen
  (peer.revokedAt.bind id).toList.forM fun revokedAt => do
    let _ ← timestampMs P revokedAt
  peer.advertisement.toList.forM fun advertisement =>
    refuse (maxAuthBundleLength < advertisement.1.toVec.length)
      "Invalid peer record: advertisement is too large"
  refuse (32 < (peer.instances.getD []).length) "Invalid peer record transport instances"
  (peer.instances.getD []).forM (validateInstance P)

/-- The epoch of a bundle's grant, if it is for this workspace and person. -/
def grantEpoch (workspaceId personId : String) (bundle : JsonValue) : Option Nat := do
  let payload ← (← bundle.1.get? "grant").get? "payload"
  let workspace ← (← payload.get? "workspaceId").asStr?
  let person ← (← payload.get? "personId").asStr?
  guard (workspace = workspaceId ∧ person = personId)
  some (((payload.get? "accessEpoch").bind Value.asU64?).getD 1)

/-- The record with the newer grant of one owner. -/
def newerGrantRecord (left right : PeerRecord) : Option PeerRecord := do
  guard (left.personId = right.personId)
  let a ← left.advertisement
  let b ← right.advertisement
  let ownerA ← (← a.1.get? "ownerPublicKey").asStr?
  let ownerB ← (← b.1.get? "ownerPublicKey").asStr?
  guard (ownerA = ownerB)
  let epochA ← grantEpoch left.workspaceId left.personId a
  let epochB ← grantEpoch left.workspaceId left.personId b
  if epochB < epochA then some left
  else if epochA < epochB then some right
  else none

/-- The first integer among the places a sequence may stand. -/
def routeSequence : Option Int := do
  let advertisement ← i.advertisement
  [advertisement.1.get? "sequence",
    advertisement.1.pointer? ["payload", "sequence"],
    advertisement.1.pointer? ["payload", "routeSequence"],
    advertisement.1.pointer? ["advertisement", "payload", "sequence"],
    advertisement.1.pointer? ["advertisement", "payload", "routeSequence"]].findSome?
      fun value => value.bind Value.asI64?

def tieValue : Value :=
  .object [("advertisement", toValue i.advertisement), ("endpoint", toValue i.endpoint),
    ("instanceId", toValue i.instanceId)]

def instanceTie : Except String (List UInt8) :=
  canonicalizeJson P (tieValue i)

/-- By sequence, then by canonical text. -/
def preferInstance (current candidate : PeerTransportInstance) : Except String Bool :=
  let byTie := do
    let candidate ← instanceTie P candidate
    let current ← instanceTie P current
    .ok (textKey current < textKey candidate)
  match routeSequence current, routeSequence candidate with
  | none, some _ => .ok true
  | some _, none => .ok false
  | some left, some right => if left ≠ right then .ok (left < right) else byTie
  | none, none => byTie

/-- The instances of a record, with the one it stands for itself. -/
def instanceCandidates (peer : PeerRecord) : List PeerTransportInstance :=
  peer.instances.getD [] ++ peer.instanceId.toList.map fun instanceId =>
    ⟨instanceId, peer.endpoint, peer.lastSeen, peer.advertisement⟩

/-- Routes to the same endpoint under other ids go, unless they carry a sequence. -/
def retainRoutes (instances : Table String PeerTransportInstance)
    (selected : PeerTransportInstance) : Table String PeerTransportInstance :=
  instances.retain fun id value => id = selected.instanceId || value.endpoint ≠ selected.endpoint ||
    (routeSequence value).isSome

def collectInstance (replaceEndpointAlias incomingDominates : Bool)
    (instances : Table String PeerTransportInstance) (candidate : PeerTransportInstance) :
    Except String (Table String PeerTransportInstance) := do
  let preferred ← match instances.lookup candidate.instanceId with
    | some current => preferInstance P current candidate
    | none => .ok true
  if preferred = false then .ok instances
  else
    let kept := if replaceEndpointAlias ∧ ((routeSequence candidate).isSome ∨ incomingDominates)
      then retainRoutes instances candidate else instances
    .ok (kept.insert candidate.instanceId candidate)

def collectInstances (instances : Table String PeerTransportInstance) (peer : PeerRecord)
    (replaceEndpointAlias incomingDominates : Bool) :
    Except String (Table String PeerTransportInstance) :=
  (instanceCandidates peer).foldlM (collectInstance P replaceEndpointAlias incomingDominates)
    instances

def canonicalRecord (record : PeerRecord) : Except String (List UInt8) :=
  canonicalizeJson P (toValue record)

variable (existing incoming : PeerRecord)

/-- An explicit restore counts when the incoming record dominates; otherwise the earlier
revocation stays. -/
def mergeRevocation (incomingDominates : Bool) : Except String (Option (Option String)) :=
  if incoming.revokedAt = some none ∧ incomingDominates then .ok (some none)
  else
    match existing.revokedAt, incoming.revokedAt with
    | some (some left), some (some right) => do
        let rightTime ← timestampMs P right
        let leftTime ← timestampMs P left
        .ok (some (some (if rightTime ≤ leftTime then right else left)))
    | some (some value), _ => .ok (some (some value))
    | _, some (some value) => .ok (some (some value))
    | _, _ => .ok none

/-- Of two roles of one time, an owner's, then a visitor's, then an editor's. -/
def tiedRole (existing incoming : WorkspaceRole) : WorkspaceRole :=
  if existing = .owner ∨ incoming = .owner then .owner
  else if existing = .visitor ∨ incoming = .visitor then .visitor
  else .editor

/-- The role, the bundle and the routes, under the newer grant if there is one. -/
def authorize (newer : Option PeerRecord) (role : WorkspaceRole)
    (advertisement : Option JsonValue) (instances : Table String PeerTransportInstance) :
    WorkspaceRole × Option JsonValue × Table String PeerTransportInstance :=
  match newer with
  | none => (role, advertisement, instances)
  | some authorized =>
    match advertisement, authorized.advertisement with
    | some target, some source =>
      (authorized.role, some (copyGrant target source), instances.mapValues fun i =>
        { i with advertisement := i.advertisement.map fun bundle => copyGrant bundle source })
    | _, _ => (authorized.role, advertisement, instances)

/-- The fields of the merged record, once times, dominance and routes are known. -/
def mergedRecord (existingTime incomingTime : Int) (incomingDominates : Bool)
    (revokedAt : Option (Option String)) (routes : Table String PeerTransportInstance) :
    PeerRecord :=
  let dominant := if incomingDominates then incoming else existing
  let role := if existingTime < incomingTime then incoming.role
    else if incomingTime < existingTime then existing.role
    else tiedRole existing.role incoming.role
  let (role, advertisement, routes) :=
    authorize (newerGrantRecord existing incoming) role dominant.advertisement routes
  { workspaceId := existing.workspaceId
    deviceId := existing.deviceId
    instanceId := dominant.instanceId
    personId := if existingTime < incomingTime then incoming.personId
      else if incomingTime < existingTime then existing.personId
      else if strKey incoming.personId < strKey existing.personId then existing.personId
      else incoming.personId
    endpoint := dominant.endpoint
    transportSecret := dominant.transportSecret
    role := role
    lastSeen := if existingTime ≤ incomingTime then incoming.lastSeen else existing.lastSeen
    revokedAt := revokedAt
    advertisement := advertisement
    instances := if routes.keys = [] then none else some ((routes.orderedValues strKey).take 32) }

def mergePeerRecords : Except String PeerRecord := do
  validatePeerRecord P existing
  validatePeerRecord P incoming
  refuse (existing.workspaceId ≠ incoming.workspaceId)
    "Cannot merge peer records from different workspaces"
  refuse (existing.deviceId ≠ incoming.deviceId)
    "Cannot merge peer records with different deviceIds"
  let existingTime ← timestampMs P existing.lastSeen
  let incomingTime ← timestampMs P incoming.lastSeen
  let incomingText ← canonicalRecord P incoming
  let existingText ← canonicalRecord P existing
  let incomingDominates : Bool := existingTime < incomingTime ∨
    (incomingTime = existingTime ∧ textKey existingText < textKey incomingText)
  let revokedAt ← mergeRevocation P existing incoming incomingDominates
  let routes ← collectInstances P ∅ existing false incomingDominates
  let routes ← collectInstances P routes incoming true incomingDominates
  .ok (mergedRecord existing incoming existingTime incomingTime incomingDominates revokedAt routes)

end Merge

/-! ## Records are told by their texts -/

instance : Canonical JsonValue where
  wellFormed v := by
    rw [show toValue v = v.1 from rfl, sorted_of_wellFormed v.2, v.2]
  injective a b same := by
    rw [show toValue a = a.1 from rfl, show toValue b = b.1 from rfl, sorted_of_wellFormed a.2,
      sorted_of_wellFormed b.2] at same
    exact Subtype.ext same

instance : Canonical WorkspaceRole where
  wellFormed _ := rfl
  injective _ _ same := toValue_injective same

def PeerTransportInstance.slots (i : PeerTransportInstance) : List (String × Option Value) :=
  [("advertisement", i.advertisement.map toValue), ("endpoint", some (toValue i.endpoint)),
    ("instanceId", some (toValue i.instanceId)), ("lastSeen", some (toValue i.lastSeen))]

theorem toValue_instance (i : PeerTransportInstance) : toValue i = .object (present i.slots) := by
  rw [PeerTransportInstance.slots, present_optional]
  rfl

instance : Canonical PeerTransportInstance := by
  refine .ofSlots PeerTransportInstance.slots toValue_instance (fun _ _ => rfl)
    (by simp [PeerTransportInstance.slots]) (by simp [PeerTransportInstance.slots]) ?_
  rintro ⟨⟩ ⟨⟩ same
  simp [-Option.map_map, PeerTransportInstance.slots] at same
  simp [same]

def PeerRecord.slots (r : PeerRecord) : List (String × Option Value) :=
  [("advertisement", r.advertisement.map toValue), ("deviceId", some (toValue r.deviceId)),
    ("endpoint", some (toValue r.endpoint)), ("instanceId", r.instanceId.map toValue),
    ("instances", r.instances.map toValue), ("lastSeen", some (toValue r.lastSeen)),
    ("personId", some (toValue r.personId)), ("revokedAt", r.revokedAt.map toValue),
    ("role", some (toValue r.role)), ("transportSecret", some (toValue r.transportSecret)),
    ("workspaceId", some (toValue r.workspaceId))]

theorem toValue_peer (r : PeerRecord) : toValue r = .object (present r.slots) := by
  simp only [PeerRecord.slots, present_optional, present_field]
  rfl

instance : Canonical PeerRecord := by
  refine .ofSlots PeerRecord.slots toValue_peer (fun _ _ => rfl)
    (by simp [PeerRecord.slots]) (by simp [PeerRecord.slots]) ?_
  rintro ⟨⟩ ⟨⟩ same
  simp [-Option.map_map, PeerRecord.slots] at same
  simp [same]

theorem wellFormed_optional {T : Type} [Serialize T] (good : ∀ t : T, (toValue t).wellFormed = true)
    (o : Option T) : (o.map toValue).all Value.wellFormed = true := by
  cases o with
  | none => rfl
  | some t => exact good t

theorem wellFormed_instance (i : PeerTransportInstance) : (toValue i).wellFormed = true := by
  have order : ["advertisement", "endpoint", "instanceId", "lastSeen"].Pairwise
      fun a b => strKey a < strKey b := by decide
  rw [toValue_instance]
  refine wellFormed_present order ?_
  simp only [PeerTransportInstance.slots, List.forall_mem_cons]
  exact ⟨wellFormed_optional Subtype.property _, rfl, rfl, rfl, by simp⟩

theorem wellFormed_peer (r : PeerRecord) : (toValue r).wellFormed = true := by
  have order : ["advertisement", "deviceId", "endpoint", "instanceId", "instances", "lastSeen",
      "personId", "revokedAt", "role", "transportSecret", "workspaceId"].Pairwise
      fun a b => strKey a < strKey b := by decide
  have instances : ∀ items : List PeerTransportInstance, (toValue items).wellFormed = true :=
    fun items => itemsWellFormed_iff.mpr (List.forall_mem_map.mpr fun i _ => wellFormed_instance i)
  have date : ∀ o : Option String, (toValue o).wellFormed = true := by
    rintro (_ | _) <;> rfl
  rw [toValue_peer]
  refine wellFormed_present order ?_
  simp only [PeerRecord.slots, List.forall_mem_cons]
  exact ⟨wellFormed_optional Subtype.property _, rfl, rfl, wellFormed_optional (fun _ => rfl) _,
    wellFormed_optional instances _, rfl, rfl, wellFormed_optional date _, rfl,
    r.transportSecret.2, rfl, by simp⟩

instance : Entry PeerRecord where
  id := PeerRecord.deviceId
  date := PeerRecord.lastSeen
  wellFormed := wellFormed_peer
  injective := Canonical.toValue_injective

/-! ## Routes -/

section Routes

variable {P : Primitives} {i : PeerTransportInstance}

variable (i) in
/-- A route without a sequence is below all that have one; then the texts decide. -/
def routeRank : WithBot Int ×ₗ List Nat :=
  toLex ((routeSequence i).elim ⊥ fun n => (n : WithBot Int), textKey (tieValue i).toVec)

theorem wellFormed_null : Value.null.wellFormed = true := rfl

variable (i) in
/-- What stands in the tie text for the bundle. -/
def PeerTransportInstance.bundle : JsonValue :=
  i.advertisement.getD ⟨.null, wellFormed_null⟩

theorem toValue_advertisement (i : PeerTransportInstance) :
    toValue i.advertisement = i.bundle.1 := by
  unfold PeerTransportInstance.bundle
  cases i.advertisement <;> rfl

theorem wellFormed_tieValue (i : PeerTransportInstance) : (tieValue i).wellFormed = true := by
  have order : ["advertisement", "endpoint", "instanceId"].Pairwise
      fun a b => strKey a < strKey b := by decide
  refine wellFormed_object_iff.mpr ⟨ascendingKeys_of_sublist (List.Sublist.refl _) order, ?_⟩
  rw [toValue_advertisement]
  simp [toValue, Value.wellFormed, i.bundle.2]

theorem tieValue_eq_iff {j : PeerTransportInstance} :
    tieValue i = tieValue j ↔
      i.bundle = j.bundle ∧ i.endpoint = j.endpoint ∧ i.instanceId = j.instanceId := by
  unfold tieValue
  rw [toValue_advertisement, toValue_advertisement]
  simp [toValue, Subtype.ext_iff]

theorem preferInstance_eq (current candidate : PeerTransportInstance) :
    preferInstance P current candidate =
      .ok (decide (routeRank current < routeRank candidate)) := by
  unfold preferInstance instanceTie routeRank
  rw [canonicalizeJson_eq P (wellFormed_tieValue current),
    canonicalizeJson_eq P (wellFormed_tieValue candidate)]
  cases routeSequence current with
  | none =>
    cases routeSequence candidate with
    | none
    | some right => simp [Prod.Lex.toLex_lt_toLex]
  | some left =>
    cases routeSequence candidate with
    | none => simp [Prod.Lex.toLex_lt_toLex]
    | some right =>
      by_cases same : left = right
      · simp [Prod.Lex.toLex_lt_toLex, same]
      · simp [Prod.Lex.toLex_lt_toLex, same]

theorem same_of_routeRank {j : PeerTransportInstance} (same : routeRank i = routeRank j) :
    i.bundle = j.bundle ∧ i.endpoint = j.endpoint := by
  have texts : textKey (tieValue i).toVec = textKey (tieValue j).toVec :=
    congrArg (fun pair => (ofLex pair).2) same
  obtain ⟨bundle, endpoint, _⟩ := tieValue_eq_iff.mp
    (toVec_injective (wellFormed_tieValue i) (wellFormed_tieValue j) (textKey_injective texts))
  exact ⟨bundle, endpoint⟩

variable {t : Table String PeerTransportInstance}

/-- A route is offered to the table, if the ones it replaces are not there. -/
theorem collectInstance_eq {replace dominates : Bool}
    (kept : (∀ current, t.lookup i.instanceId = some current → routeRank current < routeRank i) →
      replace = true → (routeSequence i).isSome = true ∨ dominates = true →
      retainRoutes t i = t) :
    collectInstance P replace dominates t i =
      .ok (offer PeerTransportInstance.instanceId routeRank t i) := by
  have retained : (∀ current, t.lookup i.instanceId = some current →
      routeRank current < routeRank i) → (if replace = true ∧ ((routeSequence i).isSome = true ∨
        dominates = true) then retainRoutes t i else t) = t := by
    intro selected
    split
    · next takes => exact kept selected takes.1 takes.2
    · rfl
  unfold collectInstance Latest.offer
  cases found : t.lookup i.instanceId with
  | none =>
    rw [found] at retained
    simp [retained]
  | some current =>
    dsimp only
    rw [preferInstance_eq, ok_bind]
    by_cases above : routeRank current < routeRank i
    · rw [retained (by simpa [found] using above)]
      simp [above]
    · simp [above]

/-- The route of a record under each id. -/
def bestRoutes (peer : PeerRecord) : Table String PeerTransportInstance :=
  (instanceCandidates peer).foldl (offer PeerTransportInstance.instanceId routeRank) ∅

theorem collectInstances_first (peer : PeerRecord) (dominates : Bool) :
    collectInstances P ∅ peer false dominates = .ok (bestRoutes peer) := by
  unfold collectInstances bestRoutes
  generalize (∅ : Table String PeerTransportInstance) = start
  induction instanceCandidates peer generalizing start with
  | nil => rfl
  | cons i candidates ih =>
    rw [List.foldlM_cons, collectInstance_eq (fun _ never => absurd never Bool.false_ne_true),
      ok_bind]
    exact ih _

end Routes

/-! ## The order of the arguments -/

open Entry (rank time)

section Order

variable {P : Primitives} {a b : PeerRecord}

variable (P a b) in
/-- A route of the second record that the first has none as good as replaces no other: if
it has a sequence or its record dominates, the other routes to its endpoint carry one. -/
def NoAlias : Prop :=
  ∀ i ∈ instanceCandidates b,
    (∀ j ∈ instanceCandidates a, j.instanceId = i.instanceId → routeRank j < routeRank i) →
    (routeSequence i).isSome = true ∨ rank P a < rank P b →
    ∀ j ∈ instanceCandidates a ++ instanceCandidates b, j.endpoint = i.endpoint →
      j.instanceId ≠ i.instanceId → (routeSequence j).isSome = true

variable (P a b) in
/-- Neither record's routes replace others, and where both have the same route under an id
they have seen it at one time. -/
structure RoutesApart : Prop where
  noAlias : NoAlias P a b
  noAliasBack : NoAlias P b a
  noTie : ∀ k i j, (bestRoutes a).lookup k = some i → (bestRoutes b).lookup k = some j →
    i.endpoint = j.endpoint → i.bundle = j.bundle → i = j

theorem dated_of_validate (valid : validatePeerRecord P a = .ok ()) :
    (∃ nanos, P.parseRfc3339 a.lastSeen = some nanos) ∧
      ∀ text, a.revokedAt = some (some text) → ∃ ms, timestampMs P text = .ok ms := by
  obtain ⟨_, _, valid⟩ := bind_ok.mp valid
  obtain ⟨_, _, valid⟩ := bind_ok.mp valid
  obtain ⟨_, _, valid⟩ := bind_ok.mp valid
  obtain ⟨_, _, valid⟩ := bind_ok.mp valid
  obtain ⟨_, _, valid⟩ := bind_ok.mp valid
  obtain ⟨_, _, valid⟩ := bind_ok.mp valid
  obtain ⟨_, seen, valid⟩ := bind_ok.mp valid
  obtain ⟨_, revoked, _⟩ := bind_ok.mp valid
  refine ⟨Entry.dated_of_timestampMs (t := a) seen, ?_⟩
  intro text found
  have read := forM_ok.mp revoked text (by simp [found])
  obtain ⟨ms, parsed, _⟩ := bind_ok.mp read
  exact ⟨ms, parsed⟩

theorem timestampMs_lastSeen (valid : validatePeerRecord P a = .ok ()) :
    timestampMs P a.lastSeen = .ok (time P a) :=
  Entry.timestampMs_eq (t := a) (dated_of_validate valid).1

theorem newerGrantRecord_comm (workspace : a.workspaceId = b.workspaceId) :
    newerGrantRecord a b = newerGrantRecord b a := by
  unfold newerGrantRecord
  by_cases person : a.personId = b.personId
  · rw [workspace, person]
    cases a.advertisement with
    | none => cases b.advertisement <;> simp [guard]
    | some bundleA =>
      cases b.advertisement with
      | none => simp [guard]
      | some bundleB =>
        simp only [guard, if_true, Option.pure_def, Option.bind_eq_bind, Option.bind_some,
          ← Option.bind_assoc]
        cases (bundleA.1.get? "ownerPublicKey").bind Value.asStr? with
        | none => simp
        | some ownerA =>
          cases (bundleB.1.get? "ownerPublicKey").bind Value.asStr? with
          | none => simp
          | some ownerB =>
            by_cases owner : ownerA = ownerB
            · simp only [owner, if_true, Option.bind_some]
              cases grantEpoch b.workspaceId b.personId bundleA with
              | none => simp
              | some epochA =>
                cases grantEpoch b.workspaceId b.personId bundleB with
                | none => simp
                | some epochB =>
                  rcases lt_trichotomy epochA epochB with below | rfl | above
                  · simp [below, not_lt_of_gt below]
                  · simp
                  · simp [above, not_lt_of_gt above]
            · simp [owner, Ne.symm owner, Option.failure_eq_none]
  · simp [person, Ne.symm person, guard]

theorem tiedRole_comm (left right : WorkspaceRole) : tiedRole left right = tiedRole right left := by
  cases left <;> cases right <;> rfl

variable (P a b) in
/-- No restore by the dominant record, which would be lost in the other order, and no two
texts for one time of revocation, of which the second would stay. -/
structure RevocationsAgree : Prop where
  keptRight : Entry.rank P a < Entry.rank P b → b.revokedAt ≠ some none
  keptLeft : Entry.rank P b < Entry.rank P a → a.revokedAt ≠ some none
  oneText : ∀ left right, a.revokedAt = some (some left) → b.revokedAt = some (some right) →
    timestampMs P left = timestampMs P right → left = right

theorem RevocationsAgree.symm (agree : RevocationsAgree P a b) : RevocationsAgree P b a :=
  ⟨agree.keptLeft, agree.keptRight, fun left right foundB foundA same =>
    (agree.oneText right left foundA foundB same.symm).symm⟩

theorem mergeRevocation_true :
    mergeRevocation P a b true =
      if b.revokedAt = some none then .ok (some none) else mergeRevocation P a b false := by
  unfold mergeRevocation
  by_cases restored : b.revokedAt = some none <;> simp [restored]

theorem mergeRevocation_ne_restore : mergeRevocation P a b false ≠ .ok (some none) := by
  intro merged
  unfold mergeRevocation at merged
  rw [if_neg (by simp)] at merged
  split at merged
  · obtain ⟨_, _, merged⟩ := bind_ok.mp merged
    obtain ⟨_, _, merged⟩ := bind_ok.mp merged
    simp at merged
  all_goals simp at merged

section

variable (validA : validatePeerRecord P a = .ok ()) (validB : validatePeerRecord P b = .ok ())
include validA validB

theorem exists_mergeRevocation (dominates : Bool) :
    ∃ r, mergeRevocation P a b dominates = .ok r := by
  unfold mergeRevocation
  split
  · exact ⟨_, rfl⟩
  · split
    · next left right foundA foundB =>
      obtain ⟨leftTime, readLeft⟩ := (dated_of_validate validA).2 left foundA
      obtain ⟨rightTime, readRight⟩ := (dated_of_validate validB).2 right foundB
      exact ⟨_, by rw [readLeft, readRight]; rfl⟩
    all_goals exact ⟨_, rfl⟩

theorem mergeRevocation_false_comm_iff :
    mergeRevocation P a b false = mergeRevocation P b a false ↔
      ∀ left right, a.revokedAt = some (some left) → b.revokedAt = some (some right) →
        timestampMs P left = timestampMs P right → left = right := by
  have datesA := (dated_of_validate validA).2
  have datesB := (dated_of_validate validB).2
  unfold mergeRevocation
  rcases foundA : a.revokedAt with _ | _ | left
  · rcases b.revokedAt with _ | _ | right <;> simp
  · rcases b.revokedAt with _ | _ | right <;> simp
  · rcases foundB : b.revokedAt with _ | _ | right
    · simp
    · simp
    · obtain ⟨leftTime, readLeft⟩ := datesA left foundA
      obtain ⟨rightTime, readRight⟩ := datesB right foundB
      rcases lt_trichotomy leftTime rightTime with below | rfl | above
      · simp [not_le_of_gt below, below.le, below.ne, readLeft, readRight]
      · simp [eq_comm, readLeft, readRight]
      · simp [not_le_of_gt above, above.le, above.ne', readLeft, readRight]

theorem mergeRevocation_comm_of_below (below : rank P a < rank P b) :
    mergeRevocation P a b true = mergeRevocation P b a false ↔ RevocationsAgree P a b := by
  have kept := mergeRevocation_false_comm_iff validA validB
  rw [mergeRevocation_true]
  split
  · next restored =>
    refine ⟨fun same => absurd same.symm mergeRevocation_ne_restore, fun agree => ?_⟩
    exact absurd restored (agree.keptRight below)
  · next notRestored =>
    rw [kept]
    exact ⟨fun oneText => ⟨fun _ => notRestored, fun above => absurd above below.asymm, oneText⟩,
      fun agree => agree.oneText⟩

theorem mergeRevocation_comm_iff :
    mergeRevocation P a b (decide (rank P a < rank P b)) =
        mergeRevocation P b a (decide (rank P b < rank P a)) ↔
      RevocationsAgree P a b := by
  rcases lt_trichotomy (rank P a) (rank P b) with below | same | above
  · rw [decide_eq_true below, decide_eq_false below.asymm]
    exact mergeRevocation_comm_of_below validA validB below
  · obtain rfl := Entry.rank_injective same
    refine ⟨fun _ => ⟨fun below => absurd below (lt_irrefl _), fun below =>
      absurd below (lt_irrefl _), ?_⟩, fun _ => rfl⟩
    intro left right foundLeft foundRight _
    rw [foundLeft] at foundRight
    exact Option.some.inj (Option.some.inj foundRight)
  · rw [decide_eq_true above, decide_eq_false above.asymm, eq_comm,
      mergeRevocation_comm_of_below validB validA above]
    exact ⟨RevocationsAgree.symm, RevocationsAgree.symm⟩

end

theorem dominant_comm :
    (if rank P a < rank P b then b else a) = if rank P b < rank P a then a else b := by
  rcases lt_trichotomy (rank P a) (rank P b) with below | same | above
  · rw [if_pos below, if_neg below.asymm]
  · obtain rfl := Entry.rank_injective same
    rfl
  · rw [if_neg above.asymm, if_pos above]

/-- The routes of both records, if none replaces another. -/
def mergedRoutes (a b : PeerRecord) : Table String PeerTransportInstance :=
  (instanceCandidates b).foldl (offer PeerTransportInstance.instanceId routeRank) (bestRoutes a)

theorem RoutesApart.lookup_comm (apart : RoutesApart P a b) (k : String) :
    (mergedRoutes a b).lookup k = (mergedRoutes b a).lookup k := by
  unfold mergedRoutes
  rw [lookup_foldl_offer_from (bestRoutes a), lookup_foldl_offer_from (bestRoutes b)]
  apply better_comm
  intro i j foundA foundB same
  obtain ⟨bundle, endpoint⟩ := same_of_routeRank same
  exact apart.noTie k i j foundA foundB endpoint bundle

/-- What the loop over the second record's routes adds, from any point of it. -/
theorem NoAlias.collect_eq (noAlias : NoAlias P a b) {seen rest : List PeerTransportInstance}
    (split : seen ++ rest = instanceCandidates b) {t : Table String PeerTransportInstance}
    (held : Held PeerTransportInstance.instanceId routeRank (instanceCandidates a ++ seen) t) :
    rest.foldlM (collectInstance P true (decide (rank P a < rank P b))) t =
      .ok (rest.foldl (offer PeerTransportInstance.instanceId routeRank) t) := by
  induction rest generalizing seen t with
  | nil => rfl
  | cons i rest ih =>
    have inB : i ∈ instanceCandidates b := by simp [← split]
    have stays : collectInstance P true (decide (rank P a < rank P b)) t i =
        .ok (offer PeerTransportInstance.instanceId routeRank t i) := by
      refine collectInstance_eq fun selected _ takes => Table.retain_eq_self ?_
      intro k j found
      obtain ⟨rfl, best⟩ := held.best k j found
      have news : ∀ h ∈ instanceCandidates a, h.instanceId = i.instanceId →
          routeRank h < routeRank i := by
        intro h inA sameId
        obtain ⟨current, known⟩ := held.found h (List.mem_append_left _ inA)
        obtain ⟨keyed, top⟩ := held.best _ _ known
        rw [sameId] at known
        exact lt_of_le_of_lt (top.2 h (List.mem_append_left _ inA) keyed.symm)
          (selected current known)
      have known : j ∈ instanceCandidates a ++ instanceCandidates b := by
        rw [← split, ← List.append_assoc]
        exact List.mem_append_left _ best.1
      by_cases sameId : j.instanceId = i.instanceId
      · simp [sameId]
      · by_cases sameEndpoint : j.endpoint = i.endpoint
        · simp [noAlias i inB news (by simpa using takes) j known sameEndpoint sameId]
        · simp [sameEndpoint]
    have next := held.offer i
    rw [List.append_assoc] at next
    rw [List.foldlM_cons, stays, ok_bind, List.foldl_cons]
    exact ih (by rw [List.append_assoc, List.singleton_append, split]) next

theorem NoAlias.collectInstances_eq (noAlias : NoAlias P a b) :
    collectInstances P (bestRoutes a) b true (decide (rank P a < rank P b)) =
      .ok (mergedRoutes a b) := by
  refine noAlias.collect_eq (List.nil_append _) ?_
  rw [List.append_nil]
  exact held_foldl (instanceCandidates a)

variable {revokedAt : Option (Option String)} {all t u : Table String PeerTransportInstance}

theorem mergePeerRecords_eq (validA : validatePeerRecord P a = .ok ())
    (validB : validatePeerRecord P b = .ok ()) (workspace : a.workspaceId = b.workspaceId)
    (device : a.deviceId = b.deviceId)
    (revocation : mergeRevocation P a b (decide (rank P a < rank P b)) = .ok revokedAt)
    (routes : collectInstances P (bestRoutes a) b true (decide (rank P a < rank P b)) = .ok all) :
    mergePeerRecords P a b = .ok (mergedRecord a b (time P a) (time P b)
      (decide (rank P a < rank P b)) revokedAt all) := by
  have dominates : (time P a < time P b ∨ time P b = time P a ∧
      textKey (toValue a).toVec < textKey (toValue b).toVec) ↔
      rank P a < rank P b := by
    rw [rank, rank, Prod.Lex.toLex_lt_toLex, eq_comm]
  unfold mergePeerRecords canonicalRecord
  rw [validA, validB, canonicalizeJson_eq P (wellFormed_peer a),
    canonicalizeJson_eq P (wellFormed_peer b), timestampMs_lastSeen validA,
    timestampMs_lastSeen validB]
  simp only [ok_bind, refuse, workspace, device, ne_eq, not_true_eq_false, if_false, dominates,
    revocation, collectInstances_first, routes]

theorem later_comm {α : Type} (left right : Int) (x y : α) {tied tied' : α}
    (same : left = right → tied = tied') :
    (if left < right then y else if right < left then x else tied) =
      if right < left then x else if left < right then y else tied' := by
  rcases lt_trichotomy left right with below | equal | above
  · simp [below, below.asymm]
  · simp [equal, same equal]
  · simp [above, above.asymm]

theorem person_comm (x y : String) :
    (if strKey y < strKey x then x else y) = if strKey x < strKey y then y else x := by
  rcases lt_trichotomy (strKey x) (strKey y) with below | equal | above
  · simp [below, below.asymm]
  · simp [strKey_injective equal]
  · simp [above, above.asymm]

theorem listed_congr (same : ∀ k, t.lookup k = u.lookup k) :
    (if t.keys = [] then none else some ((t.orderedValues strKey).take 32)) =
      if u.keys = [] then none else some ((u.orderedValues strKey).take 32) := by
  have empty : t.keys = [] ↔ u.keys = [] := by
    rw [Table.keys_eq_nil_iff, Table.keys_eq_nil_iff]
    exact forall_congr' fun k => by rw [same k]
  rw [Table.orderedValues_congr strKey_injective same]
  simp only [empty]

/-- Only the routes depend on the routes. -/
theorem authorize_congr (newer : Option PeerRecord) (role : WorkspaceRole)
    (advertisement : Option JsonValue) (t u : Table String PeerTransportInstance) :
    (authorize newer role advertisement t).1 = (authorize newer role advertisement u).1 ∧
      (authorize newer role advertisement t).2.1 = (authorize newer role advertisement u).2.1 ∧
      ((∀ k, t.lookup k = u.lookup k) → ∀ k,
        (authorize newer role advertisement t).2.2.lookup k =
          (authorize newer role advertisement u).2.2.lookup k) := by
  unfold authorize
  cases newer with
  | none => exact ⟨rfl, rfl, id⟩
  | some authorized =>
    dsimp only
    split
    · refine ⟨rfl, rfl, fun same k => ?_⟩
      rw [Table.lookup_mapValues, Table.lookup_mapValues, same k]
    · exact ⟨rfl, rfl, id⟩

theorem lastSeen_comm_iff {left right : Int} {x y : String} :
    ((if left ≤ right then y else x) = if right ≤ left then x else y) ↔ (left = right → x = y) := by
  rcases lt_trichotomy left right with below | equal | above
  · simp [below.le, not_le_of_gt below, below.ne]
  · simp [equal, eq_comm]
  · simp [above.le, not_le_of_gt above, above.ne']

/-- The two orders differ in the time of sight, the revocation and the routes only, and in
the routes not if the tables are the same. -/
theorem mergedRecord_comm_iff (workspace : a.workspaceId = b.workspaceId)
    (device : a.deviceId = b.deviceId) (revokedAt revokedAt' : Option (Option String))
    (t u : Table String PeerTransportInstance) {ab ba : PeerRecord}
    (isAB : mergedRecord a b (time P a) (time P b) (decide (rank P a < rank P b)) revokedAt t = ab)
    (isBA : mergedRecord b a (time P b) (time P a) (decide (rank P b < rank P a)) revokedAt' u =
      ba) :
    (ab = ba ↔ (time P a = time P b → a.lastSeen = b.lastSeen) ∧ revokedAt = revokedAt' ∧
      ab.instances = ba.instances) ∧
    ((∀ k, t.lookup k = u.lookup k) → ab.instances = ba.instances) := by
  subst isAB isBA
  have dominant := dominant_comm (P := P) (a := a) (b := b)
  have role := later_comm (time P a) (time P b) a.role b.role
    fun _ => tiedRole_comm a.role b.role
  have person := later_comm (time P a) (time P b) a.personId b.personId
    fun _ => person_comm a.personId b.personId
  unfold mergedRecord
  simp only [decide_eq_true_eq]
  rw [dominant, newerGrantRecord_comm workspace, role]
  obtain ⟨roles, bundles, routes⟩ := authorize_congr (newerGrantRecord b a)
    (if time P b < time P a then a.role
      else if time P a < time P b then b.role else tiedRole b.role a.role)
    (if rank P b < rank P a then a else b).advertisement t u
  refine ⟨?_, fun same => listed_congr (routes same)⟩
  simp only [PeerRecord.mk.injEq, roles, bundles, workspace, device, person, lastSeen_comm_iff,
    true_and]

/-! ## The role and the revocation -/

theorem exists_collectInstances (t : Table String PeerTransportInstance) (peer : PeerRecord)
    (replace dominates : Bool) : ∃ u, collectInstances P t peer replace dominates = .ok u := by
  refine (@foldlM_total _ _ _ (instanceCandidates peer) (collectInstance P replace dominates) t
    (fun _ _ => True) trivial ?_).imp fun _ => And.left
  intro _ i _ before _ _
  unfold collectInstance
  cases before.lookup i.instanceId with
  | none => exact ⟨_, rfl, trivial⟩
  | some current =>
    dsimp only
    rw [preferInstance_eq, ok_bind]
    split <;> exact ⟨_, rfl, trivial⟩

/-- The newer of two grants is in one of the records, and they are not the same. -/
theorem newerGrantRecord_eq_some {r : PeerRecord} (found : newerGrantRecord a b = some r) :
    a ≠ b ∧ (r = a ∨ r = b) := by
  simp only [newerGrantRecord, Option.bind_eq_bind, Option.bind_eq_some_iff] at found
  obtain ⟨_, _, bundleA, isA, bundleB, isB, _, _, _, _, _, _, _, _, _, _, epochA, readA, epochB,
    readB, found⟩ := found
  have apart : epochA ≠ epochB → a ≠ b := by
    rintro differ rfl
    obtain rfl := Option.mem_unique isA isB
    exact differ (Option.mem_unique readA readB)
  split at found
  · next above => exact ⟨apart above.ne', .inl (Option.some.inj found).symm⟩
  · split at found
    · next below => exact ⟨apart below.ne, .inr (Option.some.inj found).symm⟩
    · cases found

/-- Only two automations of one time give a role that neither has. -/
theorem role_mergedRecord_iff {left right : Int} {dominates : Bool} :
    (mergedRecord a b left right dominates revokedAt all).role = a.role ∨
        (mergedRecord a b left right dominates revokedAt all).role = b.role ↔
      ¬ (a.role = .automation ∧ b.role = .automation ∧ left = right ∧
        newerGrantRecord a b = none) := by
  have role : (mergedRecord a b left right dominates revokedAt all).role =
      (newerGrantRecord a b).elim (if left < right then b.role
        else if right < left then a.role else tiedRole a.role b.role) PeerRecord.role := by
    unfold mergedRecord authorize
    cases newerGrantRecord a b with
    | none => rfl
    | some newer => dsimp only; split <;> rfl
  rw [role]
  cases newer : newerGrantRecord a b with
  | some r => obtain ⟨_, rfl | rfl⟩ := newerGrantRecord_eq_some newer <;> simp
  | none =>
    rcases lt_trichotomy left right with below | same | above
    · simp [below, below.ne]
    · simp only [same, lt_irrefl, if_false, Option.elim_none, and_true]
      cases a.role <;> cases b.role <;> decide
    · simp [above, above.asymm, above.ne']

/-- Only an explicit restore in both records is lost. -/
theorem mergeRevocation_mem_iff {dominates : Bool}
    (merged : mergeRevocation P a b dominates = .ok revokedAt) :
    revokedAt = a.revokedAt ∨ revokedAt = b.revokedAt ↔
      ¬ (a.revokedAt = some none ∧ b.revokedAt = some none ∧ dominates = false) := by
  unfold mergeRevocation at merged
  split at merged
  · next restored => simp [restored, ← Except.ok.inj merged]
  · next kept =>
    revert kept merged
    rcases a.revokedAt with _ | _ | left
    · rcases b.revokedAt with _ | _ | right <;> simp +contextual [eq_comm]
    · rcases b.revokedAt with _ | _ | right <;> simp +contextual [eq_comm]
    · rcases b.revokedAt with _ | _ | right
      · simp +contextual [eq_comm]
      · simp +contextual [eq_comm]
      · intro _ merged
        obtain ⟨_, _, merged⟩ := bind_ok.mp merged
        obtain ⟨_, _, merged⟩ := bind_ok.mp merged
        rw [← Except.ok.inj merged]
        split <;> simp

end Order

namespace Sample

/-- Primitives that read two days. -/
def calendar : Primitives :=
  { primitives with parseRfc3339 := fun text =>
      if text = "2026-01-01T00:00:00Z" then some 1767225600000000000
      else if text = "2026-01-02T00:00:00Z" then some 1767312000000000000
      else none }

def peer (lastSeen : String) (revokedAt : Option (Option String)) : PeerRecord where
  workspaceId := "workspace"
  deviceId := "device"
  instanceId := none
  personId := "person"
  endpoint := "relay://endpoint"
  transportSecret := ⟨.string "secret", rfl⟩
  role := .editor
  lastSeen := lastSeen
  revokedAt := revokedAt
  advertisement := none
  instances := none

/-- Revoked on the first day, restored on the second. -/
def revokedPeer : PeerRecord :=
  peer "2026-01-01T00:00:00Z" (some (some "2026-01-01T00:00:00Z"))

def restoredPeer : PeerRecord := peer "2026-01-02T00:00:00Z" (some none)

def restoredAutomation : PeerRecord := { restoredPeer with role := .automation }

/-- A route and the day it was seen. -/
def routedPeer (instanceId endpoint lastSeen : String) : PeerRecord :=
  { peer lastSeen none with instanceId := some instanceId, endpoint := endpoint }

def firstRoute : PeerRecord :=
  routedPeer "first" "relay://first" "2026-01-01T00:00:00Z"

def secondRoute : PeerRecord :=
  routedPeer "second" "relay://second" "2026-01-02T00:00:00Z"

/-- The first route, seen again. -/
def firstRouteAgain : PeerRecord :=
  routedPeer "first" "relay://first" "2026-01-02T00:00:00Z"

/-- Another route to the first endpoint. -/
def aliasRoute : PeerRecord :=
  routedPeer "second" "relay://first" "2026-01-02T00:00:00Z"

end Sample

open Sample

/-- Of two records the merged role and the merged revocation are those of one, except for two
automations of one time of which neither has the newer grant, and for two explicit restores of
which the second does not dominate.  So a record merged with itself keeps both, unless it is an
automation or restored. -/
theorem merge_keeps_states (P : Primitives) (a b : PeerRecord)
    (validA : validatePeerRecord P a = .ok ()) (validB : validatePeerRecord P b = .ok ())
    (workspace : a.workspaceId = b.workspaceId) (device : a.deviceId = b.deviceId) :
    ∃ merged, mergePeerRecords P a b = .ok merged ∧
      (merged.role = a.role ∨ merged.role = b.role ↔ ¬ (a.role = .automation ∧
        b.role = .automation ∧ time P a = time P b ∧ newerGrantRecord a b = none)) ∧
      (merged.revokedAt = a.revokedAt ∨ merged.revokedAt = b.revokedAt ↔
        ¬ (a.revokedAt = some none ∧ b.revokedAt = some none ∧ ¬ rank P a < rank P b)) ∧
      (a = b → (merged.role = a.role ↔ a.role ≠ .automation) ∧
        (merged.revokedAt = a.revokedAt ↔ a.revokedAt ≠ some none)) := by
  obtain ⟨revokedAt, revocation⟩ := exists_mergeRevocation validA validB
    (decide (rank P a < rank P b))
  obtain ⟨all, routes⟩ := exists_collectInstances (bestRoutes a) b true
    (decide (rank P a < rank P b))
  have role := @role_mergedRecord_iff a b revokedAt all (time P a) (time P b)
    (decide (rank P a < rank P b))
  have kept := mergeRevocation_mem_iff revocation
  rw [decide_eq_false_iff_not] at kept
  refine ⟨_, mergePeerRecords_eq validA validB workspace device revocation routes, role, kept, ?_⟩
  rintro rfl
  have alone : newerGrantRecord a a = none :=
    Option.eq_none_iff_forall_not_mem.mpr fun _ found => (newerGrantRecord_eq_some found).1 rfl
  have same : revokedAt = a.revokedAt ↔ a.revokedAt ≠ some none := by simpa using kept
  exact ⟨by simpa [alone] using role, same⟩

theorem merge_keeps_states_sample : ∃ merged,
    mergePeerRecords calendar revokedPeer revokedPeer = .ok merged ∧
      merged.role = .editor ∧ merged.revokedAt = revokedPeer.revokedAt := by
  obtain ⟨merged, ran, _, _, same⟩ := merge_keeps_states calendar revokedPeer
    revokedPeer (by decide) (by decide) rfl rfl
  exact ⟨merged, ran, (same rfl).1.mpr (by decide), (same rfl).2.mpr (by decide)⟩

set_option maxRecDepth 100000 in
/-- The automation becomes an editor, and its restore is gone. -/
theorem merge_invents_editor :
    mergePeerRecords calendar restoredAutomation restoredAutomation =
      .ok { restoredAutomation with role := .editor, revokedAt := none } := by
  decide

end MetaMesh
