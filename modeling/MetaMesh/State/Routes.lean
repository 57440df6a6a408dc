import MetaMesh.State.Peers

/-!
# The route catalogue

`DeviceRouteCatalog` of `replication.rs` keeps one route under each joined key of scope,
device and instance: the one of highest sequence, and of those the one with the greater
tie text.  `routesFor_answers_iff` says for which routes it then answers with the best
route of each instance, whatever the order in which they came.
-/

namespace MetaMesh

open Fallible Latest

def routeSignatureDomain : String := "META-MESH-ROUTE/1"
def maxDeviceRouteString : Nat := 2 * 1024
def maxDeviceRouteLifetimeMs : Int := 10 * 60 * 1000

/-- A way to reach a device, numbered. -/
structure DeviceRoutePayload where
  kind : String
  version : UInt8
  scopeId : String
  personId : String
  deviceId : String
  instanceId : String
  endpoint : String
  sequence : Nat
  issuedAt : String
  expiresAt : String
deriving DecidableEq, Repr

instance : Serialize DeviceRoutePayload where
  toValue p := .object [("kind", toValue p.kind), ("version", toValue p.version),
    ("scopeId", toValue p.scopeId), ("personId", toValue p.personId),
    ("deviceId", toValue p.deviceId), ("instanceId", toValue p.instanceId),
    ("endpoint", toValue p.endpoint), ("sequence", toValue p.sequence),
    ("issuedAt", toValue p.issuedAt), ("expiresAt", toValue p.expiresAt)]

/-- A signed route. -/
structure DeviceRoute where
  payload : DeviceRoutePayload
  signerKeyId : String
  signature : String
  legacyEvidence : Option JsonValue
deriving DecidableEq, Repr

/-! ## Validation -/

/-- `required_bounded` of `replication.rs`, which lets blank texts pass. -/
def requiredRouteString (value label : String) : Except String Unit :=
  refuse (value = "" ∨ maxDeviceRouteString < value.utf8ByteSize) ("Invalid " ++ label)

variable (P : Primitives)

def routeTimestampMs (value : String) : Except String Int := do
  let nanos ← okOr (P.parseRfc3339 value) "Invalid timestamp"
  .ok (nanos.tdiv 1000000)

def validateDeviceRoutePayload (route : DeviceRoutePayload) : Except String Unit := do
  refuse (route.kind ≠ "mesh-device-route" ∨ route.version ≠ 1) "Unsupported device route version"
  requiredRouteString route.scopeId "route scope"
  requiredRouteString route.personId "route person"
  requiredRouteString route.deviceId "route device"
  requiredRouteString route.instanceId "route instance"
  requiredRouteString route.endpoint "route endpoint"
  refuse (route.sequence = 0) "Invalid route sequence"
  let issuedAt ← routeTimestampMs P route.issuedAt
  let expiresAt ← routeTimestampMs P route.expiresAt
  refuse (expiresAt ≤ issuedAt ∨ maxDeviceRouteLifetimeMs < expiresAt - issuedAt)
    "Invalid route lifetime"

def validateDeviceRoute (route : DeviceRoute) : Except String Unit := do
  validateDeviceRoutePayload P route.payload
  refuse (route.signerKeyId ≠ route.payload.deviceId) "Device route signer does not match device"
  requiredRouteString route.signature "route signature"

/-! ## The catalogue -/

def routeTie (route : DeviceRoute) : String :=
  route.payload.endpoint ++ "\x00" ++ route.payload.issuedAt ++ "\x00" ++
    route.payload.expiresAt ++ "\x00" ++ route.signature

def preferRoute (current candidate : DeviceRoute) : Bool :=
  if candidate.payload.sequence ≠ current.payload.sequence then
    current.payload.sequence < candidate.payload.sequence
  else strKey (routeTie current) < strKey (routeTie candidate)

/-- The key of a route in the catalogue. -/
def routeKey (route : DeviceRoute) : String :=
  route.payload.scopeId ++ "\x00" ++ route.payload.deviceId ++ "\x00" ++ route.payload.instanceId

/-- The best route under each key. -/
structure DeviceRouteCatalog where
  routes : Table String DeviceRoute

namespace DeviceRouteCatalog

variable (catalog : DeviceRouteCatalog)

def selected (route : DeviceRoute) : DeviceRoute :=
  match catalog.routes.lookup (routeKey route) with
  | some current => if preferRoute current route then route else current
  | none => route

/-- Keeps the preferred route of its key. -/
def admitRoute (route : DeviceRoute) : Except String (DeviceRoute × DeviceRouteCatalog) := do
  validateDeviceRoute P route
  let selected := catalog.selected route
  .ok (selected, ⟨catalog.routes.insert (routeKey route) selected⟩)

def routesFor (scopeId deviceId : String) : List DeviceRoute :=
  (catalog.routes.orderedValues strKey).filter fun route =>
    route.payload.scopeId = scopeId ∧ route.payload.deviceId = deviceId

/-- Admit routes one after another, to an empty catalogue. -/
def admitAll (routes : List DeviceRoute) : Except String DeviceRouteCatalog :=
  routes.foldlM (fun catalog route => Prod.snd <$> catalog.admitRoute P route) ⟨∅⟩

end DeviceRouteCatalog

open DeviceRouteCatalog (admitAll)

/-! ## What the catalogue is for -/

/-- What a route is a route of. -/
def DeviceRoute.identity (route : DeviceRoute) : String × String × String :=
  (route.payload.scopeId, route.payload.deviceId, route.payload.instanceId)

def DeviceRoute.rank (route : DeviceRoute) : Nat ×ₗ List Nat :=
  toLex (route.payload.sequence, strKey (routeTie route))

section

variable (routes : List DeviceRoute)

/-- The route of an instance with the highest sequence and tie. -/
abbrev BestRoute : DeviceRoute → Prop :=
  Best DeviceRoute.identity DeviceRoute.rank {route | route ∈ routes}

/-- One route for each instance of a scope and device that occurs: the best one. -/
structure AnswersBest (scopeId deviceId : String) (answer : List DeviceRoute) : Prop where
  single : (answer.map DeviceRoute.identity).Nodup
  best : ∀ route, route ∈ answer ↔
    BestRoute routes route ∧ route.payload.scopeId = scopeId ∧ route.payload.deviceId = deviceId
  occurs : ∀ instanceId, (∃ route ∈ routes, route.identity = (scopeId, deviceId, instanceId)) →
    ∃ route ∈ answer, route.payload.instanceId = instanceId

/-- The joined keys tell the routes apart, and the ranks tell the best ones apart. -/
def ToldApart : Prop :=
  (∀ a ∈ routes, ∀ b ∈ routes, routeKey a = routeKey b → a.identity = b.identity) ∧
    ∀ a b, BestRoute routes a → BestRoute routes b → a.identity = b.identity → a = b

end

variable {P} {routes calls : List DeviceRoute} {catalog : DeviceRouteCatalog}
  {route current a b : DeviceRoute}

theorem preferRoute_iff : preferRoute current route = true ↔ current.rank < route.rank := by
  rw [preferRoute, DeviceRoute.rank, DeviceRoute.rank, Prod.Lex.toLex_lt_toLex]
  split
  · next other => simp [Ne.symm other]
  · next same => simp [not_not.mp same]

theorem identity_eq : a.identity = b.identity ↔ a.payload.scopeId = b.payload.scopeId ∧
    a.payload.deviceId = b.payload.deviceId ∧ a.payload.instanceId = b.payload.instanceId := by
  simp [DeviceRoute.identity]

theorem routeKey_eq (same : a.identity = b.identity) : routeKey a = routeKey b := by
  obtain ⟨scope, device, tab⟩ := identity_eq.mp same
  rw [routeKey, routeKey, scope, device, tab]

/-- The selected route is put back under its key, as if the new one was offered. -/
theorem lookup_insert_selected (k : String) :
    (catalog.routes.insert (routeKey route) (catalog.selected route)).lookup k =
      (offer routeKey DeviceRoute.rank catalog.routes route).lookup k := by
  rw [lookup_offer, Table.lookup_insert_ite, DeviceRouteCatalog.selected]
  by_cases here : k = routeKey route
  · subst here
    cases catalog.routes.lookup (routeKey route) with
    | none => simp
    | some current =>
      simp only [preferRoute_iff, if_true, Option.all_some, decide_eq_true_eq, true_and]
      split <;> rfl
  · simp [here]

theorem admitAll_ok : admitAll P routes = .ok catalog ↔
    (∀ route ∈ routes, validateDeviceRoute P route = .ok ()) ∧
      routes.foldl (fun (c : DeviceRouteCatalog) route =>
        ⟨c.routes.insert (routeKey route) (c.selected route)⟩) ⟨∅⟩ = catalog := by
  rw [← foldlM_checked_ok, admitAll]
  simp only [DeviceRouteCatalog.admitRoute, map_bind]
  rfl

theorem held_of_admitAll (ran : admitAll P routes = .ok catalog) :
    Held routeKey DeviceRoute.rank routes catalog.routes := by
  rw [← (admitAll_ok.mp ran).2]
  clear ran
  induction routes using List.reverseRecOn with
  | nil => exact ⟨by simp, by simp⟩
  | append_singleton routes route ih =>
    have offered := ih.offer route
    rw [List.foldl_append]
    refine ⟨fun k a found => offered.best k a ?_, fun a seen => ?_⟩
    · rwa [← lookup_insert_selected]
    · obtain ⟨b, found⟩ := offered.found a seen
      exact ⟨b, (lookup_insert_selected _).trans found⟩

theorem mem_routesFor {scopeId deviceId : String} :
    route ∈ catalog.routesFor scopeId deviceId ↔ (∃ k, catalog.routes.lookup k = some route) ∧
      route.payload.scopeId = scopeId ∧ route.payload.deviceId = deviceId := by
  rw [DeviceRouteCatalog.routesFor, List.mem_filter, Table.mem_orderedValues, decide_eq_true_eq]

/-! ## When it answers -/

section Told

variable (told : ToldApart routes)
include told

/-- A catalogue of these routes looks up the best ones. -/
theorem lookup_of_told (ran : admitAll P calls = .ok catalog)
    (same : ∀ route, route ∈ calls ↔ route ∈ routes) {k : String} :
    catalog.routes.lookup k = some route ↔ routeKey route = k ∧ BestRoute routes route := by
  have held := held_of_admitAll ran
  have looked : ∀ {k route}, catalog.routes.lookup k = some route →
      routeKey route = k ∧ BestRoute routes route := by
    intro k route found
    obtain ⟨keyed, best⟩ := held.best k route found
    simp only [same] at best
    exact ⟨keyed, best.1, fun other inside sameId => best.2 other inside (routeKey_eq sameId)⟩
  refine ⟨looked, ?_⟩
  rintro ⟨rfl, best⟩
  obtain ⟨other, found⟩ := held.found route ((same route).mpr best.1)
  obtain ⟨keyed, best'⟩ := looked found
  rw [found, told.2 other route best' best (told.1 _ best'.1 _ best.1 keyed)]

theorem answersBest_of_told (ran : admitAll P routes = .ok catalog) (scopeId deviceId : String) :
    AnswersBest routes scopeId deviceId (catalog.routesFor scopeId deviceId) := by
  have looked {k route} := @lookup_of_told _ _ _ _ route told ran (fun _ => Iff.rfl) k
  have best : ∀ route, route ∈ catalog.routesFor scopeId deviceId ↔ BestRoute routes route ∧
      route.payload.scopeId = scopeId ∧ route.payload.deviceId = deviceId := by
    intro route
    simp only [mem_routesFor, looked, exists_eq_left']
  refine ⟨?_, best, ?_⟩
  · have keyed : Table.KeyedBy routeKey catalog.routes := fun k v found => (looked.mp found).1
    refine ((keyed.nodup strKey).of_map.filter _).map_on fun a inA b inB same => ?_
    exact told.2 a b ((best a).mp inA).1 ((best b).mp inB).1 same
  · rintro instanceId ⟨route, inside, named⟩
    obtain ⟨top, isBest, same, _⟩ := @exists_best _ _ _ _ DeviceRoute.identity DeviceRoute.rank _
      routes route inside
    obtain ⟨scope, device, tab⟩ := by simpa [DeviceRoute.identity] using same.trans named
    exact ⟨top, (best top).mpr ⟨isBest, scope, device⟩, tab⟩

end Told

/-- Routes that the catalogue answers with are told apart. -/
theorem toldApart_of_answers (ran : admitAll P routes = .ok catalog)
    (answers : ∀ scopeId deviceId,
      AnswersBest routes scopeId deviceId (catalog.routesFor scopeId deviceId)) :
    ToldApart routes := by
  -- a best route is read, so that it stands under its key
  have stands : ∀ a, BestRoute routes a →
      a ∈ catalog.routesFor a.payload.scopeId a.payload.deviceId ∧
        catalog.routes.lookup (routeKey a) = some a := by
    intro a best
    have inside := ((answers _ _).best a).mpr ⟨best, rfl, rfl⟩
    obtain ⟨⟨k, found⟩, _⟩ := mem_routesFor.mp inside
    exact ⟨inside, ((held_of_admitAll ran).best k a found).1 ▸ found⟩
  have top : ∀ a ∈ routes, ∃ b, BestRoute routes b ∧ b.identity = a.identity := by
    intro a inside
    obtain ⟨b, best, same, _⟩ := @exists_best _ _ _ _ DeviceRoute.identity DeviceRoute.rank _
      routes a inside
    exact ⟨b, best, same⟩
  refine ⟨fun a inA b inB sameKey => ?_, fun a b bestA bestB same => ?_⟩
  · obtain ⟨topA, bestA, ofA⟩ := top a inA
    obtain ⟨topB, bestB, ofB⟩ := top b inB
    have found := (stands topA bestA).2
    rw [routeKey_eq ofA, sameKey, ← routeKey_eq ofB, (stands topB bestB).2] at found
    rw [← ofA, ← ofB, Option.some.inj found]
  · have inB := (stands b bestB).1
    rw [← (identity_eq.mp same).1, ← (identity_eq.mp same).2.1] at inB
    exact List.inj_on_of_nodup_map (answers _ _).single (stands a bestA).1 inB same

/-- Admitting routes, in any order and any number of times, makes the catalogue answer
with the best route of each instance, exactly when the routes are valid and their keys
and ranks tell them apart. -/
theorem routesFor_answers_iff {P : Primitives} {routes : List DeviceRoute} :
    (∃ answer : String → String → List DeviceRoute,
      (∀ scopeId deviceId, AnswersBest routes scopeId deviceId (answer scopeId deviceId)) ∧
      ∀ calls, (∀ route, route ∈ calls ↔ route ∈ routes) →
        ∃ catalog, admitAll P calls = .ok catalog ∧ catalog.routesFor = answer) ↔
      (∀ route ∈ routes, validateDeviceRoute P route = .ok ()) ∧ ToldApart routes := by
  constructor
  · rintro ⟨answer, answers, admits⟩
    obtain ⟨catalog, ran, rfl⟩ := admits routes fun _ => Iff.rfl
    exact ⟨(admitAll_ok.mp ran).1, toldApart_of_answers ran answers⟩
  · rintro ⟨valid, told⟩
    obtain ⟨first, ran⟩ : ∃ first, admitAll P routes = .ok first :=
      ⟨_, admitAll_ok.mpr ⟨valid, rfl⟩⟩
    refine ⟨first.routesFor, answersBest_of_told told ran, fun calls same => ?_⟩
    obtain ⟨catalog, ran'⟩ : ∃ catalog, admitAll P calls = .ok catalog :=
      ⟨_, admitAll_ok.mpr ⟨fun route inCalls => valid route ((same route).mp inCalls), rfl⟩⟩
    have lookups : ∀ k, catalog.routes.lookup k = first.routes.lookup k := fun k =>
      Option.ext fun route => (lookup_of_told told ran' same).trans
        (lookup_of_told told ran fun _ => Iff.rfl).symm
    refine ⟨catalog, ran', ?_⟩
    unfold DeviceRouteCatalog.routesFor
    rw [Table.orderedValues_congr strKey_injective lookups]

namespace Sample

/-- A route of a device, signed with the key of the device. -/
def deviceRoute (scopeId : String) (device : Nat) (instanceId : String) (sequence : Nat) :
    DeviceRoute :=
  ⟨⟨"mesh-device-route", 1, scopeId, "person", keyId device, instanceId, "endpoint", sequence,
    "10:00", "10:05"⟩, keyId device, letters 86 device, none⟩

def clock : Primitives :=
  { primitives with parseRfc3339 := fun text => some (if text = "10:00" then 0 else 1000000) }

end Sample

open Sample

/-- Two devices sign valid routes of two scopes, and the second takes the place of the
first: the scope of one is the scope and device of the other. -/
theorem routes_of_two_devices_collide :
    let one := deviceRoute ("scope\x00" ++ keyId 1) 2 "tab" 1
    let two := deviceRoute "scope" 1 (keyId 2 ++ "\x00tab") 2
    (∀ route ∈ [(one, letters 43 2), (two, letters 43 1)],
      validateDeviceRoute clock route.1 = .ok () ∧
      publicKeyId clock route.2 = .ok route.1.signerKeyId ∧
      verifySignedEnvelope clock ⟨route.1.payload, route.1.signerKeyId, route.1.signature⟩ route.2
        routeSignatureDomain = .ok true) ∧
    (admitAll clock [one, two]).map (fun catalog =>
      catalog.routesFor one.payload.scopeId one.payload.deviceId) = .ok [] := by
  decide

end MetaMesh
