import MetaMesh.Browser.Authority
import MetaMesh.Browser.ProfileValues

/-!
# Profile history

`packages/mesh-identity/src/identityProfile.ts` without its revocations.  A person's
profile is a set of signed operations, each with a vector clock, and of unsigned legacy
observations that operations supersede.  `readIdentityProfileState` verifies a state and
puts it in order, `mergeIdentityProfileState` joins two, `createIdentityProfileOperation`
signs one more operation, and `identityProfileValue` is what a field shows.
-/

namespace MetaMesh.Browser

open Fallible

def maxContextEntries : Nat := 256
def maxStateBytes : Nat := 1024 * 1024

/-- One edit of a profile, with the clock of its device. -/
structure ProfilePayload where
  kind : String
  version : UInt8
  personId : String
  deviceId : String
  counter : Int
  context : Record Int
  field : IdentityProfileField
  value : IdentityProfileValue
  supersedesLegacy : List String
deriving DecidableEq

/-- A signed edit with the certificates of its time. -/
structure IdentityProfileOperation where
  signed : SignedEnvelope ProfilePayload
  certificates : List DeviceCertificate
deriving DecidableEq

/-- A value from before there were operations. -/
structure LegacyObservation where
  id : String
  field : IdentityProfileField
  value : IdentityProfileValue
deriving DecidableEq

/-- The operations and observations of a profile. -/
structure IdentityProfileState where
  version : UInt8
  personId : String
  operations : List IdentityProfileOperation
  legacy : List LegacyObservation
deriving DecidableEq

/-- The device that signs here. -/
structure LocalDevice where
  deviceId : String
  publicKey : String
  displayName : String

/-- `sign` is what the device's private key signs with. -/
structure LocalProfile where
  identity : PublicIdentity
  device : LocalDevice
  certificate : DeviceCertificate
  sign : List UInt8 → Except String String

/-! ## Text of the records -/

def ProfilePayload.fields (p : ProfilePayload) : List (String × Value) :=
  [("kind", toValue p.kind), ("version", toValue p.version), ("personId", toValue p.personId),
    ("deviceId", toValue p.deviceId), ("counter", toValue p.counter),
    ("context", toValue p.context), ("field", toValue p.field), ("value", toValue p.value),
    ("supersedesLegacy", toValue p.supersedesLegacy)]

instance : Serialize ProfilePayload := ⟨fun p => .object p.fields⟩

def IdentityProfileOperation.fields (o : IdentityProfileOperation) : List (String × Value) :=
  [("signed", toValue o.signed), ("certificates", toValue o.certificates)]

instance : Serialize IdentityProfileOperation := ⟨fun o => .object o.fields⟩

def LegacyObservation.fields (o : LegacyObservation) : List (String × Value) :=
  [("id", toValue o.id), ("field", toValue o.field), ("value", toValue o.value)]

instance : Serialize LegacyObservation := ⟨fun o => .object o.fields⟩

def IdentityProfileState.fields (s : IdentityProfileState) : List (String × Value) :=
  [("version", toValue s.version), ("personId", toValue s.personId),
    ("operations", toValue s.operations), ("legacy", toValue s.legacy)]

instance : Serialize IdentityProfileState := ⟨fun s => .object s.fields⟩

/-! ## Operations -/

def operationId (operation : IdentityProfileOperation) : String :=
  numbered operation.signed.payload.deviceId operation.signed.payload.counter

/-- `context[deviceId] ?? 0`. -/
def seenCount (operation : IdentityProfileOperation) (deviceId : String) : Int :=
  (operation.signed.payload.context.lookup deviceId).getD 0

def precedes (before after : IdentityProfileOperation) : Bool :=
  before.signed.payload.counter ≤ seenCount after before.signed.payload.deviceId

section Reading

variable (P : Primitives) (B : Platform)

def legacyId (field : IdentityProfileField) (value : IdentityProfileValue) :
    Except String String := do
  let canonical ← canonicalizeJson P (.array [toValue field, toValue value])
  .ok (P.base64Encode (P.sha256 canonical))

def boundedSnapshot (state : IdentityProfileState) : Except String Unit := do
  refuse (maxStateBytes < (toValue state).toVec.length)
    "Identity profile evidence exceeds size limit"
  refuse (state.version ≠ 1) "Identity profile state requires an update"

/-- The part of `parseOperation` that the types leave. -/
def parseOperation (operation : IdentityProfileOperation) : Except String Unit :=
  let payload := operation.signed.payload
  refuse (payload.kind ≠ "identity-profile-update" ∨ payload.version ≠ 1 ∨
    isSafeInteger payload.counter = false) "Invalid identity profile operation"

/-- One operation alone: its form, its device's authority, its signature. -/
def verifyOperation (operation : IdentityProfileOperation) (identity : PublicIdentity)
    (certificates : List DeviceCertificate) : Except String Unit := do
  let payload := operation.signed.payload
  validateValue B payload.field payload.value
  refuse (payload.kind ≠ "identity-profile-update" ∨ payload.version ≠ 1 ∨
    payload.personId ≠ identity.personId ∨ payload.deviceId ≠ operation.signed.signerKeyId ∨
    isSafeInteger payload.counter = false ∨ payload.counter < 1 ∨
    maxContextEntries < payload.context.keys.card ∨
    seenCount operation payload.deviceId ≠ payload.counter - 1 ∨
    maxOperations < payload.supersedesLegacy.length ∨ ¬ payload.supersedesLegacy.Nodup ∨
    operation.certificates = [] ∨ 32 < operation.certificates.length)
    "Invalid identity profile revision"
  payload.context.items.forM fun entry =>
    refuse (isHash entry.1 = false ∨ isSafeInteger entry.2 = false ∨ entry.2 < 0)
      "Invalid identity profile causal context"
  payload.supersedesLegacy.forM fun id =>
    refuse (isHash id = false) "Invalid legacy profile reference"
  let chain := if operation.certificates ≠ [] then operation.certificates else certificates
  let leaf ← okOr (chain.find? fun certificate => certificate.payload.deviceId = payload.deviceId)
    "Device lacks identity management authority"
  refuse (leaf.payload.canEnrollDevices = false) "Device lacks identity management authority"
  let key ← verifyDeviceCertificateChain P identity payload.deviceId chain defaultSignatureDomain
  let verified ← verifyEnvelope P operation.signed key defaultSignatureDomain
  refuse (verified = false) "Invalid identity profile signature"

/-- Files an item under its key, where nothing else may stand. -/
def addAgreed {T : Type} [Serialize T] (key : T → String) (conflict : String)
    (filed : Table String T) (item : T) : Except String (Table String T) := do
  match filed.lookup (key item) with
  | none => .ok ()
  | some previous => do
      let before ← canonicalizeJson P (toValue previous)
      let now ← canonicalizeJson P (toValue item)
      refuse (before ≠ now) conflict
  .ok (filed.insert (key item) item)

def addOperation : Table String IdentityProfileOperation → IdentityProfileOperation →
    Except String (Table String IdentityProfileOperation) :=
  addAgreed P operationId "Identity profile device equivocation"

def readOperation (identity : PublicIdentity) (certificates : List DeviceCertificate)
    (operations : Table String IdentityProfileOperation) (operation : IdentityProfileOperation) :
    Except String (Table String IdentityProfileOperation) := do
  parseOperation operation
  verifyOperation P B operation identity certificates
  addOperation P operations operation

def verifyObservation (observation : LegacyObservation) : Except String Unit := do
  refuse (observation.field = .rustyServicePin) "Invalid legacy profile observation"
  validateValue B observation.field observation.value
  let id ← legacyId P observation.field observation.value
  refuse (id ≠ observation.id) "Imported profile contents do not match their proof"

def readObservation (legacy : Table String LegacyObservation) (observation : LegacyObservation) :
    Except String (Table String LegacyObservation) :=
  verifyObservation P B observation >>= fun _ => .ok (legacy.insert observation.id observation)

/-! ## Causality -/

def validateDependency (byId : Table String IdentityProfileOperation)
    (operation : IdentityProfileOperation) (entry : String × Int) : Except String Unit :=
  if entry.2 = 0 then .ok ()
  else do
    let dependency ← okOr (byId.lookup (numbered entry.1 entry.2))
      "Missing signed identity profile causal evidence"
    dependency.signed.payload.context.items.forM fun seen =>
      refuse (seenCount operation seen.1 < seen.2) "Contradictory identity profile causal context"
    refuse (precedes operation dependency = true) "Cyclic identity profile causal context"

variable (operations : List IdentityProfileOperation)

/-- What an operation has seen is there, with all that this has seen. -/
def validateCausality : Except String Unit :=
  let byId := Table.insertAll operationId operations (∅ : Table String IdentityProfileOperation)
  operations.forM fun operation =>
    operation.signed.payload.context.items.forM (validateDependency byId operation)

/-! ## Service pins -/

def servicePin (operation : IdentityProfileOperation) : Option IdentityRustyServicePin :=
  match operation.signed.payload.field, operation.signed.payload.value with
  | .rustyServicePin, .pin pin => some pin
  | _, _ => none

def identityProfileRustyServicePins : Except String (List IdentityRustyServicePin) := do
  let byOrigin ← (operations.filterMap servicePin).foldlM
    (addAgreed P (fun pin => pin.origin) "Conflicting Rusty service key for origin")
    (∅ : Table String IdentityRustyServicePin)
  .ok (byOrigin.orderedValues unitKey)

/-! ## States -/

/-- What an operation supersedes must be there, and of its field. -/
def verifySuperseded (legacy : Table String LegacyObservation)
    (operation : IdentityProfileOperation) : Except String Unit :=
  operation.signed.payload.supersedesLegacy.forM fun id => do
    let observation ← okOr (legacy.lookup id) "Missing original profile observation"
    refuse (observation.field ≠ operation.signed.payload.field)
      "Profile observation field does not match its update"

/-- Accepts a state and puts it in order. -/
def readIdentityProfileState (state : IdentityProfileState) (identity : PublicIdentity)
    (certificates : List DeviceCertificate) : Except String IdentityProfileState := do
  boundedSnapshot state
  refuse (state.personId ≠ identity.personId ∨ isHash state.personId = false ∨
    maxOperations < state.operations.length ∨ maxOperations < state.legacy.length)
    "Invalid identity profile state"
  let operations ← state.operations.foldlM (readOperation P B identity certificates)
    (∅ : Table String IdentityProfileOperation)
  let legacy ← state.legacy.foldlM (readObservation P B) (∅ : Table String LegacyObservation)
  let result : IdentityProfileState := ⟨1, state.personId, operations.orderedValues unitKey,
    legacy.orderedValues unitKey⟩
  validateCausality result.operations
  let _ ← identityProfileRustyServicePins P result.operations
  result.operations.forM (verifySuperseded legacy)
  .ok result

/-- The union of two accepted states, if it is accepted. -/
def mergeIdentityProfileState (left right : IdentityProfileState) (identity : PublicIdentity)
    (certificates : List DeviceCertificate) : Except String IdentityProfileState := do
  let a ← readIdentityProfileState P B left identity certificates
  let b ← readIdentityProfileState P B right identity certificates
  let operations ← b.operations.foldlM (addOperation P)
    (Table.insertAll operationId a.operations (∅ : Table String IdentityProfileOperation))
  let legacy := Table.insertAll LegacyObservation.id (a.legacy ++ b.legacy)
    (∅ : Table String LegacyObservation)
  readIdentityProfileState P B ⟨1, identity.personId, operations.values, legacy.values⟩ identity
    certificates

/-! ## A new operation -/

def signEnvelope {T : Type} [Serialize T] (sign : List UInt8 → Except String String) (payload : T)
    (signerKeyId domain : String) : Except String (SignedEnvelope T) := do
  let canonical ← canonicalizeSignatureJson P (toValue payload)
  let signature ← sign (signatureInput (payloadKind payload) canonical domain)
  .ok ⟨payload, signerKeyId, signature⟩

/-- The highest counter of each device. -/
def clockOf : Record Int :=
  operations.foldl
    (fun clock operation =>
      let payload := operation.signed.payload
      clock.insert payload.deviceId (max ((clock.lookup payload.deviceId).getD 0) payload.counter))
    ∅

/-- The legacy observations that an operation on a field supersedes. -/
def supersededBy (state : IdentityProfileState) (field : IdentityProfileField) : List String :=
  sortedSet unitKey unitKey_injective
    ((state.legacy.filter fun item => item.field = field).map (fun item => item.id) ++
      (state.operations.filter fun item => item.signed.payload.field = field).flatMap
        fun item => item.signed.payload.supersedesLegacy).toFinset

/-- `ensureCurrent n` is the outcome of the `n`th call of the caller's guard. -/
def createIdentityProfileOperation (profile : LocalProfile) (state : IdentityProfileState)
    (field : IdentityProfileField) (value : IdentityProfileValue)
    (certificatesValue : Option (List DeviceCertificate))
    (ensureCurrent : Nat → Except String Unit) : Except String IdentityProfileOperation := do
  validateValue B field value
  let certificates := certificatesValue.getD [profile.certificate]
  let current ← readIdentityProfileState P B state profile.identity certificates
  refuse (profile.certificate.payload.deviceId ≠ profile.device.deviceId ∨
    profile.certificate.payload.canEnrollDevices = false)
    "Device lacks identity management authority"
  let key ← verifyDeviceCertificateChain P profile.identity profile.device.deviceId certificates
    defaultSignatureDomain
  refuse (key ≠ profile.device.publicKey ∨ profile.certificate.payload.devicePublicKey ≠ key)
    "Identity profile device key mismatch"
  ensureCurrent 0
  let clock := clockOf current.operations
  let next := (clock.lookup profile.device.deviceId).getD 0 + 1
  refuse (isSafeInteger next = false) "Identity profile revision exhausted"
  let payload : ProfilePayload := ⟨"identity-profile-update", 1, current.personId,
    profile.device.deviceId, next, clock, field, value, supersededBy current field⟩
  ensureCurrent 1
  let signed ← signEnvelope P profile.sign payload profile.device.deviceId defaultSignatureDomain
  ensureCurrent 2
  let operation : IdentityProfileOperation := ⟨signed, certificates⟩
  let _ ← readIdentityProfileState P B
    { current with operations := current.operations ++ [operation] } profile.identity certificates
  .ok operation

end Reading

/-! ## What a field shows -/

/-- How a field stands. -/
inductive ProfileStatus
  | empty
  | value
  | conflict
deriving DecidableEq

/-- `typeof value === "string" ? value : value.avatarData ?? ""`. -/
def valueKey : IdentityProfileValue → String
  | .text text => text
  | .photo avatarData _ => avatarData.getD ""
  | .pin _ => ""

variable (state : IdentityProfileState) (field : IdentityProfileField)

/-- The operations on a field. -/
def fieldOperations : List IdentityProfileOperation :=
  state.operations.filter fun item => item.signed.payload.field = field

/-- The values of a field that no operation on it comes after or supersedes. -/
def openValues : List IdentityProfileValue :=
  let operations := fieldOperations state field
  let superseded := operations.flatMap fun item => item.signed.payload.supersedesLegacy
  (operations.filter fun item => !operations.any (precedes item)).map
      (fun item => item.signed.payload.value) ++
    (state.legacy.filter fun item => item.field = field ∧ item.id ∉ superseded).map
      fun item => item.value

/-- What a name or a photo shows. -/
def presentedValue : ProfileStatus × List IdentityProfileValue :=
  let distinct := Table.insertAll valueKey (openValues state field)
    (∅ : Table String IdentityProfileValue)
  let selected := distinct.orderedValues unitKey
  (if 1 < selected.length then .conflict else if selected = [] then .empty else .value, selected)

def identityProfileValue (P : Primitives) (state : IdentityProfileState)
    (field : IdentityProfileField) : Except String (ProfileStatus × List IdentityProfileValue) :=
  match field with
  | .rustyServicePin => do
      let pins ← identityProfileRustyServicePins P state.operations
      .ok (if pins = [] then .empty else .value, pins.map .pin)
  | field => .ok (presentedValue state field)

end MetaMesh.Browser
