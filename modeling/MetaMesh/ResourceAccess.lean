import MetaMesh.Grant

/-!
# Access to resources

`resource_access.rs`.  The issuer of a resource challenges a subject, the subject asks for a
connection, the issuer plans a grant, and the subject plans operations under it.  Each of these
is signed by the host between the commands that plan it and the commands that verify it.

`interval` bounds every one of them in time, against clocks that may differ by the tolerance.
`resource_plans_verify` says which plans the verifiers accept.
-/

namespace MetaMesh

open Fallible

def resourceSignatureDomain : String := "MESH-RESOURCE/1"
def requestLifetime : Int := 120000
def grantLifetime : Int := 2592000000
def clockTolerance : Int := 30000
def maxSafe : Int := 9007199254740991

/-- The first instant that is no time for a command. -/
def resourceTimeLimit : Int := maxSafe - grantLifetime

instance : Serialize Int where
  toValue
    | .ofNat n => .number (.posInt n)
    | .negSucc n => .number (.negInt (n + 1))

instance : Serialize PublicIdentity where
  toValue i := .object [("personId", toValue i.personId), ("publicKey", toValue i.publicKey),
    ("displayName", toValue i.displayName)]

/-- A resource that a device offers. -/
structure ResourceDescriptor where
  kind : String
  version : UInt8
  id : String
  title : String
  issuer : PublicIdentity
  audience : String
  epoch : Nat
  actions : List String
  readScope : String
deriving DecidableEq, Repr

/-- A payload signed for a resource. -/
structure ResourceSignature (T : Type) where
  payload : T
  signerKeyId : String
  signature : String
  identity : PublicIdentity
  deviceId : String
  certificates : List DeviceCertificate
deriving DecidableEq, Repr

/-- What a request has to answer. -/
structure Challenge where
  kind : String
  version : UInt8
  requestId : String
  nonce : String
  resourceId : String
  resourceEpoch : Nat
  issuerPersonId : String
  subjectPersonId : String
  audience : String
  actions : List String
  requestedExpiresAt : Int
  issuedAt : Int
  expiresAt : Int
deriving DecidableEq, Repr

/-- A request for access. -/
structure Connection where
  kind : String
  version : UInt8
  requestId : String
  challengeHash : String
  resourceId : String
  issuerPersonId : String
  subjectPersonId : String
  audience : String
  actions : List String
  requestedExpiresAt : Int
  issuedAt : Int
  expiresAt : Int
deriving DecidableEq, Repr

/-- Who may do what, and until when. -/
structure ResourceGrant where
  kind : String
  version : UInt8
  grantId : String
  requestId : String
  resourceId : String
  resourceEpoch : Nat
  issuerPersonId : String
  subjectPersonId : String
  audience : String
  actions : List String
  readScope : String
  issuedAt : Int
  expiresAt : Int
deriving DecidableEq, Repr

/-- One use of a grant. -/
structure ResourceOperation where
  kind : String
  version : UInt8
  nonce : String
  grantHash : String
  resourceId : String
  audience : String
  action : String
  bodyDigest : String
  issuedAt : Int
  expiresAt : Int
deriving DecidableEq, Repr

/-- What an operation is authorized to do. -/
structure ResourceAuthorization where
  resourceId : String
  subjectPersonId : String
  grantId : String
  action : String
  requestId : String
  expiresAt : Int
deriving DecidableEq, Repr

/-- What a host asks of the core. -/
inductive ResourceCommand
  | validateDescriptor (resource : ResourceDescriptor)
  | challengePayload (resource : ResourceDescriptor) (subjectPersonId requestId : String)
      (actions : List String) (requestedExpiresAt : Int) (nonce : String) (now : Int)
  | connectionPayload (resource : ResourceDescriptor) (challenge : ResourceSignature Challenge)
      (subjectPersonId requestId : String) (actions : List String) (requestedExpiresAt now : Int)
  | verifyConnection (resource : ResourceDescriptor) (challenge : ResourceSignature Challenge)
      (request : ResourceSignature Connection) (now : Int)
  | grantPayload (resource : ResourceDescriptor) (challenge : ResourceSignature Challenge)
      (request : ResourceSignature Connection) (actions : List String) (expiresAt : Int)
      (grantId : String) (now : Int)
  | verifyGrant (resource : ResourceDescriptor) (grant : ResourceSignature ResourceGrant)
      (now : Int) (revokedGrants revokedDevices : List String)
  | operationPayload (grant : ResourceSignature ResourceGrant)
      (action bodyDigest nonce : String) (now : Int)
  | authorize (resource : ResourceDescriptor) (grant : ResourceSignature ResourceGrant)
      (proof : ResourceSignature ResourceOperation) (action bodyDigest : String) (now : Int)
      (revokedGrants revokedDevices : List String)
deriving DecidableEq, Repr

/-- What comes of a command. -/
inductive ResourceOutcome
  | descriptor (resource : ResourceDescriptor)
  | challenge (payload : Challenge)
  | connection (payload : Connection)
  | grant (payload : ResourceGrant)
  | operation (payload : ResourceOperation)
  | authorized (authorization : ResourceAuthorization)
deriving DecidableEq, Repr

/-! ## Texts -/

instance : Serialize ResourceDescriptor where
  toValue r := .object [("kind", toValue r.kind), ("version", toValue r.version),
    ("id", toValue r.id), ("title", toValue r.title), ("issuer", toValue r.issuer),
    ("audience", toValue r.audience), ("epoch", toValue r.epoch), ("actions", toValue r.actions),
    ("readScope", toValue r.readScope)]

instance {T : Type} [Serialize T] : Serialize (ResourceSignature T) where
  toValue s := .object [("payload", toValue s.payload), ("signerKeyId", toValue s.signerKeyId),
    ("signature", toValue s.signature), ("identity", toValue s.identity),
    ("deviceId", toValue s.deviceId), ("certificates", toValue s.certificates)]

instance : Serialize Challenge where
  toValue c := .object [("kind", toValue c.kind), ("version", toValue c.version),
    ("requestId", toValue c.requestId), ("nonce", toValue c.nonce),
    ("resourceId", toValue c.resourceId), ("resourceEpoch", toValue c.resourceEpoch),
    ("issuerPersonId", toValue c.issuerPersonId), ("subjectPersonId", toValue c.subjectPersonId),
    ("audience", toValue c.audience), ("actions", toValue c.actions),
    ("requestedExpiresAt", toValue c.requestedExpiresAt), ("issuedAt", toValue c.issuedAt),
    ("expiresAt", toValue c.expiresAt)]

instance : Serialize Connection where
  toValue p := .object [("kind", toValue p.kind), ("version", toValue p.version),
    ("requestId", toValue p.requestId), ("challengeHash", toValue p.challengeHash),
    ("resourceId", toValue p.resourceId), ("issuerPersonId", toValue p.issuerPersonId),
    ("subjectPersonId", toValue p.subjectPersonId), ("audience", toValue p.audience),
    ("actions", toValue p.actions), ("requestedExpiresAt", toValue p.requestedExpiresAt),
    ("issuedAt", toValue p.issuedAt), ("expiresAt", toValue p.expiresAt)]

instance : Serialize ResourceGrant where
  toValue g := .object [("kind", toValue g.kind), ("version", toValue g.version),
    ("grantId", toValue g.grantId), ("requestId", toValue g.requestId),
    ("resourceId", toValue g.resourceId), ("resourceEpoch", toValue g.resourceEpoch),
    ("issuerPersonId", toValue g.issuerPersonId), ("subjectPersonId", toValue g.subjectPersonId),
    ("audience", toValue g.audience), ("actions", toValue g.actions),
    ("readScope", toValue g.readScope), ("issuedAt", toValue g.issuedAt),
    ("expiresAt", toValue g.expiresAt)]

instance : Serialize ResourceOperation where
  toValue o := .object [("kind", toValue o.kind), ("version", toValue o.version),
    ("nonce", toValue o.nonce), ("grantHash", toValue o.grantHash),
    ("resourceId", toValue o.resourceId), ("audience", toValue o.audience),
    ("action", toValue o.action), ("bodyDigest", toValue o.bodyDigest),
    ("issuedAt", toValue o.issuedAt), ("expiresAt", toValue o.expiresAt)]

instance : Serialize ResourceCommand where
  toValue
    | .validateDescriptor resource =>
      .object [("operation", .string "validateDescriptor"), ("resource", toValue resource)]
    | .challengePayload resource subjectPersonId requestId actions requestedExpiresAt nonce now =>
      .object [("operation", .string "challengePayload"), ("resource", toValue resource),
        ("subjectPersonId", toValue subjectPersonId), ("requestId", toValue requestId),
        ("actions", toValue actions), ("requestedExpiresAt", toValue requestedExpiresAt),
        ("nonce", toValue nonce), ("now", toValue now)]
    | .connectionPayload resource challenge subjectPersonId requestId actions requestedExpiresAt
        now =>
        .object [("operation", .string "connectionPayload"), ("resource", toValue resource),
          ("challenge", toValue challenge), ("subjectPersonId", toValue subjectPersonId),
          ("requestId", toValue requestId), ("actions", toValue actions),
          ("requestedExpiresAt", toValue requestedExpiresAt), ("now", toValue now)]
    | .verifyConnection resource challenge request now =>
      .object [("operation", .string "verifyConnection"), ("resource", toValue resource),
        ("challenge", toValue challenge), ("request", toValue request), ("now", toValue now)]
    | .grantPayload resource challenge request actions expiresAt grantId now =>
      .object [("operation", .string "grantPayload"), ("resource", toValue resource),
        ("challenge", toValue challenge), ("request", toValue request),
        ("actions", toValue actions), ("expiresAt", toValue expiresAt),
        ("grantId", toValue grantId), ("now", toValue now)]
    | .verifyGrant resource grant now revokedGrants revokedDevices =>
      .object [("operation", .string "verifyGrant"), ("resource", toValue resource),
        ("grant", toValue grant), ("now", toValue now),
        ("revokedGrants", toValue revokedGrants), ("revokedDevices", toValue revokedDevices)]
    | .operationPayload grant action bodyDigest nonce now =>
      .object [("operation", .string "operationPayload"), ("grant", toValue grant),
        ("action", toValue action), ("bodyDigest", toValue bodyDigest),
        ("nonce", toValue nonce), ("now", toValue now)]
    | .authorize resource grant proof action bodyDigest now revokedGrants revokedDevices =>
      .object [("operation", .string "authorize"), ("resource", toValue resource),
        ("grant", toValue grant), ("proof", toValue proof), ("action", toValue action),
        ("bodyDigest", toValue bodyDigest), ("now", toValue now),
        ("revokedGrants", toValue revokedGrants), ("revokedDevices", toValue revokedDevices)]

/-! ## Checks -/

/-- `char::is_control`. -/
def isControl (c : Char) : Bool :=
  c.val < 32 || (127 ≤ c.val && c.val < 160)

def identifier (value : String) (maximum : Nat) : Bool :=
  value ≠ "" && value.utf8ByteSize ≤ maximum && !value.toList.any isControl

def isActionByte (b : UInt8) : Bool :=
  (48 ≤ b && b ≤ 57) || (65 ≤ b && b ≤ 90) || (97 ≤ b && b ≤ 122) || b ∈ utf8 "._:-"

def validActions (value : List String) : Bool :=
  value ≠ [] && value.length ≤ 32 &&
    value.all (fun action => identifier action 128 && (utf8 action).all isActionByte) &&
    value.Nodup

section Checks

variable (P : Primitives)

def isDigest (value : String) : Bool :=
  (P.base64Decode value).any fun bytes => bytes.length = 32

def validIdentity (value : PublicIdentity) : Bool :=
  match publicKeyId P value.publicKey with
  | .ok id => id = value.personId
  | .error _ => false

variable (r : ResourceDescriptor)

def ValidResource : Prop :=
  r.kind = "mesh-resource" ∧ r.version = 1 ∧ identifier r.id 256 ∧ identifier r.title 512 ∧
    identifier r.audience 2048 ∧ validIdentity P r.issuer ∧ 0 < r.epoch ∧
    (r.epoch : Int) ≤ maxSafe ∧ validActions r.actions ∧ identifier r.readScope 4096
deriving Decidable

def checkResource (value : ResourceDescriptor) : Except String Unit :=
  refuse (¬ ValidResource P value) "Invalid resource descriptor"

/-- The clock of the verifier may be behind the one that issued by the tolerance. -/
def Current (issued expires now maximum : Int) : Prop :=
  0 ≤ now ∧ now < resourceTimeLimit ∧ 0 ≤ issued ∧ issued ≤ now + clockTolerance ∧
    issued < expires ∧
    now < expires ∧ expires ≤ maxSafe ∧ expires - issued ≤ maximum
deriving Decidable

def interval (issued expires now maximum : Int) : Except String Unit :=
  refuse (¬ Current issued expires now maximum) "Resource authorization expired or invalid time"

def resourceHash {T : Type} [Serialize T] (value : T) : Except String String := do
  let canonical ← canonicalizeJson P (toValue value)
  .ok (P.base64Encode (P.sha256 canonical))

def checkSignature {T : Type} [Serialize T] (value : ResourceSignature T) : Except String Unit :=
  verifyDeviceSignedEnvelope P value.identity value.deviceId value.certificates
    (⟨value.payload, value.signerKeyId, value.signature⟩ : SignedEnvelope T) resourceSignatureDomain

def checkIssuer {T : Type} [Serialize T] (value : ResourceSignature T)
    (expected : PublicIdentity) : Except String Unit := do
  refuse (¬ (value.identity.personId = expected.personId ∧
    value.identity.publicKey = expected.publicKey)) "Resource issuer mismatch"
  checkSignature P value

def ChallengeBinds (c : Challenge) (now : Int) : Prop :=
  c.kind = "mesh-resource-challenge" ∧ c.version = 1 ∧ c.resourceId = r.id ∧
    c.resourceEpoch = r.epoch ∧ c.issuerPersonId = r.issuer.personId ∧ c.audience = r.audience ∧
    isDigest P c.subjectPersonId ∧ isDigest P c.nonce ∧ identifier c.requestId 128 ∧
    validActions c.actions ∧ (∀ action ∈ c.actions, action ∈ r.actions) ∧
    now < c.requestedExpiresAt ∧ c.requestedExpiresAt - c.issuedAt ≤ grantLifetime
deriving Decidable

def verifyChallenge (signed : ResourceSignature Challenge) (now : Int) : Except String Unit := do
  checkResource P r
  checkIssuer P signed r.issuer
  let c := signed.payload
  interval c.issuedAt c.expiresAt now requestLifetime
  refuse (¬ ChallengeBinds P r c now) "Resource challenge binding mismatch"

def ConnectionBinds (challengeHash subject : String) (c : Challenge) (p : Connection) : Prop :=
  p.challengeHash = challengeHash ∧ p.requestId = c.requestId ∧ p.resourceId = c.resourceId ∧
    p.issuerPersonId = c.issuerPersonId ∧ p.subjectPersonId = c.subjectPersonId ∧
    subject = c.subjectPersonId ∧ p.audience = c.audience ∧ p.actions = c.actions ∧
    p.requestedExpiresAt = c.requestedExpiresAt ∧ p.expiresAt ≤ c.expiresAt
deriving Decidable

/-- The answer to a valid challenge. -/
def verifyConnection (challenge : ResourceSignature Challenge)
    (request : ResourceSignature Connection) (now : Int) : Except String Unit := do
  verifyChallenge P r challenge now
  checkSignature P request
  let c := challenge.payload
  let p := request.payload
  interval p.issuedAt p.expiresAt now requestLifetime
  refuse (¬ (p.kind = "mesh-resource-connection" ∧ p.version = 1))
    "Resource connection binding mismatch"
  let challengeHash ← resourceHash P challenge
  refuse (¬ ConnectionBinds challengeHash request.identity.personId c p)
    "Resource connection binding mismatch"

def GrantBinds (g : ResourceGrant) : Prop :=
  g.kind = "mesh-resource-grant" ∧ g.version = 1 ∧ identifier g.grantId 128 ∧
    identifier g.requestId 128 ∧ g.resourceId = r.id ∧ g.resourceEpoch = r.epoch ∧
    g.issuerPersonId = r.issuer.personId ∧ g.audience = r.audience ∧
    isDigest P g.subjectPersonId ∧ validActions g.actions ∧
    (∀ action ∈ g.actions, action ∈ r.actions) ∧ g.readScope = r.readScope
deriving Decidable

/-- A grant of the issuer that is current and not revoked. -/
def verifyGrant (grant : ResourceSignature ResourceGrant) (now : Int)
    (revoked devices : List String) : Except String Unit := do
  checkResource P r
  checkIssuer P grant r.issuer
  let g := grant.payload
  refuse (¬ (g.grantId ∉ revoked ∧ grant.deviceId ∉ devices)) "Resource grant revoked"
  interval g.issuedAt g.expiresAt now grantLifetime
  refuse (¬ GrantBinds P r g) "Resource grant binding mismatch"

/-! ## Commands -/

def maxResourceCommandBytes : Nat := 131072

def OperationBinds (g : ResourceGrant) (p : ResourceOperation)
    (grantHash subject action bodyDigest : String) : Prop :=
  p.grantHash = grantHash ∧ subject = g.subjectPersonId ∧ p.resourceId = r.id ∧
    p.audience = r.audience ∧ p.action = action ∧ action ∈ g.actions ∧
    p.bodyDigest = bodyDigest ∧ isDigest P bodyDigest ∧ isDigest P p.nonce ∧
    p.expiresAt ≤ g.expiresAt
deriving Decidable

/-- The match of `evaluate_resource_access` over the command it has read. -/
def runResourceCommand : ResourceCommand → Except String ResourceOutcome
  | .validateDescriptor r => do
      checkResource P r
      .ok (.descriptor r)
  | .challengePayload r subjectPersonId requestId requested requestedExpiresAt nonce now => do
      checkResource P r
      interval now requestedExpiresAt now grantLifetime
      refuse (¬ (isDigest P subjectPersonId ∧ isDigest P nonce ∧ identifier requestId 128 ∧
        validActions requested ∧ ∀ action ∈ requested, action ∈ r.actions))
        "Invalid resource connection options"
      .ok (.challenge ⟨"mesh-resource-challenge", 1, requestId, nonce, r.id, r.epoch,
        r.issuer.personId, subjectPersonId, r.audience, requested, requestedExpiresAt, now,
        now + requestLifetime⟩)
  | .connectionPayload r challenge subjectPersonId requestId actions requestedExpiresAt now => do
      verifyChallenge P r challenge now
      let c := challenge.payload
      refuse (¬ (subjectPersonId = c.subjectPersonId ∧ requestId = c.requestId ∧
        actions = c.actions ∧ requestedExpiresAt = c.requestedExpiresAt))
        "Resource challenge request mismatch"
      let challengeHash ← resourceHash P challenge
      .ok (.connection ⟨"mesh-resource-connection", 1, requestId, challengeHash, r.id,
        r.issuer.personId, subjectPersonId, r.audience, actions, requestedExpiresAt, now,
        c.expiresAt⟩)
  | .verifyConnection r challenge request now => do
      verifyConnection P r challenge request now
      .ok (.connection request.payload)
  | .grantPayload r challenge request approved expiresAt grantId now => do
      verifyConnection P r challenge request now
      interval now expiresAt now grantLifetime
      refuse (¬ (validActions approved ∧ (∀ action ∈ approved, action ∈ request.payload.actions) ∧
        expiresAt ≤ request.payload.requestedExpiresAt ∧ identifier grantId 128))
        "Approval exceeds requested resource access"
      .ok (.grant ⟨"mesh-resource-grant", 1, grantId, request.payload.requestId, r.id, r.epoch,
        r.issuer.personId, request.identity.personId, r.audience, approved, r.readScope, now,
        expiresAt⟩)
  | .verifyGrant r grant now revokedGrants revokedDevices => do
      verifyGrant P r grant now revokedGrants revokedDevices
      .ok (.grant grant.payload)
  | .operationPayload grant action bodyDigest nonce now => do
      checkSignature P grant
      interval grant.payload.issuedAt grant.payload.expiresAt now grantLifetime
      refuse (¬ (identifier action 128 ∧ isDigest P bodyDigest ∧ isDigest P nonce))
        "Invalid resource operation"
      let grantHash ← resourceHash P grant
      .ok (.operation ⟨"mesh-resource-operation", 1, nonce, grantHash, grant.payload.resourceId,
        grant.payload.audience, action, bodyDigest, now,
        min (now + requestLifetime) grant.payload.expiresAt⟩)
  | .authorize r grant proof action bodyDigest now revokedGrants revokedDevices => do
      verifyGrant P r grant now revokedGrants revokedDevices
      checkSignature P proof
      let p := proof.payload
      let g := grant.payload
      interval p.issuedAt p.expiresAt now requestLifetime
      refuse (proof.deviceId ∈ revokedDevices) "Resource device revoked"
      refuse (¬ (p.kind = "mesh-resource-operation" ∧ p.version = 1))
        "Resource operation binding mismatch"
      let grantHash ← resourceHash P grant
      refuse (¬ OperationBinds P r g p grantHash proof.identity.personId action bodyDigest)
        "Resource operation binding mismatch"
      .ok (.authorized ⟨r.id, g.subjectPersonId, g.grantId, action, p.nonce, p.expiresAt⟩)

/-- `evaluate_resource_access` on the JSON of a command. -/
def evaluateResourceAccess (command : ResourceCommand) : Except String ResourceOutcome := do
  let input ← canonicalizeJson P (toValue command)
  refuse (maxResourceCommandBytes < input.length) "Resource command exceeds size limit"
  runResourceCommand P command

end Checks

/-! ## What a command that returns has checked -/

section Inversion

variable {P : Primitives} {r : ResourceDescriptor} {challenge : ResourceSignature Challenge}
  {request : ResourceSignature Connection} {grant : ResourceSignature ResourceGrant}
  {proof : ResourceSignature ResourceOperation} {now : Int}

/-- The command is no larger than a command may be. -/
def CommandFits (P : Primitives) (command : ResourceCommand) : Prop :=
  ∃ text, canonicalizeJson P (toValue command) = .ok text ∧ text.length ≤ maxResourceCommandBytes

instance (P : Primitives) (command : ResourceCommand) : Decidable (CommandFits P command) :=
  decidable_of_iff ((canonicalizeJson P (toValue command)).toOption.any fun text =>
      text.length ≤ maxResourceCommandBytes) (by
    unfold CommandFits
    cases canonicalizeJson P (toValue command) <;> simp [Except.toOption])

theorem evaluateResourceAccess_ok {command : ResourceCommand} {outcome : ResourceOutcome} :
    evaluateResourceAccess P command = .ok outcome ↔
      CommandFits P command ∧ runResourceCommand P command = .ok outcome := by
  unfold evaluateResourceAccess CommandFits
  simp only [bind_ok, ↓refuse_bind_ok, Nat.not_lt, ← and_assoc, exists_and_right]

theorem interval_ok {issued expires maximum : Int} :
    interval issued expires now maximum = .ok () ↔ Current issued expires now maximum := by
  simp only [interval, refuse_ok, not_not]

theorem verifyChallenge_ok :
    verifyChallenge P r challenge now = .ok () ↔
      checkResource P r = .ok () ∧ checkIssuer P challenge r.issuer = .ok () ∧
        Current challenge.payload.issuedAt challenge.payload.expiresAt now requestLifetime ∧
        ChallengeBinds P r challenge.payload now := by
  simp only [verifyChallenge, check_bind_ok, interval_ok, refuse_ok, not_not]

theorem verifyConnection_ok :
    verifyConnection P r challenge request now = .ok () ↔
      verifyChallenge P r challenge now = .ok () ∧ checkSignature P request = .ok () ∧
        Current request.payload.issuedAt request.payload.expiresAt now requestLifetime ∧
        (request.payload.kind = "mesh-resource-connection" ∧ request.payload.version = 1) ∧
        ∃ challengeHash, resourceHash P challenge = .ok challengeHash ∧
          ConnectionBinds challengeHash request.identity.personId challenge.payload
            request.payload := by
  simp only [verifyConnection, check_bind_ok, interval_ok]
  simp only [bind_ok, refuse_ok, not_not]

theorem verifyGrant_ok {revoked devices : List String} :
    verifyGrant P r grant now revoked devices = .ok () ↔
      checkResource P r = .ok () ∧ checkIssuer P grant r.issuer = .ok () ∧
        (grant.payload.grantId ∉ revoked ∧ grant.deviceId ∉ devices) ∧
        Current grant.payload.issuedAt grant.payload.expiresAt now grantLifetime ∧
        GrantBinds P r grant.payload := by
  simp only [verifyGrant, check_bind_ok, interval_ok, refuse_ok, not_not]

end Inversion

/-! ## Plans and verdicts -/

section Plans

variable {P : Primitives} {r : ResourceDescriptor} {challenge : ResourceSignature Challenge}
  {request : ResourceSignature Connection} {connection : Connection}
  {grant : ResourceSignature ResourceGrant} {plan : ResourceGrant}
  {proof : ResourceSignature ResourceOperation} {operation : ResourceOperation} {t now : Int}

/-- A device of the person signed the payload. -/
structure SignedBy {T : Type} [Serialize T] (P : Primitives) (person : String) (payload : T)
    (signed : ResourceSignature T) : Prop where
  payload_eq : signed.payload = payload
  person_eq : signed.identity.personId = person
  valid : checkSignature P signed = .ok ()

/-- What is current stays so until it expires. -/
theorem Current.later {issued expires maximum : Int} (current : Current issued expires t maximum)
    (after : t ≤ now) (unexpired : now < expires) (inTime : now < resourceTimeLimit) :
    Current issued expires now maximum := by
  obtain ⟨started, _, positive, tolerated, ordered, _, safe, short⟩ := current
  exact ⟨by omega, inTime, positive, by omega, ordered, unexpired, safe, short⟩

theorem verifyChallenge_later (verified : verifyChallenge P r challenge t = .ok ())
    (after : t ≤ now) (unexpired : now < challenge.payload.expiresAt)
    (requested : now < challenge.payload.requestedExpiresAt) (inTime : now < resourceTimeLimit) :
    verifyChallenge P r challenge now = .ok () := by
  obtain ⟨resource, issuer, current, binds⟩ := verifyChallenge_ok.mp verified
  obtain ⟨kind, version, id, epoch, person, audience, subject, nonce, requestId, actions,
    offered, _, bounded⟩ := binds
  exact verifyChallenge_ok.mpr ⟨resource, issuer, current.later after unexpired inTime, kind,
    version, id, epoch, person, audience, subject, nonce, requestId, actions, offered, requested,
    bounded⟩

/-- A planned connection takes its expiry from the challenge and its issue time from the subject's
clock, so the verifier's bound on its lifetime is a bound on how far apart the two are. -/
theorem verifyConnection_planned {subject requestId : String} {actions : List String}
    {requestedExpiresAt : Int}
    (planned : runResourceCommand P (.connectionPayload r challenge subject requestId actions
      requestedExpiresAt t) = .ok (.connection connection))
    (signed : SignedBy P connection.subjectPersonId connection request) (after : t ≤ now)
    (unexpired : now < challenge.payload.expiresAt)
    (requested : now < challenge.payload.requestedExpiresAt) :
    verifyConnection P r challenge request now = .ok () ↔
      now < resourceTimeLimit ∧ challenge.payload.expiresAt - t ≤ requestLifetime := by
  simp only [runResourceCommand, check_bind_ok] at planned
  simp only [bind_ok, refuse_ok, not_not, Except.ok.injEq, ResourceOutcome.connection.injEq]
    at planned
  obtain ⟨verified, ⟨rfl, rfl, rfl, rfl⟩, challengeHash, hashed, rfl⟩ := planned
  obtain ⟨_, _, current, binds⟩ := verifyChallenge_ok.mp verified
  obtain ⟨same, person, valid⟩ := signed
  rw [verifyConnection_ok, same]
  constructor
  · intro ⟨_, _, accepted, _⟩
    exact ⟨accepted.2.1, accepted.2.2.2.2.2.2.2⟩
  · intro ⟨inTime, short⟩
    have later := verifyChallenge_later verified after unexpired requested inTime
    have accepted : Current t challenge.payload.expiresAt now requestLifetime := by
      obtain ⟨started, _, _, _, _, opens, safe, _⟩ := current
      exact ⟨by omega, inTime, started, by unfold clockTolerance; omega, opens, unexpired, safe,
        short⟩
    obtain ⟨_, _, id, _, issuer, audience, _⟩ := binds
    exact ⟨later, valid, accepted, ⟨rfl, rfl⟩, challengeHash, hashed, rfl, rfl, id.symm,
      issuer.symm, rfl, person, audience.symm, rfl, rfl, le_rfl⟩

/-- The issuer's own plan binds to its resource. -/
theorem grantBinds_planned {approved : List String} {expiresAt : Int} {grantId : String}
    (planned : runResourceCommand P (.grantPayload r challenge request approved expiresAt grantId
      t) = .ok (.grant plan)) :
    checkResource P r = .ok () ∧ GrantBinds P r plan ∧
      Current plan.issuedAt plan.expiresAt t grantLifetime ∧ plan.issuedAt = t := by
  simp only [runResourceCommand, check_bind_ok, interval_ok, refuse_ok, not_not,
    Except.ok.injEq, ResourceOutcome.grant.injEq] at planned
  obtain ⟨verified, current, ⟨valid, asked, _, named⟩, rfl⟩ := planned
  obtain ⟨verified, _, _, _, challengeHash, _, binds⟩ := verifyConnection_ok.mp verified
  obtain ⟨_, sameRequest, _, _, _, subject, _, sameActions, _, _⟩ := binds
  obtain ⟨resource, _, _, challengeBinds⟩ := verifyChallenge_ok.mp verified
  obtain ⟨_, _, _, _, _, _, digest, _, requestId, _, offered, _⟩ := challengeBinds
  refine ⟨resource, ⟨rfl, rfl, named, ?_, rfl, rfl, rfl, rfl, ?_, valid, ?_, rfl⟩, current, rfl⟩
  · exact sameRequest ▸ requestId
  · exact subject ▸ digest
  · intro action approvedAction
    exact offered action (sameActions ▸ asked action approvedAction)

section

variable {revoked devices : List String} (resource : checkResource P r = .ok ())
  (binds : GrantBinds P r plan) (signed : SignedBy P r.issuer.personId plan grant)
  (key : grant.identity.publicKey = r.issuer.publicKey) (unrevoked : plan.grantId ∉ revoked)
  (trusted : grant.deviceId ∉ devices)
include resource binds signed key unrevoked trusted

/-- The grant its issuer signed is accepted at the times it is current. -/
theorem verifyGrant_signed (current : Current plan.issuedAt plan.expiresAt t grantLifetime)
    (after : t ≤ now) (unexpired : now < plan.expiresAt) :
    verifyGrant P r grant now revoked devices = .ok () ↔ now < resourceTimeLimit := by
  obtain ⟨same, person, valid⟩ := signed
  have issuer : checkIssuer P grant r.issuer = .ok () := by
    rw [checkIssuer, check_bind_ok, refuse_ok, not_not]
    exact ⟨⟨person, key⟩, valid⟩
  rw [verifyGrant_ok, same]
  constructor
  · intro ⟨_, _, _, accepted, _⟩
    exact accepted.2.1
  · intro inTime
    exact ⟨resource, issuer, ⟨unrevoked, trusted⟩, current.later after unexpired inTime, binds⟩

/-- A planned operation is capped by its grant, so it is current whenever it is open. -/
theorem authorize_planned {action bodyDigest nonce : String} {t₁ : Int}
    (planned : runResourceCommand P (.operationPayload grant action bodyDigest nonce t₁) =
      .ok (.operation operation)) (granted : action ∈ plan.actions)
    (proved : SignedBy P plan.subjectPersonId operation proof) (after : t₁ ≤ now)
    (unexpired : now < operation.expiresAt) (trustedProof : proof.deviceId ∉ devices) :
    runResourceCommand P (.authorize r grant proof action bodyDigest now revoked devices) =
        .ok (.authorized ⟨r.id, plan.subjectPersonId, plan.grantId, action, nonce,
          operation.expiresAt⟩) ↔ now < resourceTimeLimit := by
  simp only [runResourceCommand, check_bind_ok, interval_ok] at planned ⊢
  simp only [@bind_ok _ String, refuse_bind_ok, refuse_ok, not_not, Except.ok.injEq,
    ResourceOutcome.operation.injEq, ResourceOutcome.authorized.injEq] at planned ⊢
  obtain ⟨_, current, ⟨_, digest, freshness⟩, grantHash, hashed, rfl⟩ := planned
  obtain ⟨sameProof, person, valid⟩ := proved
  have same := signed.payload_eq
  rw [same] at current
  simp only [same] at sameProof unexpired
  have capped : now < t₁ + requestLifetime ∧ now < plan.expiresAt := lt_min_iff.mp unexpired
  have verdict := verifyGrant_signed resource binds signed key unrevoked trusted current after
    capped.2
  rw [verdict, sameProof, same]
  constructor
  · intro ⟨inTime, _⟩
    exact inTime
  · intro inTime
    have accepted : Current t₁ (min (t₁ + requestLifetime) plan.expiresAt) now requestLifetime := by
      obtain ⟨started, _, _, _, _, _, safe, _⟩ := current
      unfold Current clockTolerance
      unfold requestLifetime at capped ⊢
      omega
    obtain ⟨_, _, _, _, id, _, _, audience, _⟩ := binds
    exact ⟨inTime, valid, accepted, trustedProof, ⟨rfl, rfl⟩, grantHash, hashed,
      ⟨rfl, person, id, audience, rfl, granted, rfl, digest, freshness, min_le_right _ _⟩, rfl⟩

end

/-- A signed connection is accepted until its expiry exactly when the challenge expires within a
request's lifetime of the subject's clock.  Grants and operations are accepted until theirs. -/
theorem resource_plans_verify {subject requestId : String} {actions : List String}
    {requestedExpiresAt : Int}
    (planned : evaluateResourceAccess P (.connectionPayload r challenge subject requestId actions
      requestedExpiresAt t) = .ok (.connection connection))
    (signed : SignedBy P connection.subjectPersonId connection request) :
    (∀ now, t ≤ now → now < challenge.payload.expiresAt →
      now < challenge.payload.requestedExpiresAt →
      (evaluateResourceAccess P (.verifyConnection r challenge request now) =
          .ok (.connection connection) ↔
        CommandFits P (.verifyConnection r challenge request now) ∧ now < resourceTimeLimit ∧
          challenge.payload.expiresAt - t ≤ requestLifetime)) ∧
    ∀ approved expiresAt grantId t₁ plan,
      evaluateResourceAccess P (.grantPayload r challenge request approved expiresAt grantId t₁) =
        .ok (.grant plan) →
      ∀ grant, SignedBy P r.issuer.personId plan grant →
        grant.identity.publicKey = r.issuer.publicKey →
      (∀ now revoked devices, t₁ ≤ now → now < plan.expiresAt → plan.grantId ∉ revoked →
        grant.deviceId ∉ devices →
        (evaluateResourceAccess P (.verifyGrant r grant now revoked devices) = .ok (.grant plan) ↔
          CommandFits P (.verifyGrant r grant now revoked devices) ∧ now < resourceTimeLimit)) ∧
      ∀ action bodyDigest nonce t₂ operation, action ∈ plan.actions →
        evaluateResourceAccess P (.operationPayload grant action bodyDigest nonce t₂) =
          .ok (.operation operation) →
        ∀ proof, SignedBy P plan.subjectPersonId operation proof →
        ∀ now revoked devices, t₂ ≤ now → now < operation.expiresAt → plan.grantId ∉ revoked →
          grant.deviceId ∉ devices → proof.deviceId ∉ devices →
          (evaluateResourceAccess P
              (.authorize r grant proof action bodyDigest now revoked devices) =
              .ok (.authorized ⟨r.id, plan.subjectPersonId, plan.grantId, action, nonce,
                operation.expiresAt⟩) ↔
            CommandFits P (.authorize r grant proof action bodyDigest now revoked devices) ∧
              now < resourceTimeLimit) := by
  have plannedRun := (evaluateResourceAccess_ok.mp planned).2
  refine ⟨?_, ?_⟩
  · intro now after unexpired requested
    rw [evaluateResourceAccess_ok, ← verifyConnection_planned plannedRun signed after unexpired
      requested]
    simp only [runResourceCommand, check_bind_ok, signed.payload_eq, and_true]
  intro approved expiresAt grantId t₁ plan approval grant issued key
  have approvalRun := (evaluateResourceAccess_ok.mp approval).2
  obtain ⟨resource, binds, current, _⟩ := grantBinds_planned approvalRun
  refine ⟨?_, ?_⟩
  · intro now revoked devices after unexpired unrevoked trusted
    rw [evaluateResourceAccess_ok, ← verifyGrant_signed resource binds issued key unrevoked
      trusted current after unexpired]
    simp only [runResourceCommand, check_bind_ok, issued.payload_eq, and_true]
  · intro action bodyDigest nonce t₂ operation granted operates proof proved now revoked devices
      after unexpired unrevoked trusted trustedProof
    have operatesRun := (evaluateResourceAccess_ok.mp operates).2
    rw [evaluateResourceAccess_ok, authorize_planned resource binds issued key unrevoked
      trusted operatesRun granted proved after unexpired trustedProof]

end Plans

namespace Sample

def resourceIdentity (person : Nat) : PublicIdentity :=
  ⟨keyId person, letters 43 person, "Fixture"⟩

def signResource {T : Type} (person device : Nat) (payload : T) : ResourceSignature T :=
  ⟨payload, keyId device, letters 86 device, resourceIdentity person, keyId device,
    [certificate person device]⟩

def board : ResourceDescriptor :=
  ⟨"mesh-resource", 1, "board-a", "Board A", resourceIdentity 1, "https://board.example", 1,
    ["read", "create"], "Entire Board A"⟩

def boardChallenge (issuedAt : Int) : Challenge :=
  ⟨"mesh-resource-challenge", 1, "request-one", letters 43 9, "board-a", 1, keyId 1, keyId 3,
    "https://board.example", ["read"], issuedAt + 60000, issuedAt, issuedAt + 120000⟩

def boardConnection (issuedAt now : Int) : Connection :=
  ⟨"mesh-resource-connection", 1, "request-one",
    ((resourceHash primitives (signResource 1 2 (boardChallenge issuedAt))).toOption).getD "",
    "board-a", keyId 1, keyId 3, "https://board.example", ["read"], issuedAt + 60000, now,
    issuedAt + 120000⟩

def boardGrant (now : Int) : ResourceGrant :=
  ⟨"mesh-resource-grant", 1, "grant-one", "request-one", "board-a", 1, keyId 1, keyId 3,
    "https://board.example", ["read"], "Entire Board A", now, now + 50000⟩

def boardOperation (grantedAt now : Int) : ResourceOperation :=
  ⟨"mesh-resource-operation", 1, letters 43 8,
    ((resourceHash primitives (signResource 1 2 (boardGrant grantedAt))).toOption).getD "",
    "board-a", "https://board.example", "read", letters 43 7, now, grantedAt + 50000⟩

theorem signedBy_signResource {T : Type} [Serialize T] (person device : Nat) (payload : T)
    (valid : checkSignature primitives (signResource person device payload) = .ok ()) :
    SignedBy primitives (keyId person) payload (signResource person device payload) :=
  ⟨rfl, rfl, valid⟩

end Sample

open Sample

set_option maxRecDepth 100000

/-- Node 3 connects to the board of node 1, is granted the right to read, and reads. -/
theorem resource_plans_verify_board :
    evaluateResourceAccess primitives (.verifyConnection board
        (signResource 1 2 (boardChallenge 1000))
        (signResource 3 4 (boardConnection 1000 1200)) 1500) =
      .ok (.connection (boardConnection 1000 1200)) ∧
    evaluateResourceAccess primitives (.verifyGrant board
        (signResource 1 2 (boardGrant 1600)) 2000 [] []) =
      .ok (.grant (boardGrant 1600)) ∧
    evaluateResourceAccess primitives (.authorize board (signResource 1 2 (boardGrant 1600))
        (signResource 3 4 (boardOperation 1600 1400)) "read" (letters 43 7)
        2000 [] []) =
      .ok (.authorized ⟨"board-a", keyId 3, "grant-one", "read", letters 43 8, 51600⟩) := by
  obtain ⟨connects, grants⟩ := resource_plans_verify
    (show evaluateResourceAccess primitives (.connectionPayload board
      (signResource 1 2 (boardChallenge 1000)) (keyId 3) "request-one"
      ["read"] 61000 1200) = .ok (.connection (boardConnection 1000 1200)) by
        decide)
    (signedBy_signResource 3 4 (boardConnection 1000 1200) (by decide))
  obtain ⟨granted, operates⟩ := grants ["read"] 51600 "grant-one" 1600 (boardGrant 1600)
    (by decide) _
    (signedBy_signResource 1 2 (boardGrant 1600) (by decide)) rfl
  refine ⟨(connects 1500 ?_ ?_ ?_).mpr ?_, (granted 2000 [] [] ?_ ?_ ?_ ?_).mpr ?_,
    (operates "read" (letters 43 7) (letters 43 8) 1400 (boardOperation 1600 1400) ?_ ?_ _
      (signedBy_signResource 3 4 (boardOperation 1600 1400) ?_) 2000 [] []
      ?_ ?_ ?_ ?_ ?_).mpr ?_⟩
  all_goals decide

/-- The issuer's clock is one millisecond ahead of the subject's.  The subject plans a connection
for the challenge it was sent, and the verifier refuses it as too long. -/
theorem planned_connection_refused :
    evaluateResourceAccess primitives (.challengePayload board (keyId 3)
        "request-one" ["read"] 61001 (letters 43 9) 1001) =
      .ok (.challenge (boardChallenge 1001)) ∧
    evaluateResourceAccess primitives (.connectionPayload board
        (signResource 1 2 (boardChallenge 1001)) (keyId 3) "request-one"
        ["read"] 61001 1000) = .ok (.connection (boardConnection 1001 1000)) ∧
    SignedBy primitives (keyId 3) (boardConnection 1001 1000)
      (signResource 3 4 (boardConnection 1001 1000)) ∧
    evaluateResourceAccess primitives (.verifyConnection board
        (signResource 1 2 (boardChallenge 1001))
        (signResource 3 4 (boardConnection 1001 1000)) 1002) =
      .error "Resource authorization expired or invalid time" := by
  refine ⟨by decide, by decide +kernel, signedBy_signResource 3 4 _ ?_,
    by decide⟩
  decide

end MetaMesh
