import MetaMesh.Authority

/-!
# Workspace members

`member.rs`.  A peer introduces itself with a bundle: a signed advertisement of its route,
its identity key and certificates, and possibly a grant and the owner's key.  The bundle
is whatever JSON the peer sent.  `verifyWorkspaceMemberBundle` finds the peer's role in it.

Who the owner is, is put together from the options of the caller and, where they are
silent, from the bundle.  `member_role_sound` says what an accepted role then rests on.
-/

namespace MetaMesh

open Fallible

namespace Member

def maxPeerAdvertisementSize : Nat := 65536
def maxEndpointLength : Nat := 2048
def maxStringLength : Nat := 256
def maxFutureToleranceMs : Int := 5 * 60 * 1000
def maxStaleToleranceMs : Int := 30 * 24 * 60 * 60 * 1000

end Member

/-- A peer tells where its device is reached. -/
structure PeerAdvertisementPayload where
  kind : String
  version : UInt8
  workspaceId : String
  personId : String
  deviceId : String
  instanceId : Option String
  endpoint : String
  issuedAt : String
  routeSequence : Option Nat
  expiresAt : Option String
  deviceName : Option String
  userAgent : Option String
deriving DecidableEq, Repr

abbrev PeerAdvertisement := SignedEnvelope PeerAdvertisementPayload

def PeerAdvertisementPayload.fields (p : PeerAdvertisementPayload) : List (String × Value) :=
  [("kind", toValue p.kind), ("version", toValue p.version),
    ("workspaceId", toValue p.workspaceId), ("personId", toValue p.personId),
    ("deviceId", toValue p.deviceId)] ++ optionalField "instanceId" p.instanceId ++
    [("endpoint", toValue p.endpoint), ("issuedAt", toValue p.issuedAt)] ++
    optionalField "routeSequence" p.routeSequence ++ optionalField "expiresAt" p.expiresAt ++
    optionalField "deviceName" p.deviceName ++ optionalField "userAgent" p.userAgent

def PeerAdvertisementPayload.ofValue (v : Value) : Option PeerAdvertisementPayload := do
  let field := fun name => v.structField ["kind", "version", "workspaceId", "personId",
    "deviceId", "instanceId", "endpoint", "issuedAt", "routeSequence", "expiresAt",
    "deviceName", "userAgent"] name
  some ⟨← fromField (field "kind"), ← fromField (field "version"),
    ← fromField (field "workspaceId"), ← fromField (field "personId"),
    ← fromField (field "deviceId"), ← fromOptional (field "instanceId"),
    ← fromField (field "endpoint"), ← fromField (field "issuedAt"),
    ← fromOptional (field "routeSequence"), ← fromOptional (field "expiresAt"),
    ← fromOptional (field "deviceName"), ← fromOptional (field "userAgent")⟩

instance : Serialize PeerAdvertisementPayload := ⟨fun p => .object p.fields⟩
instance : Deserialize PeerAdvertisementPayload := ⟨PeerAdvertisementPayload.ofValue⟩

/-- What the verification may rely on. -/
structure VerifyWorkspaceMemberOptions where
  workspaceId : Option String
  ownerPersonId : Option String
  ownerPublicKey : Option String
  ownerCertificates : List DeviceCertificate
  ownerHistory : List WorkspaceAuthority
  maxByteLength : Option Nat
  allowStaleRoute : Bool

/-- A member whose advertisement and role were verified. -/
structure VerifiedWorkspaceMember where
  advertisement : PeerAdvertisement
  signed : PeerAdvertisement
  payload : PeerAdvertisementPayload
  signerKeyId : String
  signature : String
  publicKey : String
  certificates : List DeviceCertificate
  devicePublicKey : String
  role : WorkspaceRole
  grant : Option WorkspaceGrant
  ownerPublicKey : String
  ownerCertificates : List DeviceCertificate

section Verification

variable (P : Primitives)

/-! ## Fields of the bundle -/

def boundedText (value : String) (max : Nat) : Bool :=
  value ≠ "" ∧ value.utf8ByteSize ≤ max

def parseTime (value : String) : Except String Int := do
  let nanos ← okOr (P.parseRfc3339 value) "Invalid timestamp"
  .ok (nanos.tdiv 1000000)

def requiredString (value : Option Value) (message : String) : Except String String :=
  okOr ((value.bind Value.asStr?).filter (· ≠ "")) message

def valueAs {T : Type} [Deserialize T] (value : Option Value) (message : String) :
    Except String T :=
  okOr (value.bind fromValue) message

/-- The expiry of a route, if it has one: within ten minutes of its issue. -/
def checkExpiry (expiresAt : Option String) (issued : Int) : Except String Unit :=
  match expiresAt with
  | none => .ok ()
  | some text => do
      let expiry ← parseTime P text
      refuse (expiry ≤ issued ∨ issued + 10 * 60 * 1000 < expiry) "Invalid peer route expiry"

def validatePayload (payload : PeerAdvertisementPayload) (opts : VerifyWorkspaceMemberOptions)
    (nowMs : Int) : Except String Unit := do
  refuse (payload.kind ≠ "peer-advertisement" ∨ payload.version ≠ 1 ∨
    boundedText payload.workspaceId Member.maxStringLength = false ∨
    boundedText payload.personId Member.maxStringLength = false ∨
    boundedText payload.deviceId Member.maxStringLength = false ∨
    boundedText payload.endpoint Member.maxEndpointLength = false ∨
    payload.instanceId.any (fun value => !boundedText value Member.maxStringLength) = true)
    "Invalid peer advertisement payload"
  refuse (opts.workspaceId.any (· ≠ payload.workspaceId) = true)
    "Workspace ID does not match expected workspace"
  let issued ← parseTime P payload.issuedAt
  refuse (nowMs + Member.maxFutureToleranceMs < issued)
    "Peer advertisement timestamp is in the future (> 5 minutes)"
  refuse (opts.allowStaleRoute = false ∧ issued < nowMs - Member.maxStaleToleranceMs)
    "Peer advertisement timestamp is stale (> 30 days)"
  checkExpiry P payload.expiresAt issued

variable (object : List (String × Value))

/-- `payload.and(signature)` is the signature: a bundle without an envelope is read from
its own `signature` field. -/
def rawAdvertisement : Option Value :=
  ((object.lookup "advertisement").or (object.lookup "signed")).or
    ((object.lookup "payload").bind fun _ => object.lookup "signature")

def bundleGrant : Except String (Option WorkspaceGrant) :=
  match object.lookup "grant" with
  | none => .ok none
  | some .null => .ok none
  | some value => (valueAs (some value) "Invalid workspace grant").map some

/-! ## The owner -/

variable (opts : VerifyWorkspaceMemberOptions)

/-- The owner's key, from the options or else from the bundle. -/
def givenOwnerKey : Option String :=
  opts.ownerPublicKey.or ((object.lookup "ownerPublicKey").bind Value.asStr?)

/-- The key that counts as the owner's: the member's own where none is given and no grant
asks for one. -/
def claimedOwnerKey (grant : Option WorkspaceGrant) (publicKey : String) : Option String :=
  let given := givenOwnerKey object opts
  if given = none ∧ grant = none then some publicKey else given

def claimedOwnerId (ownerPublicKey : Option String) : Except String (Option String) :=
  match opts.ownerPersonId, ownerPublicKey with
  | some id, _ => .ok (some id)
  | none, some key => (publicKeyId P key).map some
  | none, none => .ok none

def claimedOwnerCertificates : Except String (List DeviceCertificate) := do
  let embedded ← match object.lookup "ownerCertificates" with
    | none => .ok []
    | some .null => .ok []
    | some value => valueAs (some value) "Invalid owner certificate chain"
  let certificates := opts.ownerCertificates ++ embedded
  refuse (maxCertificateChainLength < certificates.length) "Invalid owner certificate chain"
  .ok certificates

def isOwner (personId publicKey : String) (ownerPersonId ownerPublicKey : Option String) : Bool :=
  ownerPersonId = some personId ∨ ownerPublicKey = some publicKey ∨
    (ownerPublicKey.bind fun key => (publicKeyId P key).toOption) = some personId

/-- The role of the grant under the first authority that verifies it. -/
def grantedRole (grant : Option WorkspaceGrant) (workspaceId personId : String)
    (authorities : List WorkspaceAuthority) : Except String WorkspaceRole :=
  okOr (authorities.findSome? fun authority => grant.bind fun grant =>
      (verifyWorkspaceGrant P grant workspaceId personId authority.identity
        authority.certificates).toOption)
    (if grant = none then "Invalid workspace grant" else "Invalid workspace grant signature")

/-- The claimed owner, or the role of a grant from an owner, present or past. -/
def memberRole (payload : PeerAdvertisementPayload) (publicKey : String)
    (grant : Option WorkspaceGrant) (ownerPersonId ownerPublicKey : Option String)
    (ownerCertificates : List DeviceCertificate) : Except String WorkspaceRole :=
  if isOwner P payload.personId publicKey ownerPersonId ownerPublicKey then
    .ok .owner
  else do
    let personId ← okOr ownerPersonId "Missing workspace owner"
    let key ← okOr ownerPublicKey "Missing workspace owner"
    grantedRole P grant (opts.workspaceId.getD payload.workspaceId) payload.personId
      (⟨personId, key, ownerCertificates⟩ :: opts.ownerHistory)

/-- Verifies what a peer presents of itself. -/
def verifyWorkspaceMemberBundle (raw : Value) (opts : VerifyWorkspaceMemberOptions)
    (nowMs : Int) : Except String VerifiedWorkspaceMember := do
  refuse (opts.maxByteLength.getD Member.maxPeerAdvertisementSize < raw.toVec.length)
    "Peer advertisement too large"
  let object ← okOr raw.asObject? "Invalid peer advertisement bundle: must be an object"
  let rawAdvertisement ← okOr (rawAdvertisement object) "Missing peer advertisement in bundle"
  let advertisement : PeerAdvertisement ← okOr (fromValue rawAdvertisement)
    "Invalid peer advertisement payload"
  validatePayload P advertisement.payload opts nowMs
  refuse (advertisement.signerKeyId ≠ advertisement.payload.deviceId)
    "Advertisement signerKeyId does not match deviceId"
  let publicKey ← requiredString (object.lookup "publicKey") "Missing member identity public key"
  let personId ← publicKeyId P publicKey
  refuse (personId ≠ advertisement.payload.personId) "Identity does not match its key"
  let certificates : List DeviceCertificate ← valueAs (object.lookup "certificates")
    "Missing device certificates in bundle"
  let devicePublicKey ← verifyDeviceCertificateChain P
    ⟨advertisement.payload.personId, publicKey, ""⟩ advertisement.payload.deviceId certificates
    defaultSignatureDomain
  let signed ← verifySignedEnvelope P advertisement devicePublicKey defaultSignatureDomain
  refuse (signed = false) "Invalid advertisement signature"
  let grant ← bundleGrant object
  let ownerPublicKey := claimedOwnerKey object opts grant publicKey
  let ownerPersonId ← claimedOwnerId P opts ownerPublicKey
  let ownerCertificates ← claimedOwnerCertificates object opts
  let role ← memberRole P opts advertisement.payload publicKey grant ownerPersonId
    ownerPublicKey ownerCertificates
  .ok ⟨advertisement, advertisement, advertisement.payload, advertisement.signerKeyId,
    advertisement.signature, publicKey, certificates, devicePublicKey, role, grant,
    ownerPublicKey.getD "", ownerCertificates⟩

/-! ## What a role rests on -/

/-- A grant with a signature of the authority: by its root key, or by a device that the
authority's certificates lead to. -/
def OwnerSigned (grant : WorkspaceGrant) (authority : WorkspaceAuthority) : Prop :=
  publicKeyId P authority.publicKey = .ok authority.personId ∧
    (verifySignedEnvelope P grant authority.publicKey defaultSignatureDomain = .ok true ∨
      ∃ key, verifyDeviceCertificateChain P authority.identity grant.signerKeyId
          authority.certificates defaultSignatureDomain = .ok key ∧
        verifySignedEnvelope P grant key defaultSignatureDomain = .ok true)

/-- The bundle carries a grant of the role for the person that one of the owners signed. -/
def CarriesGrant (raw : Value) (owners : WorkspaceAuthority → Prop) (personId : String)
    (role : WorkspaceRole) : Prop :=
  ∃ object value grant authority, raw.asObject? = some object ∧
    object.lookup "grant" = some value ∧ fromValue value = some grant ∧
    grant.payload.personId = personId ∧ grant.payload.role = role ∧ owners authority ∧
    OwnerSigned P grant authority

/-- A person stands in for the owner: the key that is given for the owner is theirs, or
none is given and the bundle has no grant. -/
def StandsIn (raw : Value) (personId : String) : Prop :=
  ∃ object, raw.asObject? = some object ∧
    ((∃ key, givenOwnerKey object opts = some key ∧ publicKeyId P key = .ok personId) ∨
      givenOwnerKey object opts = none ∧ bundleGrant object = .ok none)

variable {P opts} {grant : Option WorkspaceGrant} {personId publicKey owner : String}
  {role : WorkspaceRole}

theorem bundleGrant_eq_some {object : List (String × Value)} {grant : WorkspaceGrant}
    (read : bundleGrant object = .ok (some grant)) :
    ∃ value, object.lookup "grant" = some value ∧ fromValue value = some grant := by
  unfold bundleGrant at read
  split at read
  · cases read
  · cases read
  · next value _ found =>
    refine ⟨value, found, ?_⟩
    cases parsed : (fromValue value : Option WorkspaceGrant) with
    | none => simp [valueAs, okOr, parsed, Except.map] at read
    | some other => simpa [valueAs, okOr, parsed, Except.map] using read

theorem grantedRole_ok {workspaceId : String} {authorities : List WorkspaceAuthority}
    (granted : grantedRole P grant workspaceId personId authorities = .ok role) :
    ∃ g authority, grant = some g ∧ authority ∈ authorities ∧
      verifyWorkspaceGrant P g workspaceId personId authority.identity authority.certificates =
        .ok role := by
  obtain ⟨authority, listed, found⟩ := List.exists_of_findSome?_eq_some (okOr_ok.mp granted)
  obtain ⟨g, present, verified⟩ := Option.bind_eq_some_iff.mp found
  exact ⟨g, authority, present, listed, toOption_eq_some.mp verified⟩

/-- A role is the owner's, or comes from a grant. -/
theorem memberRole_ok {payload : PeerAdvertisementPayload}
    {ownerPublicKey : Option String} {ownerCertificates : List DeviceCertificate}
    (found : memberRole P opts payload publicKey grant (some owner) ownerPublicKey
      ownerCertificates = .ok role) :
    isOwner P payload.personId publicKey (some owner) ownerPublicKey = true ∧ role = .owner ∨
      isOwner P payload.personId publicKey (some owner) ownerPublicKey = false ∧
      ∃ g authority, grant = some g ∧ (authority.personId = owner ∨ authority ∈ opts.ownerHistory) ∧
        g.payload.personId = payload.personId ∧ g.payload.role = role ∧
        OwnerSigned P g authority := by
  unfold memberRole at found
  split at found
  · next owns => exact .inl ⟨owns, (Except.ok.inj found).symm⟩
  · next owns =>
    obtain ⟨personId, named, found⟩ := bind_ok.mp found
    obtain ⟨key, _, found⟩ := bind_ok.mp found
    obtain rfl := Option.some.inj (okOr_ok.mp named)
    obtain ⟨g, authority, present, listed, verified⟩ := grantedRole_ok found
    obtain ⟨gives, person, signed⟩ := verifyWorkspaceGrant_ok verified
    refine .inr ⟨Bool.eq_false_of_not_eq_true owns, g, authority, present, ?_, person, gives.symm,
      signed⟩
    rcases List.mem_cons.mp listed with rfl | former
    · exact .inl rfl
    · exact .inr former

/-- Who counts as the owner: the expected one, and whoever stands in. -/
theorem isOwner_iff {raw : Value} {object : List (String × Value)}
    (isObject : raw.asObject? = some object) (read : bundleGrant object = .ok grant)
    (hashed : publicKeyId P publicKey = .ok personId) :
    isOwner P personId publicKey (some owner) (claimedOwnerKey object opts grant publicKey) =
      true ↔ personId = owner ∨ StandsIn P opts raw personId := by
  have byKey : ∀ claimed : Option String,
      (claimed = some publicKey ∨
        (claimed.bind fun key => (publicKeyId P key).toOption) = some personId) ↔
      ∃ key, claimed = some key ∧ publicKeyId P key = .ok personId := by
    intro claimed
    simp only [Option.bind_eq_some_iff, toOption_eq_some]
    exact or_iff_right_of_imp fun own => ⟨publicKey, own, hashed⟩
  have standsIn : StandsIn P opts raw personId ↔
      ∃ key, claimedOwnerKey object opts grant publicKey = some key ∧
        publicKeyId P key = .ok personId := by
    simp only [StandsIn, isObject, Option.some.injEq, exists_eq_left', claimedOwnerKey, read,
      Except.ok.injEq]
    cases givenOwnerKey object opts with
    | some key => simp
    | none =>
      cases grant with
      | some g => simp
      | none => simp [hashed]
  simp only [isOwner, decide_eq_true_eq, Option.some.injEq]
  rw [byKey, ← standsIn, eq_comm]

/-- With an expected owner, a role other than the owner's comes from a grant that the
expected or a former owner signed.  The owner's role goes to the expected owner, to whoever
stands in for the owner, and to whoever has such a grant of it. -/
theorem member_role_sound {raw : Value} {opts : VerifyWorkspaceMemberOptions} {nowMs : Int}
    {member : VerifiedWorkspaceMember} {owner : String} (expected : opts.ownerPersonId = some owner)
    (accepted : verifyWorkspaceMemberBundle P raw opts nowMs = .ok member) :
    (member.role ≠ .owner → CarriesGrant P raw
      (fun authority => authority.personId = owner ∨ authority ∈ opts.ownerHistory)
      member.payload.personId member.role) ∧
    (member.role = .owner ↔ member.payload.personId = owner ∨
      StandsIn P opts raw member.payload.personId ∨ CarriesGrant P raw
        (fun authority => authority.personId = owner ∨ authority ∈ opts.ownerHistory)
        member.payload.personId .owner) := by
  obtain ⟨_, accepted⟩ := refuse_bind_ok.mp accepted
  obtain ⟨object, isObject, accepted⟩ := bind_ok.mp accepted
  obtain ⟨_, _, accepted⟩ := bind_ok.mp accepted
  obtain ⟨advertisement, _, accepted⟩ := bind_ok.mp accepted
  obtain ⟨_, accepted⟩ := check_bind_ok.mp accepted
  obtain ⟨_, accepted⟩ := refuse_bind_ok.mp accepted
  obtain ⟨publicKey, _, accepted⟩ := bind_ok.mp accepted
  obtain ⟨personId, hashed, accepted⟩ := bind_ok.mp accepted
  obtain ⟨same, accepted⟩ := refuse_bind_ok.mp accepted
  obtain ⟨_, _, accepted⟩ := bind_ok.mp accepted
  obtain ⟨_, _, accepted⟩ := bind_ok.mp accepted
  obtain ⟨_, _, accepted⟩ := bind_ok.mp accepted
  obtain ⟨_, accepted⟩ := refuse_bind_ok.mp accepted
  obtain ⟨grant, read, accepted⟩ := bind_ok.mp accepted
  obtain ⟨ownerPersonId, named, accepted⟩ := bind_ok.mp accepted
  obtain ⟨ownerCertificates, _, accepted⟩ := bind_ok.mp accepted
  obtain ⟨role, found, returned⟩ := bind_ok.mp accepted
  obtain rfl := Except.ok.inj returned
  rw [not_not.mp same] at hashed
  simp only [claimedOwnerId, expected] at named
  obtain rfl := Except.ok.inj named
  have owners := @isOwner_iff P opts _ _ _ owner _ _ (okOr_ok.mp isObject) read hashed
  rcases memberRole_ok found with
    ⟨owns, rfl⟩ | ⟨disowns, g, authority, rfl, trusted, person, gives, signed⟩
  · have owner := owners.mp owns
    rw [← or_assoc]
    exact ⟨fun other => absurd rfl other, fun _ => .inl owner, fun _ => rfl⟩
  · obtain ⟨value, held, parsed⟩ := bundleGrant_eq_some read
    have carries : CarriesGrant P raw
        (fun authority => authority.personId = owner ∨ authority ∈ opts.ownerHistory)
        advertisement.payload.personId role :=
      ⟨object, value, g, authority, okOr_ok.mp isObject, held, parsed, person, gives,
        trusted, signed⟩
    rw [← or_assoc, ← owners, disowns, or_iff_right Bool.false_ne_true]
    refine ⟨fun _ => carries, fun isOwner => isOwner ▸ carries, fun carried => ?_⟩
    -- the bundle has one grant, so the carried one is the one that was verified
    obtain ⟨object', value', g', _, isObject', held', parsed', _, gives', _⟩ := carried
    obtain rfl : object = object' := Option.some.inj ((okOr_ok.mp isObject).symm.trans isObject')
    obtain rfl := Option.mem_unique held held'
    obtain rfl := Option.mem_unique parsed parsed'
    exact gives.symm.trans gives'

end Verification

/-! ## Bundles to evaluate with -/

namespace Sample

/-- What a person's device sends, with a grant or without one. -/
def bundle (member : Nat) (grant : Option WorkspaceGrant) : Value :=
  let advertisement : PeerAdvertisement :=
    ⟨⟨"peer-advertisement", 1, "workspace", keyId member, keyId member, none, "endpoint", time,
      none, none, none, none⟩, keyId member, letters 86 member⟩
  .object ([("advertisement", toValue advertisement), ("publicKey", toValue (letters 43 member)),
    ("certificates", toValue [certificate member member])] ++ optionalField "grant" grant)

def memberOptions (owner : Nat) (ownerPublicKey : Option String) : VerifyWorkspaceMemberOptions :=
  ⟨some "workspace", some (keyId owner), ownerPublicKey, [certificate owner owner], [], none, false⟩

/-- The person a bundle is accepted for, and the role. -/
def admitted (raw : Value) (opts : VerifyWorkspaceMemberOptions) :
    Option (String × WorkspaceRole) :=
  (verifyWorkspaceMemberBundle primitives raw opts 0).toOption.map fun member =>
    (member.payload.personId, member.role)

end Sample

set_option maxRecDepth 100000

open Sample in
theorem member_role_sound_sample : ∃ member,
    verifyWorkspaceMemberBundle primitives (bundle 1 (some (grant 0 1 .editor)))
      (memberOptions 0 (some (letters 43 0))) 0 = .ok member ∧ member.role = .editor ∧
    CarriesGrant primitives (bundle 1 (some (grant 0 1 .editor)))
      (fun authority => authority.personId = keyId 0 ∨ authority ∈ []) member.payload.personId
      member.role := by
  have shown : admitted (bundle 1 (some (grant 0 1 .editor)))
      (memberOptions 0 (some (letters 43 0))) = some (keyId 1, .editor) := by decide
  obtain ⟨member, accepted, same⟩ := Option.map_eq_some_iff.mp shown
  rw [toOption_eq_some] at accepted
  have role : member.role = .editor := congrArg Prod.snd same
  have other : member.role ≠ .owner := by
    rw [role]
    decide
  exact ⟨member, accepted, role, (member_role_sound rfl accepted).1 other⟩

open Sample in
/-- Owner 0 is expected, and person 1 is accepted as an owner: without the owner's key, on
the person's own key; with it, on a grant. -/
theorem owner_role_of_another :
    keyId 1 ≠ keyId 0 ∧
    admitted (bundle 1 none) (memberOptions 0 none) = some (keyId 1, .owner) ∧
    admitted (bundle 1 (some (grant 0 1 .owner))) (memberOptions 0 (some (letters 43 0))) =
      some (keyId 1, .owner) := by
  decide

end MetaMesh
