import MetaMesh.Browser.Certificates
import MetaMesh.Browser.Record

/-!
# Conversations

`packages/mesh-messaging`, and the descriptors of `packages/mesh-blob` that messages carry.
A conversation is a document of participants and messages.  Everyone but its creator is in
it by a grant, which another participant signed.

A grant is checked against the record of its issuer in the same document.  `Rooted` says
what membership is meant to rest on: a line of grants, each signed by the next person, that
ends at the creator.  `conversation_rooted_iff` says when an accepted document has it, and
when a document keeps it into which somebody was added, or added again.
-/

namespace MetaMesh.Browser

open Fallible Ancestry

def messagingSignatureDomain : String := "MESH-MESSAGING/1"
def maxMessageLength : Nat := 4000
def maxAttachments : Nat := 4
def maxBlobBytes : Int := 8 * 1024 * 1024

/-! ## Text -/

def normalizeTitle (value : String) : Except String String := do
  let title := String.ofList (joinRuns isSpace (trim value).toList)
  refuse (title = "" ∨ 120 < title.length) "Conversation title must contain 1–120 characters"
  .ok title

def normalizeBody (value : String) (hasAttachments : Bool) : Except String String := do
  let body := trim value
  refuse ((body = "" ∧ hasAttachments = false) ∨ maxMessageLength < body.length)
    "Message must contain 1–4,000 characters, or an attachment"
  .ok body

/-! ## Attachments -/

/-- An attachment. -/
structure BlobDescriptor where
  kind : String
  version : UInt8
  blobId : String
  name : String
  mediaType : String
  size : Int
  hash : Option String
  ticket : Option String
deriving DecidableEq

instance : Serialize BlobDescriptor where
  toValue b := .object ([("kind", toValue b.kind), ("version", toValue b.version),
    ("blobId", toValue b.blobId), ("name", toValue b.name), ("mediaType", toValue b.mediaType),
    ("size", toValue b.size)] ++ optionalField "hash" b.hash ++ optionalField "ticket" b.ticket)

def isValidBlobId (blobId : String) : Bool :=
  let text := blobId.toList
  (text.take 7 = "sha256:".toList && hasShape isBase64Url 43 (text.drop 7)) ||
    (text.take 7 = "blake3:".toList && hasShape isHex 64 (text.drop 7))

def normalizeName (value : String) : Except String String := do
  let name := String.ofList (sliceUnits 180
    ((trim value).toList.filter fun c => !(c.toNat ≤ 0x1f || c.toNat = 0x7f)))
  refuse (name = "") "Blob name is required"
  .ok name

/-- `[\w.+-]`. -/
def isMediaLetter (c : Char) : Bool :=
  c.isAlphanum || c = '_' || c = '.' || c = '+' || c = '-'

def isMediaType (text : List Char) : Bool :=
  let parts := text.span (· ≠ '/')
  parts.1 ≠ [] && parts.1.all isMediaLetter && parts.2.drop 1 ≠ [] &&
    (parts.2.drop 1).all isMediaLetter

def normalizeMediaType (value : String) : String :=
  let mediaType := (trim value).toLower.toList
  if isMediaType mediaType then String.ofList (sliceUnits 120 mediaType)
  else "application/octet-stream"

def validateBlobDescriptor (value : BlobDescriptor) : Except String Unit := do
  let error := "Invalid blob descriptor; files must be 1 byte–8 MiB"
  refuse (value.kind ≠ "blob" ∨ value.version ≠ 1 ∨ isValidBlobId value.blobId = false ∨
    value.hash.any (fun hash => value.blobId.toList.take 7 ≠ "blake3:".toList ||
      hash.toList ≠ value.blobId.toList.drop 7) = true) error
  let name ← normalizeName value.name
  refuse (name ≠ value.name ∨ normalizeMediaType value.mediaType ≠ value.mediaType ∨
    isSafeInteger value.size = false ∨ value.size < 1 ∨ maxBlobBytes < value.size) error

/-! ## Documents -/

/-- What a participant may do. -/
inductive ConversationRole
  | member
  | admin
deriving DecidableEq

instance : Serialize ConversationRole :=
  ⟨fun | .member => .string "member" | .admin => .string "admin"⟩

/-- Someone is taken into the conversation. -/
structure ConversationGrantPayload where
  kind : String
  version : UInt8
  conversationId : String
  issuerPersonId : String
  issuerDeviceId : String
  memberPersonId : String
  role : ConversationRole
  createdAt : String
deriving DecidableEq

abbrev ConversationGrant := SignedEnvelope ConversationGrantPayload

instance : Serialize ConversationGrantPayload where
  toValue p := .object [("kind", toValue p.kind), ("version", toValue p.version),
    ("conversationId", toValue p.conversationId), ("issuerPersonId", toValue p.issuerPersonId),
    ("issuerDeviceId", toValue p.issuerDeviceId), ("memberPersonId", toValue p.memberPersonId),
    ("role", toValue p.role), ("createdAt", toValue p.createdAt)]

/-- An identity with its certificates and grant. -/
structure ConversationParticipant where
  identity : PublicIdentity
  certificates : List DeviceCertificate
  grant : Option ConversationGrant
deriving DecidableEq

/-- What a message says. -/
structure MessagePayload where
  kind : String
  version : UInt8
  conversationId : String
  messageId : String
  authorPersonId : String
  authorDeviceId : String
  body : String
  attachments : Option (List BlobDescriptor)
  createdAt : String
deriving DecidableEq

abbrev Message := SignedEnvelope MessagePayload

instance : Serialize MessagePayload where
  toValue p := .object ([("kind", toValue p.kind), ("version", toValue p.version),
    ("conversationId", toValue p.conversationId), ("messageId", toValue p.messageId),
    ("authorPersonId", toValue p.authorPersonId), ("authorDeviceId", toValue p.authorDeviceId),
    ("body", toValue p.body)] ++ optionalField "attachments" p.attachments ++
    [("createdAt", toValue p.createdAt)])

/-- Between two, or in a group. -/
inductive RoomKind
  | direct
  | group
deriving DecidableEq

/-- A conversation as it is stored. -/
structure ConversationDocument where
  kind : String
  version : UInt8
  roomKind : RoomKind
  conversationId : String
  title : String
  creatorPersonId : String
  participants : Record ConversationParticipant
  messages : Record Message

def ConversationDocument.withParticipant (doc : ConversationDocument)
    (record : ConversationParticipant) : ConversationDocument :=
  { doc with participants := doc.participants.insert record.identity.personId record }

section Verification

variable (P : Primitives) (doc : ConversationDocument)

/-- The grant is for this person and signed by the creator or an admin. -/
def verifyGrant (participant : ConversationParticipant) : Except String Unit := do
  let grant ← okOr participant.grant "Participant grant missing"
  let payload := grant.payload
  refuse (payload.kind ≠ "conversation-grant" ∨ payload.version ≠ 1 ∨
    payload.conversationId ≠ doc.conversationId ∨
    payload.memberPersonId ≠ participant.identity.personId ∨
    grant.signerKeyId ≠ payload.issuerDeviceId) "Invalid participant grant"
  let issuer ← okOr (doc.participants.lookup payload.issuerPersonId)
    "Participant grant issuer is not an admin"
  refuse (payload.issuerPersonId ≠ doc.creatorPersonId ∧
    issuer.grant.map (fun grant => grant.payload.role) ≠ some .admin)
    "Participant grant issuer is not an admin"
  let key ← verifyDeviceCertificateChain P issuer.identity payload.issuerDeviceId
    issuer.certificates defaultSignatureDomain
  let verified ← verifyEnvelope P grant key messagingSignatureDomain
  refuse (verified = false) "Invalid participant grant signature"

/-- The grant is checked in the document that already has the person. -/
def addConversationParticipant (identity : PublicIdentity) (certificates : List DeviceCertificate)
    (grant : ConversationGrant) : Except String ConversationDocument := do
  let record : ConversationParticipant := ⟨identity, certificates, some grant⟩
  let probe := doc.withParticipant record
  verifyGrant P probe record
  .ok probe

/-- `parseRfc3339` stands for `Date.parse` and gives nanoseconds. -/
def verifyMessage (message : Message) (now : Int) : Except String Unit := do
  let payload := message.payload
  let attachments := payload.attachments.getD []
  refuse (payload.kind ≠ "message" ∨ payload.version ≠ 1 ∨
    payload.conversationId ≠ doc.conversationId ∨ payload.messageId = "" ∨
    message.signerKeyId ≠ payload.authorDeviceId) "Invalid message"
  let body ← normalizeBody payload.body (attachments ≠ [])
  refuse (body ≠ payload.body ∨ maxAttachments < attachments.length ∨
    (attachments.map fun a => a.blobId).toFinset.card ≠ attachments.length) "Invalid message"
  mapErr (attachments.forM validateBlobDescriptor) "Invalid message attachment"
  let timestamp ← okOr (P.parseRfc3339 payload.createdAt) "Invalid message timestamp"
  refuse (now + 5 * 60 * 1000 < timestamp.tdiv 1000000) "Invalid message timestamp"
  let author ← okOr (doc.participants.lookup payload.authorPersonId)
    "Message author is not a participant"
  let key ← verifyDeviceCertificateChain P author.identity payload.authorDeviceId
    author.certificates defaultSignatureDomain
  let verified ← verifyEnvelope P message key messagingSignatureDomain
  refuse (verified = false) "Invalid message signature"

def verifyParticipant (entry : String × ConversationParticipant) : Except String Unit := do
  refuse (entry.2.identity.personId ≠ entry.1) "Invalid participant id"
  if entry.1 ≠ doc.creatorPersonId then verifyGrant P doc entry.2 else .ok ()

def verifyEntry (now : Int) (entry : String × Message) : Except String Unit := do
  refuse (entry.2.payload.messageId ≠ entry.1) "Invalid message id"
  verifyMessage P doc entry.2 now

/-- The creator, then every participant, then every message. -/
def verifyConversation (now : Int) : Except String Unit := do
  refuse (doc.kind ≠ "conversation" ∨ doc.version ≠ 1 ∨ doc.conversationId = "")
    "Invalid conversation"
  let title ← normalizeTitle doc.title
  refuse (title ≠ doc.title) "Invalid conversation"
  let creator ← okOr (doc.participants.lookup doc.creatorPersonId) "Invalid conversation creator"
  refuse (creator.grant ≠ none) "Invalid conversation creator"
  let _ ← verifyDeviceCertificateChain P creator.identity
    ((creator.certificates.head?.map fun c => c.payload.deviceId).getD "") creator.certificates
    defaultSignatureDomain
  doc.participants.items.forM (verifyParticipant P doc)
  doc.messages.items.forM (verifyEntry P doc now)

/-! ## Who vouches for whom -/

/-- The grant of `p` is signed by a certified device of `q`, who is the creator or whose
own grant gives the admin role. -/
structure VouchedBy (p q : String) : Prop where
  signed : ∃ participant grant issuer key, doc.participants.lookup p = some participant ∧
    participant.grant = some grant ∧ grant.payload.memberPersonId = p ∧
    grant.payload.issuerPersonId = q ∧ doc.participants.lookup q = some issuer ∧
    issuer.identity.personId = q ∧
    (q = doc.creatorPersonId ∨ issuer.grant.map (fun grant => grant.payload.role) = some .admin) ∧
    verifyDeviceCertificateChain P issuer.identity grant.payload.issuerDeviceId
      issuer.certificates defaultSignatureDomain = .ok key ∧
    verifyEnvelope P grant key messagingSignatureDomain = .ok true

/-- One step of a line of grants, which ends at the creator. -/
def VouchesFor (p : String) : Option String → Prop
  | none => p = doc.creatorPersonId
  | some q => p ≠ doc.creatorPersonId ∧ VouchedBy P doc p q

/-- Distinct participants, each vouched for by the next, lead from `p` to the creator. -/
def Rooted (p : String) : Prop :=
  ∃ line, Line (VouchesFor P doc) p line ∧ line.Nodup

def AllRooted : Prop :=
  ∀ p ∈ doc.participants, p ≠ doc.creatorPersonId → Rooted P doc p

/-- The grant of `p` names `q` as its issuer. -/
def NamesIssuer (p q : String) : Prop :=
  p ≠ doc.creatorPersonId ∧ ∃ participant grant, doc.participants.lookup p = some participant ∧
    participant.grant = some grant ∧ grant.payload.issuerPersonId = q

/-- Nobody's grant leads back to them along the issuers. -/
def NoCircle : Prop :=
  ∀ p, ¬ Relation.TransGen (NamesIssuer doc) p p

/-- Every participant is filed under their own id. -/
def Named : Prop :=
  ∀ p participant, doc.participants.lookup p = some participant →
    participant.identity.personId = p

/-- Somebody vouches for everyone but the creator. -/
def Vouched : Prop :=
  ∀ p ∈ doc.participants, p ≠ doc.creatorPersonId → ∃ q, VouchedBy P doc p q

variable {P} {doc : ConversationDocument} {p q : String}

theorem VouchedBy.namesIssuer (vouched : VouchedBy P doc p q) (other : p ≠ doc.creatorPersonId) :
    NamesIssuer doc p q := by
  obtain ⟨participant, grant, _, _, found, granted, _, issuer, _⟩ := vouched.signed
  exact ⟨other, participant, grant, found, granted, issuer⟩

theorem VouchedBy.mem (vouched : VouchedBy P doc p q) : q ∈ doc.participants := by
  obtain ⟨_, _, issuer, _, _, _, _, _, found, _⟩ := vouched.signed
  exact Finmap.mem_of_lookup_eq_some found

theorem NamesIssuer.unique {r : String} (one : NamesIssuer doc p q) (two : NamesIssuer doc p r) :
    q = r := by
  obtain ⟨_, participant, grant, found, granted, rfl⟩ := one
  obtain ⟨_, participant', grant', found', granted', rfl⟩ := two
  obtain rfl := Option.mem_unique found found'
  rw [Option.mem_unique granted granted']

theorem verifyGrant_ok {participant : ConversationParticipant} (named : Named doc)
    (found : doc.participants.lookup participant.identity.personId = some participant)
    (checked : verifyGrant P doc participant = .ok ()) :
    ∃ q, VouchedBy P doc participant.identity.personId q := by
  obtain ⟨grant, granted, checked⟩ := bind_ok.mp checked
  obtain ⟨shape, checked⟩ := refuse_bind_ok.mp checked
  obtain ⟨issuer, present, checked⟩ := bind_ok.mp checked
  obtain ⟨entitled, checked⟩ := refuse_bind_ok.mp checked
  obtain ⟨key, certified, checked⟩ := bind_ok.mp checked
  obtain ⟨verified, signed, good⟩ := bind_ok.mp checked
  rw [refuse_ok, Bool.not_eq_false] at good
  rw [good] at signed
  simp only [not_or, not_not] at shape
  exact ⟨grant.payload.issuerPersonId, participant, grant, issuer, key, found,
    okOr_ok.mp granted, shape.2.2.2.1, rfl, okOr_ok.mp present, named _ _ (okOr_ok.mp present),
    or_iff_not_imp_left.mpr fun other => not_not.mp (not_and.mp entitled other), certified,
    signed⟩

theorem verifyConversation_checked {now : Int} (accepted : verifyConversation P doc now = .ok ()) :
    Named doc ∧ Vouched P doc := by
  obtain ⟨_, accepted⟩ := refuse_bind_ok.mp accepted
  obtain ⟨_, _, accepted⟩ := bind_ok.mp accepted
  obtain ⟨_, accepted⟩ := refuse_bind_ok.mp accepted
  obtain ⟨creator, present, accepted⟩ := bind_ok.mp accepted
  obtain ⟨_, accepted⟩ := refuse_bind_ok.mp accepted
  obtain ⟨_, _, accepted⟩ := bind_ok.mp accepted
  obtain ⟨each, _⟩ := check_bind_ok.mp accepted
  have passed : ∀ p participant, doc.participants.lookup p = some participant →
      participant.identity.personId = p ∧
        (p ≠ doc.creatorPersonId → verifyGrant P doc participant = .ok ()) := by
    intro p participant found
    have passed := forM_ok.mp each (p, participant) (Record.mem_items.mpr found)
    obtain ⟨same, passed⟩ := refuse_bind_ok.mp passed
    exact ⟨not_not.mp same, fun other => (if_pos other).symm.trans passed⟩
  have named : Named doc := fun p participant found => (passed p participant found).1
  refine ⟨named, ?_⟩
  intro p member other
  obtain ⟨participant, found⟩ := Finmap.mem_iff.mp member
  obtain ⟨rfl, granted⟩ := passed p participant found
  exact verifyGrant_ok named found (granted other)

/-- A grant of somebody who is vouched for names the one who vouches. -/
theorem Vouched.step_iff (vouched : Vouched P doc) :
    VouchesFor P doc p (some q) ↔ NamesIssuer doc p q := by
  constructor
  · rintro ⟨other, vouched⟩
    exact vouched.namesIssuer other
  · intro names
    obtain ⟨other, _, _, found, _⟩ := id names
    obtain ⟨r, given⟩ := vouched p (Finmap.mem_of_lookup_eq_some found) other
    rw [names.unique (given.namesIssuer other)]
    exact ⟨other, given⟩

/-- Lines to the creator are what somebody's missing voucher and circles leave out. -/
theorem allRooted_iff : AllRooted P doc ↔ Vouched P doc ∧ NoCircle doc := by
  have functional : Vouched P doc → ∀ p a b, VouchesFor P doc p a → VouchesFor P doc p b →
      a = b := by
    rintro vouched p (_ | q) (_ | r) one two
    · rfl
    · exact absurd one two.1
    · exact absurd two one.1
    · rw [(vouched.step_iff.mp one).unique (vouched.step_iff.mp two)]
  constructor
  · intro rooted
    have vouched : Vouched P doc := by
      intro p member other
      obtain ⟨line, led, _⟩ := rooted p member other
      cases led with
      | root isCreator => exact absurd isCreator other
      | child vouches _ => exact ⟨_, vouches.2⟩
    refine ⟨vouched, ?_⟩
    intro p circle
    obtain ⟨_, names, _⟩ := Relation.TransGen.head'_iff.mp circle
    obtain ⟨other, _, _, found, _⟩ := names
    obtain ⟨line, led, _⟩ := rooted p (Finmap.mem_of_lookup_eq_some found) other
    refine acyclic_of_line (functional vouched) led (Relation.TransGen.mono ?_ p p circle)
    exact fun a b names => vouched.step_iff.mpr names
  · intro ⟨vouched, free⟩ p member _
    refine exists_line_of_acyclic ?_ ?_ (Finmap.mem_keys.mpr member)
    · intro a held
      by_cases creator : a = doc.creatorPersonId
      · exact .inl creator
      · obtain ⟨q, given⟩ := vouched a (Finmap.mem_keys.mp held) creator
        exact .inr ⟨q, Finmap.mem_keys.mpr given.mem, creator, given⟩
    · intro a circle
      exact free a (Relation.TransGen.mono (fun x y step => vouched.step_iff.mp step) a a circle)

/-! ## Adding a participant -/

section Added

variable {identity : PublicIdentity} {certificates : List DeviceCertificate}
  {grant : ConversationGrant} {record : ConversationParticipant} {joined : ConversationDocument}

theorem lookup_withParticipant (p : String) :
    (doc.withParticipant record).participants.lookup p =
      if p = record.identity.personId then some record else doc.participants.lookup p :=
  Record.lookup_insert_ite _ _ _ _

theorem Named.withParticipant (named : Named doc) : Named (doc.withParticipant record) := by
  intro p participant found
  rw [lookup_withParticipant] at found
  split at found
  · next same => rw [same, ← Option.some.inj found]
  · exact named p participant found

theorem addConversationParticipant_ok (named : Named doc)
    (accepted : addConversationParticipant P doc identity certificates grant = .ok joined) :
    joined = doc.withParticipant ⟨identity, certificates, some grant⟩ ∧
      ∃ q, VouchedBy P joined identity.personId q := by
  obtain ⟨checked, same⟩ := check_bind_ok.mp accepted
  obtain rfl := Except.ok.inj same
  exact ⟨rfl, verifyGrant_ok named.withParticipant
    (by rw [lookup_withParticipant, if_pos rfl]) checked⟩

/-- Grants between other people are as they were. -/
theorem VouchedBy.withParticipant (vouched : VouchedBy P doc p q)
    (member : p ≠ record.identity.personId) (issuer : q ≠ record.identity.personId) :
    VouchedBy P (doc.withParticipant record) p q := by
  obtain ⟨participant, grant, other, key, found, granted, names, issued, present, rest⟩ :=
    vouched.signed
  refine ⟨participant, grant, other, key, ?_, granted, names, issued, ?_, rest⟩
  · rw [lookup_withParticipant, if_neg member, found]
  · rw [lookup_withParticipant, if_neg issuer, present]

/-- Only the grants that the added person issued have to be looked at again. -/
theorem vouched_withParticipant_iff (named : Named doc) (vouched : Vouched P doc)
    (accepted : addConversationParticipant P doc identity certificates grant = .ok joined) :
    Vouched P joined ↔
      ∀ p, NamesIssuer joined p identity.personId → VouchedBy P joined p identity.personId := by
  obtain ⟨rfl, issuer, added⟩ := addConversationParticipant_ok named accepted
  constructor
  · intro all p names
    exact (all.step_iff.mpr names).2
  · intro issued p member other
    by_cases same : p = identity.personId
    · exact ⟨issuer, same ▸ added⟩
    · obtain ⟨q, given⟩ := vouched p ((Finmap.mem_insert.mp member).resolve_left same) other
      by_cases own : q = identity.personId
      · refine ⟨q, own ▸ issued p ?_⟩
        obtain ⟨_, participant, grant, found, granted, names⟩ := given.namesIssuer other
        refine ⟨other, participant, grant, ?_, granted, names.trans own⟩
        rw [lookup_withParticipant, if_neg same, found]
      · exact ⟨q, given.withParticipant same own⟩

end Added

/-- In an accepted conversation everyone is rooted in the creator exactly if no grants form
a circle.  When somebody is added, or added again with another grant, it stays so exactly
if there is no circle then and the grants that this person issued still count. -/
theorem conversation_rooted_iff {now : Int} (accepted : verifyConversation P doc now = .ok ()) :
    (AllRooted P doc ↔ NoCircle doc) ∧
    ∀ identity certificates grant joined,
      addConversationParticipant P doc identity certificates grant = .ok joined →
      (AllRooted P joined ↔ NoCircle joined ∧
        ∀ p, NamesIssuer joined p identity.personId →
          VouchedBy P joined p identity.personId) := by
  obtain ⟨named, vouched⟩ := verifyConversation_checked accepted
  refine ⟨allRooted_iff.trans (and_iff_right vouched), ?_⟩
  intro identity certificates grant joined added
  rw [allRooted_iff, vouched_withParticipant_iff named vouched added, and_comm]

/-- Where the creator issued every grant there is no circle. -/
theorem noCircle_of_creator (issued : ∀ p q, NamesIssuer doc p q → q = doc.creatorPersonId) :
    NoCircle doc := by
  intro p circle
  obtain ⟨_, first, _⟩ := Relation.TransGen.head'_iff.mp circle
  obtain ⟨q, _, last⟩ := Relation.TransGen.tail'_iff.mp circle
  exact first.1 (issued q p last)

end Verification

/-! ## Conversations to evaluate with -/

namespace Sample

open MetaMesh.Sample

def conversationGrant (issuer member : Nat) (role : ConversationRole) : ConversationGrant :=
  ⟨⟨"conversation-grant", 1, "chat", keyId issuer, keyId issuer, keyId member, role,
    "2026-01-01T00:00:00.000Z"⟩, keyId issuer, letters 86 issuer⟩

def participant (code : Nat) (grant : Option ConversationGrant) : ConversationParticipant :=
  ⟨person code, [certificate code code], grant⟩

/-- A conversation of person 0 with nobody else. -/
def conversation : ConversationDocument :=
  ⟨"conversation", 1, .group, "chat", "Chat", keyId 0,
    Record.ofList [(keyId 0, participant 0 none)], ∅⟩

/-- Person 1 is an admin by the creator's grant. -/
def rootedConversation : ConversationDocument :=
  conversation.withParticipant (participant 1 (some (conversationGrant 0 1 .admin)))

/-- Person 1 is an admin by their own grant. -/
def circularConversation : ConversationDocument :=
  conversation.withParticipant (participant 1 (some (conversationGrant 1 1 .admin)))

/-- The admin let person 2 in. -/
def grownConversation : ConversationDocument :=
  rootedConversation.withParticipant (participant 2 (some (conversationGrant 1 2 .member)))

/-- The admin is a member again. -/
def demotedConversation : ConversationDocument :=
  grownConversation.withParticipant (participant 1 (some (conversationGrant 0 1 .member)))

end Sample

open MetaMesh.Sample Sample

theorem rootedConversation_issuer {p q : String} (names : NamesIssuer rootedConversation p q) :
    q = keyId 0 := by
  obtain ⟨other, holder, grant, found, granted, issuer⟩ := names
  rw [rootedConversation, lookup_withParticipant] at found
  split at found
  · rw [← Option.some.inj found, participant, Option.some.injEq] at granted
    rw [← issuer, ← granted]
    rfl
  · have absent := Finmap.lookup_insert_of_ne (∅ : Record ConversationParticipant)
      (b := participant 0 none) other
    exact absurd (found.symm.trans absent) (Option.some_ne_none _)

theorem conversation_rooted_iff_sample :
    verifyConversation primitives conversation 0 = .ok () ∧
    addConversationParticipant primitives conversation (person 1) [certificate 1 1]
      (conversationGrant 0 1 .admin) = .ok rootedConversation ∧
    AllRooted primitives rootedConversation := by
  have accepted : verifyConversation primitives conversation 0 = .ok () := by decide
  have added : addConversationParticipant primitives conversation (person 1) [certificate 1 1]
      (conversationGrant 0 1 .admin) = .ok rootedConversation := by rfl
  refine ⟨accepted, added, ((conversation_rooted_iff accepted).2 _ _ _ _ added).mpr
    ⟨noCircle_of_creator fun p q names => rootedConversation_issuer names, ?_⟩⟩
  -- the creator issued the only grant
  intro p names
  exact absurd (rootedConversation_issuer names) (by decide)

/-- Neither check notices a grant that its member signed, and nobody looks again at the
grants of an admin who is added as a member. -/
theorem self_granted_admin :
    (verifyConversation primitives circularConversation 0 = .ok () ∧
      verifyConversation primitives conversation 0 = .ok () ∧
      addConversationParticipant primitives conversation (person 1) [certificate 1 1]
        (conversationGrant 1 1 .admin) = .ok circularConversation ∧
      ¬ AllRooted primitives circularConversation) ∧
    verifyConversation primitives grownConversation 0 = .ok () ∧
    addConversationParticipant primitives grownConversation (person 1) [certificate 1 1]
      (conversationGrant 0 1 .member) = .ok demotedConversation ∧
    ¬ AllRooted primitives demotedConversation := by
  refine ⟨⟨by decide, by decide, by rfl, ?_⟩, by decide, by rfl, ?_⟩
  · intro rooted
    refine (allRooted_iff.mp rooted).2 (keyId 1) (.single ⟨by decide, participant 1 _,
      conversationGrant 1 1 .admin, ?_, rfl, rfl⟩)
    decide
  · intro rooted
    have names : NamesIssuer demotedConversation (keyId 2) (keyId 1) :=
      ⟨by decide, participant 2 _, conversationGrant 1 2 .member, by decide, rfl, rfl⟩
    obtain ⟨_, vouched⟩ := (allRooted_iff.mp rooted).1.step_iff.mpr names
    obtain ⟨_, _, issuer, _, _, _, _, _, found, _, entitled, _⟩ := vouched.signed
    have record : demotedConversation.participants.lookup (keyId 1) =
        some (participant 1 (some (conversationGrant 0 1 .member))) := by decide
    obtain rfl := Option.mem_unique record found
    exact absurd entitled (by decide)

end MetaMesh.Browser
