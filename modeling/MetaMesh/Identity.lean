import Mathlib.Data.Finset.Basic
import MetaMesh.Json
import MetaMesh.Lib.Table

/-!
# Identities, signed envelopes and device certificates

`identity.rs`.  What it takes from other packages is a parameter: `Primitives`
has base64url, SHA-256, Ed25519, ECMAScript number formatting, RFC 3339 and the
JSON reader.  A person is the hash of a root key; a device is the hash of a device
key that a chain of certificates leads back to that root.

The source keeps a per-thread cache of the signatures it has already accepted.
`verifySignedEnvelope` is the verdict without it; `Identity.SignatureCache` adds it.
-/

namespace MetaMesh

open Fallible

/-- What the crate takes from the packages it links against. -/
structure Primitives where
  base64Decode : String → Option (List UInt8)
  base64Encode : List UInt8 → String
  sha256 : List UInt8 → List UInt8
  ed25519Verify : (key message signature : List UInt8) → Bool
  formatFinite : String → String
  /-- The instant an RFC 3339 text names, in nanoseconds since 1970. -/
  parseRfc3339 : String → Option Int
  /-- The RFC 3339 text of an instant in milliseconds, when it is in range. -/
  formatRfc3339 : Nat → Option String
  /-- `serde_json::from_str`. -/
  parseJson : String → Option Value

def defaultSignatureDomain : String := "MATCH/1"

def maxCertificateChainLength : Nat := 32

/-! ## Records -/

instance : Serialize UInt8 := ⟨fun n => .number (.posInt n.toNat)⟩

instance : Deserialize UInt8 :=
  ⟨fun v => v.asU64?.bind fun n => if n < 256 then some (UInt8.ofNat n) else none⟩

instance : RoundTrip UInt8 where
  fromValue_toValue n := by
    have bound : n.toNat < 256 := n.toNat_lt
    simp [fromValue, toValue, Value.asU64?, bound]

/-- A payload with its signature. -/
structure SignedEnvelope (T : Type) where
  payload : T
  signerKeyId : String
  signature : String
deriving DecidableEq, Repr

instance {T : Type} [Serialize T] : Serialize (SignedEnvelope T) where
  toValue e := .object [("payload", toValue e.payload), ("signerKeyId", toValue e.signerKeyId),
    ("signature", toValue e.signature)]

instance {T : Type} [Deserialize T] : Deserialize (SignedEnvelope T) where
  fromValue v := do
    let field := fun name => v.structField ["payload", "signerKeyId", "signature"] name
    some ⟨← fromField (field "payload"), ← fromField (field "signerKeyId"),
      ← fromField (field "signature")⟩

instance {T : Type} [Serialize T] [Deserialize T] [RoundTrip T] : RoundTrip (SignedEnvelope T) where
  fromValue_toValue e := by
    simp [fromValue, toValue, Value.structField, fromField, Value.asStr?, List.lookup_cons]

/-- A person by their root key. -/
structure PublicIdentity where
  personId : String
  publicKey : String
  displayName : String
deriving DecidableEq, Repr

/-- A device of a person, vouched for by its issuer. -/
structure DeviceCertificatePayload where
  kind : String
  version : UInt8
  personId : String
  deviceId : String
  devicePublicKey : String
  issuerCertificateHash : Option String
  canEnrollDevices : Bool
deriving DecidableEq, Repr

abbrev DeviceCertificate := SignedEnvelope DeviceCertificatePayload

def DeviceCertificatePayload.fields (p : DeviceCertificatePayload) : List (String × Value) :=
  [("kind", toValue p.kind), ("version", toValue p.version),
    ("personId", toValue p.personId), ("deviceId", toValue p.deviceId),
    ("devicePublicKey", toValue p.devicePublicKey),
    ("issuerCertificateHash", toValue p.issuerCertificateHash),
    ("canEnrollDevices", toValue p.canEnrollDevices)]

def DeviceCertificatePayload.ofValue (v : Value) : Option DeviceCertificatePayload := do
  let field := fun name => v.structField ["kind", "version", "personId", "deviceId",
    "devicePublicKey", "issuerCertificateHash", "canEnrollDevices"] name
  some ⟨← fromField (field "kind"), ← fromField (field "version"),
    ← fromField (field "personId"), ← fromField (field "deviceId"),
    ← fromField (field "devicePublicKey"), ← fromOptional (field "issuerCertificateHash"),
    ← fromField (field "canEnrollDevices")⟩

instance : Serialize DeviceCertificatePayload := ⟨fun p => .object p.fields⟩
instance : Deserialize DeviceCertificatePayload := ⟨DeviceCertificatePayload.ofValue⟩

instance : RoundTrip DeviceCertificatePayload where
  fromValue_toValue p := by
    show DeviceCertificatePayload.ofValue (.object p.fields) = some p
    rcases p with ⟨kind, version, personId, deviceId, key, _ | issuer, enroll⟩ <;>
      simp [DeviceCertificatePayload.ofValue, DeviceCertificatePayload.fields, Value.structField,
        List.lookup_cons, fromOptional]

/-! ## Keys, signatures and certificates -/

section Verification

variable (P : Primitives)

def canonicalizeJson (value : Value) : Except String (List UInt8) :=
  canonicalizeWithNumbers P.formatFinite false value

def canonicalizeSignatureJson (value : Value) : Except String (List UInt8) :=
  canonicalizeWithNumbers P.formatFinite true value

def signatureInput (payloadKind : String) (canonicalPayload : List UInt8) (domain : String) :
    List UInt8 :=
  utf8 domain ++ 47 :: utf8 payloadKind ++ 0 :: canonicalPayload

def decodePublicKey (publicKey : String) : Except String (List UInt8) := do
  let bytes ← okOr (P.base64Decode publicKey) "Invalid public key"
  refuse (bytes.length ≠ 32) "Invalid public key"
  .ok bytes

def publicKeyId (publicKey : String) : Except String String := do
  let bytes ← decodePublicKey P publicKey
  .ok (P.base64Encode (P.sha256 bytes))

def verifySignedEnvelope {T : Type} [Serialize T] (envelope : SignedEnvelope T)
    (publicKey domain : String) : Except String Bool := do
  let payload := toValue envelope.payload
  let kind ← okOr (((payload.get? "kind").bind Value.asStr?).filter (· ≠ ""))
    "Signed payload kind missing"
  let signature ← okOr (P.base64Decode envelope.signature) "Invalid signature"
  refuse (signature.length ≠ 64) "Invalid signature"
  let key ← decodePublicKey P publicKey
  let canonical ← canonicalizeJson P payload
  let signed := match canonicalizeSignatureJson P payload with
    | .ok text => P.ed25519Verify key (signatureInput kind text domain) signature
    | .error _ => false
  .ok (signed || P.ed25519Verify key (signatureInput kind canonical domain) signature)

def certificateHash (certificate : DeviceCertificate) : Except String String := do
  let canonical ← canonicalizeJson P (toValue certificate)
  .ok (P.base64Encode (P.sha256 canonical))

/-- The certificates of a chain by their hashes. -/
def certificatesByHash (certificates : List DeviceCertificate) :
    Except String (Table String DeviceCertificate) :=
  certificates.foldlM
    (fun byHash certificate => do
      let hash ← certificateHash P certificate
      .ok (byHash.insert hash certificate))
    (∅ : Table String DeviceCertificate)

variable (identity : PublicIdentity) (verify : DeviceCertificate → String → Except String Bool)

/-- The walk from the leaf certificate to the root, for any way to verify a signature.  A
device id is seen once, so a chain of `n` certificates takes at most `n` rounds before the
check on `seen` refuses, and the fuel never runs out first. -/
def chainWalk (byHash : Table String DeviceCertificate) (leafKey : String) :
    Nat → DeviceCertificate → Finset String → Except String String
  | 0, _, _ => .error "Invalid device certificate"
  | fuel + 1, current, seen => do
      let payload := current.payload
      refuse (payload.kind ≠ "device-certificate" ∨ payload.version ≠ 1 ∨
        payload.personId ≠ identity.personId) "Invalid device certificate"
      let deviceId ← publicKeyId P payload.devicePublicKey
      refuse (deviceId ≠ payload.deviceId ∨ payload.deviceId ∈ seen) "Invalid device certificate"
      match payload.issuerCertificateHash with
      | none =>
        refuse (current.signerKeyId ≠ identity.personId) "Invalid root certificate"
        let verified ← verify current identity.publicKey
        refuse (verified = false) "Invalid root certificate"
        .ok leafKey
      | some issuerHash =>
        let issuer ← okOr (byHash.lookup issuerHash) "Invalid certificate chain"
        refuse (issuer.payload.canEnrollDevices = false ∨
          current.signerKeyId ≠ issuer.payload.deviceId) "Invalid certificate chain"
        let verified ← verify current issuer.payload.devicePublicKey
        refuse (verified = false) "Invalid certificate chain"
        chainWalk byHash leafKey fuel issuer (insert payload.deviceId seen)

/-- The check of a chain, with its walk cut off after a number of certificates. -/
def verifyChainWithin (rounds : Nat) (deviceId : String)
    (certificates : List DeviceCertificate) : Except String String := do
  let personId ← publicKeyId P identity.publicKey
  refuse (personId ≠ identity.personId) "Identity does not match its key"
  refuse (certificates = [] ∨ maxCertificateChainLength < certificates.length)
    "Invalid certificate chain"
  let byHash ← certificatesByHash P certificates
  let leaf ← okOr (certificates.find? fun certificate =>
    certificate.payload.deviceId = deviceId) "Missing device certificate"
  chainWalk P identity verify byHash leaf.payload.devicePublicKey rounds leaf ∅

/-- The public key of `deviceId`, certified by the identity's root. -/
def verifyDeviceCertificateChain (identity : PublicIdentity) (deviceId : String)
    (certificates : List DeviceCertificate) (domain : String) : Except String String :=
  verifyChainWithin P identity
    (fun certificate key => verifySignedEnvelope P certificate key domain)
    (certificates.length + 1) deviceId certificates

end Verification

/-! ## Primitives to evaluate with

Lengths are the real ones: 32 bytes are 43 characters and 64 bytes are 86.  A
digest is a checksum, and a signature is valid for the key whose letter it
repeats. -/

namespace Sample

def letters (count code : Nat) : String :=
  String.ofList (List.replicate count (Char.ofNat (65 + code % 26)))

def checksum (bytes : List UInt8) : Nat :=
  bytes.foldl (fun sum byte => (sum * 31 + byte.toNat) % 251) 7

def primitives : Primitives where
  base64Decode text :=
    if text.utf8ByteSize = 43 then some (List.replicate 32 ((utf8 text).headD 0))
    else if text.utf8ByteSize = 86 then some (List.replicate 64 ((utf8 text).headD 0))
    else none
  base64Encode bytes := letters 43 ((bytes.headD 0).toNat + 13)
  sha256 bytes := List.replicate 32 (UInt8.ofNat (checksum bytes))
  ed25519Verify key _ signature := signature.take 32 = key
  formatFinite text := text
  parseRfc3339 text := if text = "" then none else some 0
  formatRfc3339 _ := some "1970-01-01T00:00:00Z"
  parseJson _ := none

/-- The id of the key that repeats a letter. -/
def keyId (code : Nat) : String :=
  primitives.base64Encode (primitives.sha256 (List.replicate 32 (UInt8.ofNat (65 + code))))

/-- A device certificate signed by the person's root key. -/
def certificate (person device : Nat) : DeviceCertificate :=
  ⟨⟨"device-certificate", 1, keyId person, keyId device, letters 43 device, none, true⟩,
    keyId person, letters 86 person⟩

end Sample

end MetaMesh
