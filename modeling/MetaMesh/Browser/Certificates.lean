import MetaMesh.Identity.Chain

/-!
# Envelopes and certificates in the browser packages

The part of `packages/mesh-identity/src/index.ts` that the other packages build on: signed
envelopes, certificate chains, and the walks that ask whether a chain meets a revoked
device or a given ancestor.

`Primitives` is what the browser links against here: WebCrypto, base64url, SHA-256.
Objects are read as their declared types; canonical text orders keys, and for the ASCII
names of these records the order by code units and the order by scalar values agree.
-/

namespace MetaMesh.Browser

open Fallible Ancestry

section Certificates

variable (P : Primitives)

/-- `envelope.payload.kind`. -/
def payloadKind {T : Type} [Serialize T] (payload : T) : String :=
  (((toValue payload).get? "kind").bind Value.asStr?).getD ""

/-- The signature fits the canonical text, or the text in the old key order. -/
def verifyEnvelope {T : Type} [Serialize T] (envelope : SignedEnvelope T)
    (publicKey domain : String) : Except String Bool := do
  let key ← decodePublicKey P publicKey
  let canonical ← canonicalizeSignatureJson P (toValue envelope.payload)
  let signature ← okOr (P.base64Decode envelope.signature) "Invalid signature"
  let legacyCanonical ← canonicalizeJson P (toValue envelope.payload)
  let kind := payloadKind envelope.payload
  .ok (P.ed25519Verify key (signatureInput kind canonical domain) signature ||
    -- envelopes signed before the scalar order of keys was shared
    (legacyCanonical ≠ canonical &&
      P.ed25519Verify key (signatureInput kind legacyCanonical domain) signature))

def verifyDeviceCertificateChain (identity : PublicIdentity) (deviceId : String)
    (certificates : List DeviceCertificate) (domain : String) : Except String String :=
  verifyChainWithin P identity (fun c key => verifyEnvelope P c key domain)
    (certificates.length + 1) deviceId certificates

/-! ## Walks -/

/-- The certificate that a certificate names as its issuer: `some none` at a root,
`none` where it is not among the certificates. -/
def issuerOf (byHash : Table String DeviceCertificate) (certificate : DeviceCertificate) :
    Option (Option DeviceCertificate) :=
  match certificate.payload.issuerCertificateHash with
  | none => some none
  | some hash => (byHash.lookup hash).map some

/-- Goes from a certificate to its issuers.  The fuel is for every certificate and one
more; a device is seen once. -/
def climbIssuers (hit : DeviceCertificate → Bool) (lost : Bool)
    (certificates : List DeviceCertificate) (start : DeviceCertificate) : Except String Bool := do
  let byHash ← certificatesByHash P certificates
  .ok (climb (fun c => c.payload.deviceId) (issuerOf byHash) hit lost (certificates.length + 1)
    start ∅)

/-- The device or one it is enrolled below is revoked, or its chain is broken. -/
def isChainRevoked (deviceId : String) (revoked : Finset String)
    (certificates : List DeviceCertificate) : Except String Bool :=
  match certificates.find? fun c => c.payload.deviceId = deviceId with
  | none => .ok true
  | some leaf => climbIssuers P (fun c => c.payload.deviceId ∈ revoked) true certificates leaf

def isCertificateDescendant (certificate : DeviceCertificate) (rootId : String)
    (certificates : List DeviceCertificate) : Except String Bool :=
  climbIssuers P (fun c => c.payload.deviceId = rootId) false certificates certificate

/-- The devices enrolled below `rootId`, itself included. -/
def identityDeviceDescendants (rootId : String) (certificates : List DeviceCertificate) :
    Except String (Finset String) :=
  certificates.foldlM
    (fun subtree certificate => do
      let below ← isCertificateDescendant P certificate rootId certificates
      .ok (if below then insert certificate.payload.deviceId subtree else subtree))
    (∅ : Finset String)

end Certificates

end MetaMesh.Browser
