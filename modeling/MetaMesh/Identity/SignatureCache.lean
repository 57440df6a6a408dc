import MetaMesh.Browser.Signing
import MetaMesh.Lib.Machine

/-!
# Signatures that were verified before

`VerifiedSignatureCache` of `identity.rs`, which a thread keeps over all its calls of
`verify_signed_envelope`.  The digest that stands for a signature covers the key, the
signature and the message with plain numbers.  That message can be read back
(`SignedRelation.eq_of_message`), so it also tells the message with signature numbers, which
the digest does not cover.
-/

namespace MetaMesh

open Fallible Framing Machine Browser.Signing

def verifiedSignatureCacheLimit : Nat := 512

/-- Digests of signatures that verified, oldest first. -/
structure VerifiedSignatureCache where
  digests : Finset (List UInt8)
  order : List (List UInt8)

namespace VerifiedSignatureCache

def empty : VerifiedSignatureCache := ⟨∅, []⟩

variable (cache : VerifiedSignatureCache)

/-- The oldest digest leaves a full cache. -/
def makeRoom : VerifiedSignatureCache :=
  if cache.order.length = verifiedSignatureCacheLimit then
    match cache.order with
    | [] => cache
    | oldest :: order => ⟨cache.digests.erase oldest, order⟩
  else cache

def insert (digest : List UInt8) : VerifiedSignatureCache :=
  if digest ∈ cache.digests then cache
  else ⟨Insert.insert digest cache.makeRoom.digests, cache.makeRoom.order ++ [digest]⟩

/-- The queue has every digest of the set once, and no more than the limit. -/
structure Sound : Prop where
  bounded : cache.order.length ≤ verifiedSignatureCacheLimit
  same : cache.digests = cache.order.toFinset
  distinct : cache.order.Nodup

variable {cache : VerifiedSignatureCache} {digest other : List UInt8}

theorem makeRoom_subset : cache.makeRoom.digests ⊆ cache.digests := by
  unfold makeRoom
  split
  · split
    · exact Finset.Subset.refl _
    · exact Finset.erase_subset _ _
  · exact Finset.Subset.refl _

theorem Sound.makeRoom (sound : cache.Sound) :
    cache.makeRoom.Sound ∧ cache.makeRoom.order.length < verifiedSignatureCacheLimit := by
  obtain ⟨digests, order⟩ := cache
  obtain ⟨bounded, same, distinct⟩ := sound
  unfold VerifiedSignatureCache.makeRoom
  split
  · next full =>
    cases order with
    | nil => cases full
    | cons oldest order =>
      obtain ⟨gone, distinct⟩ := List.nodup_cons.mp distinct
      refine ⟨⟨Nat.le_of_succ_le bounded, ?_, distinct⟩, bounded⟩
      simp [show digests = _ from same, gone]
  · next room => exact ⟨⟨bounded, same, distinct⟩, Nat.lt_of_le_of_ne bounded room⟩

theorem Sound.insert (sound : cache.Sound) : (cache.insert digest).Sound := by
  unfold VerifiedSignatureCache.insert
  split
  · exact sound
  · next fresh =>
    obtain ⟨⟨_, same, distinct⟩, room⟩ := sound.makeRoom
    refine ⟨?_, by simp [same], ?_⟩
    · rw [List.length_append]
      exact room
    · rw [← List.concat_eq_append]
      refine distinct.concat fun held => fresh (makeRoom_subset ?_)
      rwa [same, List.mem_toFinset]

theorem mem_insert (held : other ∈ (cache.insert digest).digests) :
    other = digest ∨ other ∈ cache.digests := by
  unfold insert at held
  split at held
  · exact .inr held
  · exact (Finset.mem_insert.mp held).imp_right fun held => makeRoom_subset held

end VerifiedSignatureCache

/-! ## One call -/

/-- What a call reads before it looks into the cache. -/
structure SignedRelation where
  kind : String
  signature : List UInt8
  key : List UInt8
  canonical : List UInt8

/-- A call of `verify_signed_envelope`, with the payload as `serde_json` builds it. -/
structure VerifyCall where
  envelope : SignedEnvelope Value
  publicKey : String
  domain : String
  wellFormed : envelope.payload.wellFormed = true

section Calls

variable (P : Primitives)

def VerifyCall.read (call : VerifyCall) : Except String SignedRelation := do
  let kind ← okOr (((call.envelope.payload.get? "kind").bind Value.asStr?).filter (· ≠ ""))
    "Signed payload kind missing"
  let signature ← okOr (P.base64Decode call.envelope.signature) "Invalid signature"
  refuse (signature.length ≠ 64) "Invalid signature"
  let key ← decodePublicKey P call.publicKey
  let canonical ← MetaMesh.canonicalizeJson P call.envelope.payload
  .ok ⟨kind, signature, key, canonical⟩

/-- The bytes whose digest stands for a verified signature. -/
def SignedRelation.message (relation : SignedRelation) (domain : String) : List UInt8 :=
  utf8 "meta-mesh/verified-ed25519/v1\x00" ++ (relation.key ++ (relation.signature ++
    MetaMesh.signatureInput relation.kind relation.canonical domain))

def VerifyCall.verifies (call : VerifyCall) (relation : SignedRelation) : Bool :=
  (match MetaMesh.canonicalizeSignatureJson P call.envelope.payload with
    | .ok text => P.ed25519Verify relation.key
        (MetaMesh.signatureInput relation.kind text call.domain) relation.signature
    | .error _ => false) ||
  P.ed25519Verify relation.key
    (MetaMesh.signatureInput relation.kind relation.canonical call.domain) relation.signature

/-- `verify_signed_envelope` as it stands, with the cache. -/
def verifyStep (cache : VerifiedSignatureCache) (call : VerifyCall) :
    VerifiedSignatureCache × Except String Bool :=
  match call.read P with
  | .error e => (cache, .error e)
  | .ok relation =>
    let digest := P.sha256 (relation.message call.domain)
    if digest ∈ cache.digests then (cache, .ok true)
    else
      let verified := call.verifies P relation
      (if verified then cache.insert digest else cache, .ok verified)

/-- No two of the calls have messages with one digest. -/
def CollisionFreeCalls (calls : List VerifyCall) : Prop :=
  ∀ a ∈ calls, ∀ b ∈ calls, ∀ r s, a.read P = .ok r → b.read P = .ok s →
    P.sha256 (r.message a.domain) = P.sha256 (s.message b.domain) →
      r.message a.domain = s.message b.domain

/-- Every digest is that of a call that verified. -/
def Earned (made : List VerifyCall) (cache : VerifiedSignatureCache) : Prop :=
  ∀ digest ∈ cache.digests, ∃ call ∈ made, ∃ relation, call.read P = .ok relation ∧
    digest = P.sha256 (relation.message call.domain) ∧ call.verifies P relation = true

variable {P} {call other : VerifyCall} {relation : SignedRelation}

/-- Without the cache a call gives the verdict on what it read. -/
theorem verifySignedEnvelope_eq (call : VerifyCall) :
    verifySignedEnvelope P call.envelope call.publicKey call.domain =
      call.read P >>= fun relation => .ok (call.verifies P relation) := by
  simp only [verifySignedEnvelope, VerifyCall.read, bind_assoc]
  rfl

theorem VerifyCall.read_ok (read : call.read P = .ok relation) :
    KindOf call.envelope.payload relation.kind ∧ relation.signature.length = 64 ∧
      relation.key.length = 32 ∧ relation.canonical = call.envelope.payload.toVec := by
  obtain ⟨kind, isKind, read⟩ := bind_ok.mp read
  obtain ⟨signature, _, read⟩ := bind_ok.mp read
  obtain ⟨sized, read⟩ := refuse_bind_ok.mp read
  obtain ⟨key, isKey, read⟩ := bind_ok.mp read
  obtain ⟨canonical, isText, read⟩ := bind_ok.mp read
  obtain ⟨bytes, _, isKey⟩ := bind_ok.mp isKey
  obtain ⟨keySized, isKey⟩ := refuse_bind_ok.mp isKey
  obtain rfl := Except.ok.inj read
  obtain rfl := Except.ok.inj isKey
  rw [canonicalizeJson_eq P call.wellFormed] at isText
  refine ⟨?_, not_not.mp sized, not_not.mp keySized, (Except.ok.inj isText).symm⟩
  obtain ⟨value, found, isString⟩ :=
    Option.bind_eq_some_iff.mp (Option.filter_eq_some_iff.mp (okOr_ok.mp isKind)).1
  cases value with
  | string s => exact found.trans (congrArg _ (congrArg _ (Option.some.inj isString)))
  | _ => cases isString

/-- The message tells everything the verdict depends on. -/
theorem VerifyCall.verifies_eq {relation' : SignedRelation} (read : call.read P = .ok relation)
    (read' : other.read P = .ok relation')
    (same : relation.message call.domain = relation'.message other.domain) :
    call.verifies P relation = other.verifies P relation' := by
  obtain ⟨isKind, sized, keySized, isText⟩ := read_ok read
  obtain ⟨isKind', sized', keySized', isText'⟩ := read_ok read'
  obtain ⟨key, same⟩ := List.append_inj (List.append_cancel_left same)
    (keySized.trans keySized'.symm)
  obtain ⟨signature, input⟩ := List.append_inj same (sized.trans sized'.symm)
  have plain := plainNumbers_of_wellFormed call.wellFormed
  have plain' := plainNumbers_of_wellFormed other.wellFormed
  have texts := input
  rw [isText, isText'] at texts
  obtain ⟨front, texts⟩ := last_mark_inj (zero_notMem_toVec plain) (zero_notMem_toVec plain') texts
  have payload := eq_of_toVec_eq plain plain' texts
  have kind : relation.kind = relation'.kind := by
    rw [KindOf, payload] at isKind
    simpa using isKind.symm.trans isKind'
  rw [kind] at front
  have domains : utf8 call.domain = utf8 other.domain := List.append_cancel_right front
  have domain : call.domain = other.domain := strKey_injective (by rw [strKey, strKey, domains])
  rw [verifies, verifies, payload, key, signature, input, kind, domain]

/-- A call answers as without the cache, and the cache stays earned. -/
theorem verifyStep_spec {made : List VerifyCall} {cache : VerifiedSignatureCache}
    (earned : Earned P made cache) (free : CollisionFreeCalls P (made ++ [call])) :
    (verifyStep P cache call).2 = verifySignedEnvelope P call.envelope call.publicKey call.domain ∧
      Earned P (made ++ [call]) (verifyStep P cache call).1 := by
  have still : Earned P (made ++ [call]) cache := by
    intro digest held
    obtain ⟨earlier, member, rest⟩ := earned digest held
    exact ⟨earlier, List.mem_append_left _ member, rest⟩
  rw [verifySignedEnvelope_eq]
  unfold verifyStep
  cases read : call.read P with
  | error e => exact ⟨rfl, still⟩
  | ok relation =>
    simp only [ok_bind]
    split_ifs with held verified
    · obtain ⟨earlier, member, relation', read', digests, verified⟩ := earned _ held
      have same := free call (by simp) earlier (by simp [member]) _ _ read read' digests
      rw [VerifyCall.verifies_eq read read' same, verified]
      exact ⟨rfl, still⟩
    · refine ⟨rfl, fun digest held => ?_⟩
      rcases VerifiedSignatureCache.mem_insert held with rfl | held
      · exact ⟨call, by simp, relation, read, rfl, verified⟩
      · exact still digest held
    · exact ⟨rfl, still⟩

theorem verifyStep_sound {cache : VerifiedSignatureCache} (sound : cache.Sound) :
    (verifyStep P cache call).1.Sound := by
  unfold verifyStep
  split
  · exact sound
  · dsimp only
    split_ifs
    · exact sound
    · exact sound.insert
    · exact sound

theorem answers_eq {made calls : List VerifyCall} {cache : VerifiedSignatureCache}
    (earned : Earned P made cache) (free : CollisionFreeCalls P (made ++ calls)) :
    (events (verifyStep P) cache calls).map Event.answer = calls.map fun call =>
      verifySignedEnvelope P call.envelope call.publicKey call.domain := by
  induction calls generalizing made cache with
  | nil => rfl
  | cons call calls ih =>
    rw [List.append_cons] at free
    obtain ⟨answer, earned⟩ := verifyStep_spec earned fun a heldA b heldB =>
      free a (List.mem_append_left _ heldA) b (List.mem_append_left _ heldB)
    rw [events_cons, List.map_cons, List.map_cons, ih earned free]
    exact congrArg (· :: _) answer

end Calls

/-- Whatever is verified in whatever order, every verdict is the one without the cache, unless
two messages have one digest; the cache never holds more than its limit, and its set is that of
its queue. -/
theorem cached_verdicts_agree (P : Primitives) (calls : List VerifyCall) :
    (CollisionFreeCalls P calls →
      (events (verifyStep P) .empty calls).map Event.answer = calls.map fun call =>
        verifySignedEnvelope P call.envelope call.publicKey call.domain) ∧
    (run (verifyStep P) .empty calls).order.length ≤ 512 ∧
    (run (verifyStep P) .empty calls).digests =
      (run (verifyStep P) .empty calls).order.toFinset := by
  have sound := @run_keeps _ _ _ (verifyStep P) .empty VerifiedSignatureCache.Sound
    (fun _ _ => verifyStep_sound) ⟨by decide, rfl, .nil⟩ calls
  exact ⟨fun free => @answers_eq P [] calls .empty
    (by simp [Earned, VerifiedSignatureCache.empty]) free,
    sound.bounded, sound.same⟩

namespace Sample

def noteCall : VerifyCall :=
  ⟨⟨.object [("kind", .string "note")], "signer", letters 86 0⟩, letters 43 0, "MATCH/1", by decide⟩

end Sample

open Sample

/-- The second verdict on a note comes from the cache. -/
theorem cached_verdicts_agree_sample :
    (verifyStep primitives .empty noteCall).1.order.length = 1 ∧
    (events (verifyStep primitives) .empty [noteCall, noteCall]).map
      Event.answer = [.ok true, .ok true] := by
  refine ⟨by decide, ((cached_verdicts_agree primitives _).1 ?_).trans (by decide)⟩
  intro a heldA b heldB r s read read' _
  obtain rfl : a = noteCall := by simpa using heldA
  obtain rfl : b = noteCall := by simpa using heldB
  rw [ok_unique read read']

end MetaMesh
