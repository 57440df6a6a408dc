import Mathlib.Algebra.Order.BigOperators.Group.List
import Mathlib.Algebra.Order.Group.Nat
import MetaMesh.Authorization.DeviceRemoval
import MetaMesh.Authorization.Changes

/-!
# A transfer of the whole document

The owner of a workspace signs it over at the current heads of the document.
`fromSnapshotCausal_withTransfer` says what the snapshot validates to with the transfer
added: the same authority with the next owner in office, and the one before among the
former owners, with every change of the document allowed to them.  The boundaries and the
removed devices stay, unless a record of the former owner depends on the office.
-/

namespace MetaMesh

open Fallible

variable {E : Type} {A : Automerge E} {byHash : DocumentGraph} {P : Primitives} {nowMs : Int}
  {raw : WorkspaceWriteAuthorizationSnapshot} {transfer : WorkspaceOwnershipTransfer}

/-! ## Heads -/

section Heads

variable {documentBytes : List UInt8}

/-- `get_heads`: the changes that no other change builds on. -/
def documentHeads (changes : List (Change E)) : List String :=
  (changes.filter fun change => changes.all fun other => change.hash ∉ other.deps).map Change.hash

theorem mem_documentHeads {changes : List (Change E)} {hash : String} :
    hash ∈ documentHeads changes ↔
      ∃ change ∈ changes, (∀ other ∈ changes, change.hash ∉ other.deps) ∧ change.hash = hash := by
  simp [documentHeads, and_assoc]

/-- Every change of a document is below one of its heads. -/
theorem reachable_documentHeads (lawful : A.Lawful) {document : A.Document}
    (entries : ∀ hash deps, byHash.lookup hash = some deps ↔
      ∃ change ∈ A.changes document, change.hash = hash ∧ change.deps = deps)
    {heads : List String} (current : ∀ hash, hash ∈ heads ↔
      hash ∈ documentHeads (A.changes document)) {change : Change E}
    (held : change ∈ A.changes document) : Collect.Reachable byHash heads change.hash := by
  obtain ⟨rank, rises⟩ := lawful.acyclic document
  let top := ((A.changes document).map fun other => rank other.hash).sum
  -- the induction climbs from a change to one that depends on it, where the rank is higher
  have climb : ∀ room, ∀ change ∈ A.changes document, top < rank change.hash + room →
      Collect.Reachable byHash heads change.hash := by
    intro room
    induction room with
    | zero =>
      intro change held above
      have below : rank change.hash ≤ top := List.le_sum_of_mem (List.mem_map_of_mem held)
      omega
    | succ room ih =>
      intro change held above
      by_cases isHead : ∀ other ∈ A.changes document, change.hash ∉ other.deps
      · exact .root ((current _).mpr (mem_documentHeads.mpr ⟨change, held, isHead, rfl⟩))
      · simp only [not_forall, not_not] at isHead
        obtain ⟨other, held', needs⟩ := isHead
        have higher := rises other held' _ needs
        refine (ih other held' (by omega)).step ⟨other.deps, ?_, needs⟩
        exact (entries _ _).mpr ⟨other, held', rfl, rfl⟩
  exact climb (top + 1) change held (by omega)

variable (A documentBytes) in
/-- A change of a saved document. -/
def InDocument (hash : String) : Prop :=
  ∃ document, A.load documentBytes = some document ∧
    ∃ change ∈ A.changes document, change.hash = hash

theorem inDocument_iff (lawful : A.Lawful) (loaded : documentHashes A documentBytes = .ok byHash)
    {hash : String} : InDocument A documentBytes hash ↔ (byHash.lookup hash).isSome = true := by
  obtain ⟨document, found, entries⟩ := documentHashes_ok lawful loaded
  rw [Option.isSome_iff_exists]
  constructor
  · rintro ⟨other, found', change, held, rfl⟩
    obtain rfl : other = document := Option.mem_unique found' found
    exact ⟨_, (entries _ _).mpr ⟨change, held, rfl, rfl⟩⟩
  · rintro ⟨deps, entry⟩
    obtain ⟨change, held, same, _⟩ := (entries _ _).mp entry
    exact ⟨document, found, change, held, same⟩

/-- The ancestry of the current heads is the document. -/
theorem ancestry_documentHeads (lawful : A.Lawful)
    (loaded : documentHashes A documentBytes = .ok byHash) {heads : List String}
    (current : ∀ document, A.load documentBytes = some document → ∀ hash,
      hash ∈ heads ↔ hash ∈ documentHeads (A.changes document)) :
    ∃ hashes, ancestry heads byHash = .ok hashes ∧
      ∀ hash, hash ∈ hashes ↔ InDocument A documentBytes hash := by
  have known : ∀ hash, InDocument A documentBytes hash ↔ (byHash.lookup hash).isSome = true :=
    fun hash => inDocument_iff lawful loaded
  obtain ⟨document, found, entries⟩ := documentHashes_ok lawful loaded
  have present : ∀ head ∈ heads, (byHash.lookup head).isSome := by
    intro head held
    obtain ⟨change, inDocument, _, rfl⟩ :=
      mem_documentHeads.mp ((current document found head).mp held)
    exact Option.isSome_iff_exists.mpr ⟨_, (entries _ _).mpr ⟨change, inDocument, rfl, rfl⟩⟩
  obtain ⟨hashes, walked⟩ := ancestry_of_present lawful loaded present
  obtain ⟨inside, members⟩ := Collect.collect_ok.mp walked
  refine ⟨hashes, walked, fun hash => ⟨fun held =>
    (known hash).mpr (inside hash ((members hash).mp held)), ?_⟩⟩
  rintro ⟨other, found', change, held, rfl⟩
  obtain rfl : other = document := Option.mem_unique found' found
  exact (members _).mpr (reachable_documentHeads lawful entries (current other found) held)

end Heads

/-! ## The authority after the transfer -/

/-- The next owner takes office; the one before keeps what they could sign. -/
def ChainState.handOver (chain : ChainState) (transition : OwnershipTransition)
    (hashes : Finset String) : ChainState :=
  ⟨transition.nextAuthority, transition.epoch, chain.history ++ [chain.current],
    chain.historicalHashes.insert chain.current.personId
      ((chain.historicalHashes.lookup chain.current.personId).getD ∅ ∪ hashes)⟩

def ValidatedWorkspaceWriteAuthorizationContext.handOver
    (context : ValidatedWorkspaceWriteAuthorizationContext) (next : WorkspaceAuthority)
    (hashes : Finset String) : ValidatedWorkspaceWriteAuthorizationContext :=
  { context with
    currentOwner := next
    historicalOwners := context.historicalOwners ++ [context.currentOwner]
    historicalHashes := context.historicalHashes.insert context.currentOwner.personId
      ((context.historicalHashes.lookup context.currentOwner.personId).getD ∅ ∪ hashes) }

variable (P) in
/-- A transfer that the owner of a snapshot signs at the heads of its document. -/
structure HandsOverAll (A : Automerge E) (raw : WorkspaceWriteAuthorizationSnapshot) (nowMs : Int)
    (transfer : WorkspaceOwnershipTransfer) : Prop where
  signed : ∃ chain, verifiedOwnershipChain P A raw nowMs ∅ true = .ok chain ∧
    verifyWorkspaceOwnershipTransfer P transfer raw.workspaceId chain.current chain.epoch nowMs =
      .ok ()
  heads : ∀ document, A.load raw.document = some document → ∀ hash,
    hash ∈ transfer.payload.workspaceHeads ↔ hash ∈ documentHeads (A.changes document)

variable (raw) in
/-- The device records that the owner signed hold without the office: those about other
people's devices name changes of the document, and what a restoration takes back the owner
had removed. -/
def WorkspaceWriteAuthorizationSnapshot.DevicesOutlast (A : Automerge E)
    (owner : WorkspaceAuthority) : Prop :=
  ∀ evidence ∈ raw.deviceRevocations, evidence.signer.personId = owner.personId →
    (evidence.record.payload.personId = owner.personId ∨
      evidence.signer.publicKey = owner.publicKey ∧
        ∀ head ∈ evidence.record.payload.workspaceHeads, InDocument A raw.document head) ∧
    ∀ removal ∈ raw.deviceRevocations,
      removal.record.signature ∈ evidence.record.payload.restores.getD [] →
        removal.signer.personId = owner.personId

section Chain

variable {chain : ChainState} {hashes : Finset String}

theorem perm_withTransfer_transitions :
    (raw.withTransfer transfer).transitions.Perm (raw.transitions ++ [.transfer transfer]) := by
  unfold WorkspaceWriteAuthorizationSnapshot.transitions
    WorkspaceWriteAuthorizationSnapshot.withTransfer
  rw [List.map_append, List.append_assoc, List.append_assoc]
  exact List.Perm.append_left _ List.perm_append_comm

/-- The walk goes on to the next owner. -/
theorem walk_withTransfer {revoked : Finset String}
    (walked : verifiedOwnershipChainWithGraph P raw nowMs revoked true byHash = .ok chain)
    (signed : verifyWorkspaceOwnershipTransfer P transfer raw.workspaceId chain.current
      chain.epoch nowMs = .ok ())
    (reached : ancestry transfer.payload.workspaceHeads byHash = .ok hashes) :
    verifiedOwnershipChainWithGraph P (raw.withTransfer transfer) nowMs revoked true byHash =
      .ok (chain.handOver (.transfer transfer) hashes) := by
  obtain ⟨ts, same, order⟩ := verifiedOwnershipChainWithGraph_ok.mp walked
  obtain ⟨signer, _, _, above⟩ := verifyWorkspaceOwnershipTransfer_fields signed
  refine verifiedOwnershipChainWithGraph_ok.mpr ⟨ts ++ [.transfer transfer],
    (same.append_right _).trans perm_withTransfer_transitions.symm, ?_⟩
  refine order.append (.cons signer above ?_ (.nil _))
  exact installTransition_ok.mpr ⟨signed, hashes, reached, rfl⟩

theorem frontierAllowed_handOver {person : String} {heads : List String}
    (inside : person = chain.current.personId → ∀ head ∈ heads, head ∈ hashes)
    (allowed : ownerControlFrontierAllowed person chain.current.personId heads
      chain.historicalHashes = true) :
    ownerControlFrontierAllowed person (chain.handOver (.transfer transfer) hashes).current.personId
      heads (chain.handOver (.transfer transfer) hashes).historicalHashes = true := by
  unfold ownerControlFrontierAllowed at allowed ⊢
  rw [decide_eq_true_eq] at allowed ⊢
  refine .inr ?_
  unfold ChainState.handOver
  rw [Table.lookup_insert_ite]
  by_cases owner : person = chain.current.personId
  · rw [if_pos owner, Option.any_some, List.all_eq_true]
    intro head held
    exact decide_eq_true (Finset.mem_union_right _ (inside owner head held))
  · rw [if_neg owner]
    exact allowed.resolve_left owner

/-- The revocations draw the same boundaries. -/
theorem chainBoundaries_withTransfer {boundaries : Table String (List RevocationBoundary)}
    (whole : ∀ hash, (byHash.lookup hash).isSome = true → hash ∈ hashes)
    (verified : chainBoundaries P raw nowMs byHash chain = .ok boundaries) :
    chainBoundaries P (raw.withTransfer transfer) nowMs byHash
      (chain.handOver (.transfer transfer) hashes) = .ok boundaries := by
  refine foldlM_ok_of_imp ?_ verified
  intro record _ before after step
  obtain ⟨boundary, drawn, same⟩ := bind_ok.mp step
  obtain ⟨authority, reached, found, allowed, signed, walked, shape⟩ :=
    revocationBoundary_ok.mp drawn
  have inside : ∀ head ∈ record.payload.workspaceHeads, head ∈ hashes := fun head held =>
    whole head ((Collect.collect_ok.mp walked).1 head (.root held))
  refine bind_ok.mpr ⟨boundary, revocationBoundary_ok.mpr ⟨authority, reached, ?_,
    frontierAllowed_handOver (fun _ => inside) allowed, signed, walked, shape⟩, same⟩
  have longer : (chain.handOver (.transfer transfer) hashes).authorities =
      chain.authorities ++ [transfer.payload.nextAuthority] := rfl
  rw [longer, List.find?_append, found]
  rfl

/-- An owner's signature under a device record counts after the office is over, if the
record keeps to the document. -/
theorem signed_handOver {evidence : WorkspaceDeviceRevocationEvidence}
    (outlasts : evidence.signer.personId = chain.current.personId →
      evidence.record.payload.personId = chain.current.personId ∨
        evidence.signer.publicKey = chain.current.publicKey ∧
          ∀ head ∈ evidence.record.payload.workspaceHeads, head ∈ hashes)
    (signed : signedByOwner P raw.workspaceId chain nowMs evidence = true ∨
      signedBySubject P raw.workspaceId chain nowMs evidence = true) :
    signedByOwner P raw.workspaceId (chain.handOver (.transfer transfer) hashes) nowMs evidence =
        true ∨
      signedBySubject P raw.workspaceId (chain.handOver (.transfer transfer) hashes) nowMs
        evidence = true := by
  have cases : (evidence.signer.personId = evidence.record.payload.personId ∧ ∃ owner,
        verifyWorkspaceDeviceRevocation P evidence.record raw.workspaceId owner evidence.signer
          nowMs = .ok ()) ∨
      ∃ authority ∈ chain.current :: chain.history,
        authority.personId = evidence.signer.personId ∧
        authority.publicKey = evidence.signer.publicKey ∧
        ownerControlFrontierAllowed authority.personId chain.current.personId
          evidence.record.payload.workspaceHeads chain.historicalHashes = true ∧
        (authority.personId = chain.current.personId →
          ∀ head ∈ evidence.record.payload.workspaceHeads, head ∈ hashes) ∧
        verifyWorkspaceDeviceRevocation P evidence.record raw.workspaceId authority.personId
          evidence.signer nowMs = .ok () := by
    rcases signed with signed | signed
    · obtain ⟨authority, held, holds⟩ := List.any_eq_true.mp signed
      obtain ⟨person, key, allowed, verifies⟩ := of_decide_eq_true holds
      obtain ⟨⟨⟩, verified⟩ := isOk_iff.mp verifies
      by_cases isOwner : evidence.signer.personId = chain.current.personId
      · rcases outlasts isOwner with subject | ⟨_, inside⟩
        · exact .inl ⟨isOwner.trans subject.symm, _, verified⟩
        · exact .inr ⟨authority, held, person, key, allowed, fun _ => inside, verified⟩
      · exact .inr ⟨authority, held, person, key, allowed,
          fun current => absurd (person.symm.trans current) isOwner, verified⟩
    · obtain ⟨⟨⟩, verified⟩ := isOk_iff.mp signed
      rcases signer_of_verified verified with isOwner | subject
      · rcases outlasts isOwner with subject | ⟨key, inside⟩
        · exact .inl ⟨isOwner.trans subject.symm, _, verified⟩
        · exact .inr ⟨chain.current, by simp, isOwner.symm, key.symm,
            by simp [ownerControlFrontierAllowed], fun _ => inside, verified⟩
      · exact .inl ⟨subject, _, verified⟩
  rcases cases with
    ⟨subject, _, verified⟩ | ⟨authority, held, person, key, allowed, inside, verified⟩
  · exact .inr (isOk_iff.mpr ⟨(), verified_of_subject subject verified⟩)
  · refine .inl (List.any_eq_true.mpr ⟨authority, ?_, decide_eq_true
      ⟨person, key, frontierAllowed_handOver inside allowed, isOk_iff.mpr ⟨(), verified⟩⟩⟩)
    refine List.mem_cons_of_mem _ (List.mem_append.mpr ?_)
    rcases List.mem_cons.mp held with rfl | earlier
    · exact .inr (List.mem_singleton_self _)
    · exact .inl earlier

/-- The same devices are removed. -/
theorem verifiedDeviceRevocations_withTransfer
    {devices : Table (String × String) (List (Finset String))}
    (whole : ∀ hash, InDocument A raw.document hash → hash ∈ hashes)
    (outlast : raw.DevicesOutlast A chain.current)
    (read : verifiedDeviceRevocations P raw chain nowMs byHash = .ok devices) :
    verifiedDeviceRevocations P (raw.withTransfer transfer)
      (chain.handOver (.transfer transfer) hashes) nowMs byHash = .ok devices := by
  obtain ⟨restored, taken, removed⟩ := bind_ok.mp read
  refine bind_ok.mpr ⟨restored, restored_of_own ?_ taken, foldlM_ok_of_imp ?_ removed⟩
  · intro entry inRecords removal inRecords' named _ bySigner
    obtain ⟨evidence, held, rfl⟩ := List.mem_map.mp inRecords
    obtain ⟨other, held', rfl⟩ := List.mem_map.mp inRecords'
    by_cases isOwner : evidence.signer.personId = chain.current.personId
    · exact isOwner.trans ((outlast evidence held isOwner).2 other held' named).symm
    · exact bySigner isOwner
  · intro evidence held before next step
    obtain ⟨_, valid, step⟩ := bind_ok.mp step
    obtain ⟨signed, rest⟩ := refuse_bind_ok.mp step
    refine bind_ok.mpr ⟨(), valid, refuse_bind_ok.mpr ⟨?_, rest⟩⟩
    rw [not_and_or, Bool.not_eq_false, Bool.not_eq_false] at signed ⊢
    refine signed_handOver (fun isOwner => ?_) signed
    exact (outlast evidence held isOwner).1.imp_right fun ⟨key, inside⟩ =>
      ⟨key, fun head named => whole head (inside head named)⟩

end Chain

section Snapshot

variable {context : ValidatedWorkspaceWriteAuthorizationContext}

theorem validateAuthority_nextAuthority {workspaceId : String} {owner : WorkspaceAuthority}
    {epoch : Nat} (signed : verifyWorkspaceOwnershipTransfer P transfer workspaceId owner epoch
      nowMs = .ok ()) : validateAuthority P transfer.payload.nextAuthority = .ok () := by
  obtain ⟨_, _, signed⟩ := bind_ok.mp signed
  obtain ⟨fields, signed⟩ := refuse_bind_ok.mp signed
  obtain ⟨_, _, signed⟩ := bind_ok.mp signed
  obtain ⟨_, signed⟩ := refuse_bind_ok.mp signed
  obtain ⟨_, _, signed⟩ := bind_ok.mp signed
  obtain ⟨_, signed⟩ := refuse_bind_ok.mp signed
  obtain ⟨id, named, signed⟩ := bind_ok.mp signed
  obtain ⟨same, _⟩ := refuse_bind_ok.mp signed
  simp only [not_or] at fields
  refine refuse_bind_ok.mpr ⟨?_, bind_ok.mpr ⟨id, named, refuse_ok.mpr same⟩⟩
  rw [not_or]
  exact ⟨fields.2.2.2.2.1, fields.2.2.2.2.2.2.1⟩

theorem snapshotGraph_withTransfer (room : raw.ownershipTransfers.length < 32)
    (valid : validateAuthority P transfer.payload.nextAuthority = .ok ())
    (graph : snapshotGraph P A raw = .ok byHash) :
    snapshotGraph P A (raw.withTransfer transfer) = .ok byHash := by
  obtain ⟨limits, graph⟩ := refuse_bind_ok.mp graph
  obtain ⟨_, genesis, graph⟩ := bind_ok.mp graph
  obtain ⟨_, _, graph⟩ := bind_ok.mp graph
  refine refuse_bind_ok.mpr ⟨?_, bind_ok.mpr ⟨(), genesis, bind_ok.mpr ⟨(), valid, graph⟩⟩⟩
  simp only [not_or, not_lt] at limits ⊢
  obtain ⟨workspace, document, _, claims, revocations, departures, devices⟩ := limits
  refine ⟨workspace, document, ?_, claims, revocations, departures, devices⟩
  unfold WorkspaceWriteAuthorizationSnapshot.withTransfer
  rw [List.length_append, List.length_singleton]
  exact room

theorem HandsOverAll.signed_by (handed : HandsOverAll P A raw nowMs transfer)
    (loaded : documentHashes A raw.document = .ok byHash)
    (walked : verifiedOwnershipChainWithGraph P raw nowMs ∅ true byHash = .ok chain) :
    verifyWorkspaceOwnershipTransfer P transfer raw.workspaceId chain.current chain.epoch nowMs =
      .ok () := by
  obtain ⟨other, again, signed⟩ := handed.signed
  obtain ⟨graph, same, again⟩ := bind_ok.mp again
  obtain rfl := ok_unique same loaded
  obtain rfl := ok_unique again walked
  exact signed

/-- The transfer validates to the same authority under the next owner. -/
theorem fromSnapshot_withTransfer (lawful : A.Lawful)
    (accepted : fromSnapshot P A raw nowMs = .ok context)
    (room : raw.ownershipTransfers.length < 32) (handed : HandsOverAll P A raw nowMs transfer)
    (outlast : raw.DevicesOutlast A context.currentOwner) :
    ∃ hashes, (∀ hash, hash ∈ hashes ↔ InDocument A raw.document hash) ∧
      fromSnapshot P A (raw.withTransfer transfer) nowMs =
        .ok (context.handOver transfer.payload.nextAuthority hashes) := by
  obtain ⟨byHash, chain, first, valid⟩ := fromSnapshot_ok.mp accepted
  have loaded := documentHashes_of_snapshotGraph valid.graph
  obtain ⟨hashes, reached, whole⟩ := ancestry_documentHeads lawful loaded handed.heads
  have signed := handed.signed_by loaded first
  obtain ⟨boundaries, drawn, read⟩ := valid.bounded
  obtain ⟨devices, removed, read⟩ := bind_ok.mp read
  obtain ⟨departures, left, same⟩ := bind_ok.mp read
  refine ⟨hashes, whole, fromSnapshot_ok.mpr ⟨byHash, _, walk_withTransfer first signed reached,
    ?_, walk_withTransfer valid.walked signed reached, ?_, boundaries,
    chainBoundaries_withTransfer ?_ drawn, ?_⟩⟩
  · exact snapshotGraph_withTransfer room (validateAuthority_nextAuthority signed) valid.graph
  · refine refuse_ok.mpr ?_
    rw [not_or, not_not, not_not]
    exact ⟨rfl, rfl⟩
  · exact fun hash known => (whole hash).mpr ((inDocument_iff lawful loaded).mpr known)
  · obtain rfl := Except.ok.inj same
    exact bind_ok.mpr ⟨devices, verifiedDeviceRevocations_withTransfer
      (fun hash held => (whole hash).mpr held) outlast removed,
      bind_ok.mpr ⟨departures, left, rfl⟩⟩

/-- So it does for retained history. -/
theorem fromSnapshotCausal_withTransfer (lawful : A.Lawful)
    (accepted : fromSnapshotCausal P A raw = .ok context)
    (room : raw.ownershipTransfers.length < 32) (handed : HandsOverAll P A raw endOfTime transfer)
    (outlast : raw.DevicesOutlast A context.currentOwner) :
    ∃ hashes, (∀ hash, hash ∈ hashes ↔ InDocument A raw.document hash) ∧
      fromSnapshotCausal P A (raw.withTransfer transfer) =
        .ok (context.handOver transfer.payload.nextAuthority hashes) := by
  obtain ⟨inner, validated, same⟩ := bind_ok.mp accepted
  obtain rfl := Except.ok.inj same
  obtain ⟨hashes, whole, handedOver⟩ := fromSnapshot_withTransfer lawful validated room handed
    outlast
  exact ⟨hashes, whole, bind_ok.mpr ⟨_, handedOver, rfl⟩⟩

/-- The owner whom the transfer names is another person. -/
theorem HandsOverAll.apart (handed : HandsOverAll P A raw nowMs transfer)
    (accepted : fromSnapshot P A raw nowMs = .ok context) :
    context.currentOwner.personId ≠ transfer.payload.nextAuthority.personId := by
  obtain ⟨byHash, chain, first, valid⟩ := fromSnapshot_ok.mp accepted
  have signed := handed.signed_by (documentHashes_of_snapshotGraph valid.graph) first
  obtain ⟨_, _, read⟩ := valid.bounded
  obtain ⟨_, _, read⟩ := bind_ok.mp read
  obtain ⟨_, _, same⟩ := bind_ok.mp read
  obtain rfl := Except.ok.inj same
  obtain ⟨signer, _, apart, _⟩ := verifyWorkspaceOwnershipTransfer_fields signed
  exact fun same => apart (same.symm.trans signer.symm)

end Snapshot

end MetaMesh
