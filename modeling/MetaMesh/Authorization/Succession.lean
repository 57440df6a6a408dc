import MetaMesh.Authorization.Context

/-!
# Succession claims under revocations

A succession claim is checked against a set of revoked people: the new owner is
not among them, a named successor keeps priority unless revoked, and otherwise
a majority of the editors that are not revoked has to have voted.  `fromSnapshot`
checks every claim twice, with nobody revoked and with everybody the snapshot
revokes.  The theorems here say which claims stand under both, and which
revocations an accepted snapshot can take in.
-/

namespace MetaMesh

open Fallible

/-- The people whose votes a claim carries. -/
def WorkspaceSuccessionClaimPayload.voters (p : WorkspaceSuccessionClaimPayload) : List String :=
  p.votes.map fun vote => vote.signed.payload.voterPersonId

variable {P : Primitives} {nowMs : Int} {revoked : Finset String}
  {p : WorkspaceSuccessionClaimPayload} {E : Type} {A : Automerge E} {byHash : DocumentGraph}
  {chain : ChainState} {context : ValidatedWorkspaceWriteAuthorizationContext}
  {raw : WorkspaceWriteAuthorizationSnapshot}

section Checks

variable {policy : WorkspaceSuccessionPolicy} {candidate : String} {authority : WorkspaceAuthority}

theorem verifyWorkspaceSuccessionVote_ok {vote : WorkspaceSuccessionVote} :
    verifyWorkspaceSuccessionVote P vote policy candidate authority revoked nowMs = .ok () ↔
      verifyWorkspaceSuccessionVote P vote policy candidate authority ∅ nowMs = .ok () ∧
        vote.signed.payload.voterPersonId ∉ revoked := by
  unfold verifyWorkspaceSuccessionVote
  rw [refuse_after_ok, refuse_after_ok, and_right_comm]
  refine and_congr_left fun _ => ?_
  simp only [not_or, Finset.notMem_empty, not_false_eq_true, and_true, and_assoc]

/-- The votes are valid, and each voter votes once. -/
theorem successionVoters_ok {voters : Finset String} :
    successionVoters P p authority revoked nowMs = .ok voters ↔
      (∀ vote ∈ p.votes, verifyWorkspaceSuccessionVote P vote p.policy p.toOwnerPersonId authority
        revoked nowMs = .ok ()) ∧ p.voters.Nodup ∧ voters = p.voters.toFinset := by
  have loop : ∀ (votes : List WorkspaceSuccessionVote) (seen : Finset String),
      votes.foldlM (fun voters vote => do
          verifyWorkspaceSuccessionVote P vote p.policy p.toOwnerPersonId authority revoked nowMs
          refuse (vote.signed.payload.voterPersonId ∈ voters) "Duplicate succession voter"
          .ok (insert vote.signed.payload.voterPersonId voters)) seen = .ok voters ↔
        (∀ vote ∈ votes, verifyWorkspaceSuccessionVote P vote p.policy p.toOwnerPersonId authority
          revoked nowMs = .ok ()) ∧
        (votes.map fun vote => vote.signed.payload.voterPersonId).Nodup ∧
        (∀ vote ∈ votes, vote.signed.payload.voterPersonId ∉ seen) ∧
        voters = seen ∪ (votes.map fun vote => vote.signed.payload.voterPersonId).toFinset := by
    intro votes
    induction votes with
    | nil =>
      simp [pure, Except.pure, eq_comm]
    | cons vote votes ih =>
      intro seen
      rw [List.foldlM_cons, bind_ok]
      simp only [bind_ok, ih, Except.ok.injEq]
      constructor
      · rintro ⟨_, ⟨⟨⟩, verified, ⟨⟩, passed, rfl⟩, rest, distinct, others, rfl⟩
        have fresh := refuse_ok.mp passed
        refine ⟨List.forall_mem_cons.mpr ⟨verified, rest⟩, ?_,
          List.forall_mem_cons.mpr ⟨fresh, fun other held => ?_⟩, ?_⟩
        · refine List.nodup_cons.mpr ⟨fun again => ?_, distinct⟩
          obtain ⟨other, held, same⟩ := List.mem_map.mp again
          exact others other held (same ▸ Finset.mem_insert_self _ _)
        · exact fun inSeen => others other held (Finset.mem_insert_of_mem inSeen)
        · simp
      · rintro ⟨verified, distinct, others, rfl⟩
        rw [List.forall_mem_cons] at verified others
        rw [List.map_cons, List.nodup_cons] at distinct
        refine ⟨_, ⟨(), verified.1, (), refuse_ok.mpr others.1, rfl⟩, verified.2, distinct.2,
          fun other held => ?_, by simp⟩
        rw [Finset.mem_insert, not_or]
        exact ⟨fun same => distinct.1 (same ▸ List.mem_map_of_mem held), others.2 other held⟩
  unfold successionVoters WorkspaceSuccessionClaimPayload.voters
  rw [loop]
  simp

/-- Who may succeed: the successor that the policy names and that is not
revoked; or, with none, an eligible editor with the votes of a majority. -/
theorem checkSuccessor_ok :
    checkSuccessor P p authority revoked nowMs = .ok () ↔
      if p.policy.payload.successorPersonId.all (· ∈ revoked) then
        p.toOwnerPersonId ∈ p.policy.payload.eligibleEditorPersonIds ∧
          (∀ vote ∈ p.votes, verifyWorkspaceSuccessionVote P vote p.policy p.toOwnerPersonId
            authority ∅ nowMs = .ok ()) ∧
          (∀ voter ∈ p.voters, voter ∉ revoked) ∧ p.voters.Nodup ∧
          (p.policy.payload.eligibleEditorPersonIds.filter (· ∉ revoked)).length / 2 + 1 ≤
            p.votes.length
      else p.policy.payload.successorPersonId = some p.toOwnerPersonId := by
  by_cases vacant : p.policy.payload.successorPersonId.all (· ∈ revoked) = true
  · simp only [checkSuccessor, if_pos vacant]
    rw [refuse_bind_ok, not_not, bind_ok]
    simp only [successionVoters_ok, refuse_ok, not_lt]
    refine and_congr_right fun _ => ?_
    have votes : (∀ vote ∈ p.votes, verifyWorkspaceSuccessionVote P vote p.policy
          p.toOwnerPersonId authority revoked nowMs = .ok ()) ↔
        (∀ vote ∈ p.votes, verifyWorkspaceSuccessionVote P vote p.policy p.toOwnerPersonId
          authority ∅ nowMs = .ok ()) ∧ ∀ voter ∈ p.voters, voter ∉ revoked := by
      simp only [@verifyWorkspaceSuccessionVote_ok P _ revoked,
        WorkspaceSuccessionClaimPayload.voters, List.forall_mem_map]
      exact forall₂_and
    rw [votes]
    constructor
    · rintro ⟨_, ⟨⟨valid, active⟩, distinct, rfl⟩, quorum⟩
      rw [List.toFinset_card_of_nodup distinct] at quorum
      exact ⟨valid, active, distinct,
        by simpa [WorkspaceSuccessionClaimPayload.voters] using quorum⟩
    · rintro ⟨valid, active, distinct, quorum⟩
      refine ⟨_, ⟨⟨valid, active⟩, distinct, rfl⟩, ?_⟩
      rw [List.toFinset_card_of_nodup distinct]
      simpa [WorkspaceSuccessionClaimPayload.voters] using quorum
  · simp only [checkSuccessor, if_neg vacant, refuse_ok, not_not]

variable {claim : WorkspaceSuccessionClaim} {workspaceId : String} {minimumEpoch : Nat}

/-- The revoked people enter a claim's check only through the successor. -/
theorem successor_of_verified
    (verified : verifyWorkspaceSuccessionClaim P claim workspaceId authority minimumEpoch revoked
      nowMs = .ok ()) :
    claim.payload.toOwnerPersonId ∉ revoked ∧
      checkSuccessor P claim.payload authority revoked nowMs = .ok () ∧
      ∀ others, claim.payload.toOwnerPersonId ∉ others →
        checkSuccessor P claim.payload authority others nowMs = .ok () →
        verifyWorkspaceSuccessionClaim P claim workspaceId authority minimumEpoch others nowMs =
          .ok () := by
  simp only [verifyWorkspaceSuccessionClaim, ↓refuse_bind_ok, bind_ok, not_or] at verified ⊢
  obtain ⟨_, size, ⟨kind, version, workspace, signer, named, other, active⟩, toId, key, heads,
    next, epoch, follows, timely, time, intime, _, policy, fresh, role, grant, editor, device,
    certified, signed, signature, valid, _, checked, former⟩ := verified
  refine ⟨active, checked, fun others active checked => ?_⟩
  exact ⟨(), size, ⟨kind, version, workspace, signer, named, other, active⟩, toId, key, heads,
    next, epoch, follows, timely, time, intime, (), policy, fresh, role, grant, editor, device,
    certified, signed, signature, valid, (), checked, former⟩

end Checks

/-! ## The first walk -/

variable (p) in
/-- A claim that holds with nobody revoked: the policy names no one else, and
if it names no one, the votes are a majority of all eligible editors. -/
def WorkspaceSuccessionClaimPayload.StandsUnrevoked : Prop :=
  (∀ successor ∈ p.policy.payload.successorPersonId, successor = p.toOwnerPersonId) ∧
    (p.policy.payload.successorPersonId = none →
      p.policy.payload.eligibleEditorPersonIds.length / 2 + 1 ≤ p.votes.length)

section Unrevoked

variable {authority : WorkspaceAuthority}

theorem standsUnrevoked_of_checked (checked : checkSuccessor P p authority ∅ nowMs = .ok ()) :
    p.StandsUnrevoked := by
  rw [checkSuccessor_ok] at checked
  unfold WorkspaceSuccessionClaimPayload.StandsUnrevoked
  cases named : p.policy.payload.successorPersonId with
  | none =>
    simp only [named, Option.all_none, if_true] at checked
    simpa using checked.2.2.2.2
  | some successor => simpa [named] using checked

theorem checked_of_standsUnrevoked (checked : checkSuccessor P p authority revoked nowMs = .ok ())
    (stands : p.StandsUnrevoked) : checkSuccessor P p authority ∅ nowMs = .ok () := by
  rw [checkSuccessor_ok] at checked ⊢
  obtain ⟨successors, majority⟩ := stands
  cases named : p.policy.payload.successorPersonId with
  | none =>
    simp only [named, Option.all_none, if_true] at checked ⊢
    obtain ⟨eligible, valid, _, distinct, _⟩ := checked
    exact ⟨eligible, valid, by simp, distinct, by simpa using majority named⟩
  | some successor => simpa using successors successor named

end Unrevoked

theorem mem_transitions {claim : WorkspaceSuccessionClaim} :
    .succession claim ∈ raw.transitions ↔ claim ∈ raw.successionClaims := by
  simp [WorkspaceWriteAuthorizationSnapshot.transitions]

/-- The first walk follows a chain that the second one follows exactly when
every claim stands with nobody revoked. -/
theorem firstWalk_iff
    (walked : verifiedOwnershipChainWithGraph P raw nowMs raw.revokedPeople true byHash =
      .ok chain) :
    verifiedOwnershipChainWithGraph P raw nowMs ∅ true byHash = .ok chain ↔
      ∀ claim ∈ raw.successionClaims, claim.payload.StandsUnrevoked := by
  obtain ⟨ts, same, order⟩ := verifiedOwnershipChainWithGraph_ok.mp walked
  constructor
  · intro first claim held
    obtain ⟨us, same', order'⟩ := verifiedOwnershipChainWithGraph_ok.mp first
    obtain ⟨authority, epoch, verified⟩ :=
      order'.verified (same'.mem_iff.mpr (mem_transitions.mpr held))
    exact standsUnrevoked_of_checked (successor_of_verified verified).2.1
  · intro stand
    refine verifiedOwnershipChainWithGraph_ok.mpr ⟨ts, same, order.withRevoked ?_⟩
    intro claim held authority epoch verified
    have stands := stand claim (mem_transitions.mp (same.mem_iff.mp held))
    obtain ⟨_, checked, verifies⟩ := successor_of_verified verified
    exact verifies ∅ (Finset.notMem_empty _) (checked_of_standsUnrevoked checked stands)

/-- The owner of a chain that ends with a claim is the claim's new owner. -/
theorem current_of_last
    (walked : verifiedOwnershipChainWithGraph P raw nowMs revoked true byHash = .ok chain)
    {claim : WorkspaceSuccessionClaim} (held : claim ∈ raw.successionClaims)
    (last : ∀ t ∈ raw.transitions, t.epoch ≤ claim.payload.epoch) :
    chain.current = claim.payload.nextAuthority := by
  obtain ⟨ts, same, order⟩ := verifiedOwnershipChainWithGraph_ok.mp walked
  have inOrder := same.mem_iff.mpr (mem_transitions.mpr held)
  rcases order.ends with ⟨rfl, _⟩ | ⟨t, inOrder', owner, epoch⟩
  · cases inOrder
  · have later := order.epoch_le.2 _ inOrder
    have equal : t = .succession claim := order.eq_of_epoch_eq inOrder' inOrder
      (le_antisymm (last t (same.mem_iff.mp inOrder')) (by rwa [← epoch]))
    rw [owner, equal]
    rfl

/-- The validation with the snapshot's own revocations from the start. -/
def validateOnce (P : Primitives) (A : Automerge E)
    (raw : WorkspaceWriteAuthorizationSnapshot) (nowMs : Int) :
    Except String ValidatedWorkspaceWriteAuthorizationContext := do
  let byHash ← snapshotGraph P A raw
  let chain ← verifiedOwnershipChainWithGraph P raw nowMs raw.revokedPeople true byHash
  checkExpectedOwner raw chain
  let boundaries ← chainBoundaries P raw nowMs byHash chain
  contextOfChain P raw nowMs byHash boundaries chain

theorem exists_validSnapshot (validated : (validateOnce P A raw nowMs).isOk = true) :
    ∃ byHash chain context, ValidSnapshot P A raw nowMs byHash chain context := by
  obtain ⟨context, validated⟩ := isOk_iff.mp validated
  obtain ⟨byHash, graph, validated⟩ := bind_ok.mp validated
  obtain ⟨chain, walked, validated⟩ := bind_ok.mp validated
  obtain ⟨_, expected, validated⟩ := bind_ok.mp validated
  obtain ⟨boundaries, bounded, read⟩ := bind_ok.mp validated
  exact ⟨byHash, chain, context, graph, walked, expected, boundaries, bounded, read⟩

/-- A snapshot that is valid under its own revocations is accepted exactly when
its succession claims also stand with nobody revoked; it then reports the last
successor as the owner. -/
theorem fromSnapshot_accepts_iff {E : Type} {P : Primitives} {A : Automerge E}
    {raw : WorkspaceWriteAuthorizationSnapshot} {nowMs : Int} {byHash : DocumentGraph}
    {chain : ChainState} {context : ValidatedWorkspaceWriteAuthorizationContext}
    (valid : ValidSnapshot P A raw nowMs byHash chain context) :
    ((∃ accepted, fromSnapshot P A raw nowMs = .ok accepted) ↔
        ∀ claim ∈ raw.successionClaims, claim.payload.StandsUnrevoked) ∧
      ∀ accepted, fromSnapshot P A raw nowMs = .ok accepted → accepted = context ∧
        ∀ claim ∈ raw.successionClaims, (∀ t ∈ raw.transitions, t.epoch ≤ claim.payload.epoch) →
          accepted.currentOwner = claim.payload.nextAuthority := by
  have accepts : (∀ claim ∈ raw.successionClaims, claim.payload.StandsUnrevoked) →
      fromSnapshot P A raw nowMs = .ok context := fun stand =>
    fromSnapshot_ok.mpr ⟨byHash, chain, (firstWalk_iff valid.walked).mpr stand, valid⟩
  have stands : ∀ accepted, fromSnapshot P A raw nowMs = .ok accepted →
      ∀ claim ∈ raw.successionClaims, claim.payload.StandsUnrevoked := by
    intro accepted ok
    obtain ⟨byHash', chain', first, valid'⟩ := fromSnapshot_ok.mp ok
    exact (firstWalk_iff valid'.walked).mp first
  refine ⟨⟨fun ⟨accepted, ok⟩ => stands accepted ok, fun stand => ⟨context, accepts stand⟩⟩, ?_⟩
  intro accepted ok
  have same := ok_unique ok (accepts (stands accepted ok))
  refine ⟨same, fun claim held last => ?_⟩
  rw [same, valid.currentOwner.1]
  exact current_of_last valid.walked held last

namespace Sample

/-- An editor succeeded the creator with some votes. -/
def succession (policy : WorkspaceSuccessionPolicy) (voters : List Nat)
    (revocations : List WorkspaceRevocation) : WorkspaceWriteAuthorizationSnapshot where
  workspaceId := "workspace"
  genesisOwner := authority 0
  genesisEpoch := 1
  expectedCurrentOwner := authority 2
  document := [0]
  ownershipTransfers := []
  successionClaims := [claim 0 2 policy voters 2 ["head"]]
  revocations := revocations
  deviceRevocations := []
  departures := []

end Sample

open Sample

set_option maxRecDepth 100000

/-- A claim by votes, with somebody else revoked. -/
theorem succession_by_votes_sample :
    ∃ context, ((∃ accepted, fromSnapshot primitives automerge
          (succession (policy 0 none [2] 1) [2] [revocation 0 1 ["head"]]) 0 =
          .ok accepted) ↔
        ∀ claim ∈ (succession (policy 0 none [2] 1) [2]
          [revocation 0 1 ["head"]]).successionClaims, claim.payload.StandsUnrevoked) ∧
      ∀ accepted, fromSnapshot primitives automerge
          (succession (policy 0 none [2] 1) [2] [revocation 0 1 ["head"]]) 0 =
          .ok accepted → accepted = context ∧
        ∀ claim ∈ (succession (policy 0 none [2] 1) [2] [revocation 0 1 ["head"]]).successionClaims,
          (∀ t ∈ (succession (policy 0 none [2] 1) [2]
            [revocation 0 1 ["head"]]).transitions, t.epoch ≤ claim.payload.epoch) →
          accepted.currentOwner = claim.payload.nextAuthority := by
  obtain ⟨byHash, chain, context, valid⟩ := @exists_validSnapshot primitives 0 _
    automerge (succession (policy 0 none [2] 1) [2] [revocation 0 1 ["head"]]) (by decide)
  exact ⟨context, fromSnapshot_accepts_iff valid⟩

/-- The policy names a successor whom the owner then revoked.  The claim of
another editor holds under the snapshot's revocations, but the first walk of
`fromSnapshot` takes the revoked successor for one with priority. -/
theorem revoked_successor_blocks :
    let raw := succession (policy 0 (some 1) [1, 2] 1) [2] [revocation 0 1 ["head"]]
    (∃ byHash chain context, ValidSnapshot primitives automerge raw 0 byHash chain context) ∧
      acceptedOwner raw = .error "Named successor has priority" := by
  intro raw
  refine ⟨exists_validSnapshot ?_, ?_⟩
  · decide
  · decide

/-! ## One more revocation -/

variable (raw) in
def WorkspaceWriteAuthorizationSnapshot.withRevocation
    (record : WorkspaceRevocation) : WorkspaceWriteAuthorizationSnapshot :=
  { raw with revocations := raw.revocations ++ [record] }

variable (p) in
/-- Revoking a person leaves a claim standing. -/
def WorkspaceSuccessionClaimPayload.Survives (person : String) : Prop :=
  person ≠ p.toOwnerPersonId ∧
    (p.policy.payload.successorPersonId = none → person ∉ p.voters)

section Survival

variable {authority : WorkspaceAuthority} {person : String}

theorem survives_of_checked (active : p.toOwnerPersonId ∉ insert person revoked)
    (checked : checkSuccessor P p authority (insert person revoked) nowMs = .ok ()) :
    p.Survives person := by
  refine ⟨fun same => active (same ▸ Finset.mem_insert_self _ _), fun named voted => ?_⟩
  rw [checkSuccessor_ok] at checked
  simp only [named, Option.all_none, if_true] at checked
  exact checked.2.2.1 person voted (Finset.mem_insert_self _ _)

/-- With fewer active editors the quorum is no larger, so that only the new
owner and the voters matter. -/
theorem checked_of_survives (stands : p.StandsUnrevoked) (active : p.toOwnerPersonId ∉ revoked)
    (checked : checkSuccessor P p authority revoked nowMs = .ok ()) (survives : p.Survives person) :
    p.toOwnerPersonId ∉ insert person revoked ∧
      checkSuccessor P p authority (insert person revoked) nowMs = .ok () := by
  have stillActive : p.toOwnerPersonId ∉ insert person revoked := by
    rw [Finset.mem_insert, not_or]
    exact ⟨survives.1.symm, active⟩
  refine ⟨stillActive, ?_⟩
  rw [checkSuccessor_ok] at checked ⊢
  cases named : p.policy.payload.successorPersonId with
  | none =>
    simp only [named, Option.all_none, if_true] at checked ⊢
    obtain ⟨eligible, valid, others, distinct, quorum⟩ := checked
    refine ⟨eligible, valid, fun voter voted => ?_, distinct, le_trans ?_ quorum⟩
    · rw [Finset.mem_insert, not_or]
      exact ⟨fun same => survives.2 named (same ▸ voted), others voter voted⟩
    · have fewer : (p.policy.payload.eligibleEditorPersonIds.filter
          (· ∉ insert person revoked)).length ≤
          (p.policy.payload.eligibleEditorPersonIds.filter (· ∉ revoked)).length := by
        refine (List.monotone_filter_right _ fun editor kept => ?_).length_le
        simp only [Finset.mem_insert, not_or, decide_eq_true_eq] at kept ⊢
        exact kept.2
      omega
  | some successor =>
    have same := stands.1 successor named
    subst same
    rw [if_neg (by simpa using stillActive)]

end Survival

section OneMore

variable {record : WorkspaceRevocation}

theorem snapshotGraph_withRevocation (graph : snapshotGraph P A raw = .ok byHash)
    (room : raw.revocations.length < 512) :
    snapshotGraph P A (raw.withRevocation record) = .ok byHash := by
  obtain ⟨limits, rest⟩ := refuse_bind_ok.mp graph
  refine refuse_bind_ok.mpr ⟨?_, rest⟩
  simp only [not_or, not_lt] at limits ⊢
  obtain ⟨workspace, document, transfers, claims, _, departures, devices⟩ := limits
  refine ⟨workspace, document, transfers, claims, ?_, departures, devices⟩
  simp only [WorkspaceWriteAuthorizationSnapshot.withRevocation, List.length_append,
    List.length_singleton]
  omega

theorem revokedPeople_withRevocation :
    (raw.withRevocation record).revokedPeople =
      insert record.payload.personId raw.revokedPeople := by
  unfold WorkspaceWriteAuthorizationSnapshot.revokedPeople
  rw [WorkspaceWriteAuthorizationSnapshot.withRevocation, List.map_append, List.toFinset_append,
    Finset.union_comm]
  rfl

theorem chainBoundaries_withRevocation {boundaries : Table String (List RevocationBoundary)} :
    chainBoundaries P (raw.withRevocation record) nowMs byHash chain = .ok boundaries ↔
      ∃ before boundary, chainBoundaries P raw nowMs byHash chain = .ok before ∧
        revocationBoundary P raw.workspaceId chain.authorities chain.current.personId
          chain.historicalHashes nowMs byHash record = .ok boundary ∧
        boundaries = before.push record.payload.personId boundary := by
  have split : chainBoundaries P (raw.withRevocation record) nowMs byHash chain =
      chainBoundaries P raw nowMs byHash chain >>= fun before =>
        revocationBoundary P raw.workspaceId chain.authorities chain.current.personId
          chain.historicalHashes nowMs byHash record >>= fun boundary =>
          .ok (before.push record.payload.personId boundary) := by
    unfold chainBoundaries verifiedRevocationBoundaries
    rw [WorkspaceWriteAuthorizationSnapshot.withRevocation, List.foldlM_append]
    refine congrArg _ (funext fun before => ?_)
    rw [List.foldlM_cons, bind_assoc]
    rfl
  rw [split]
  simp only [bind_ok, Except.ok.injEq]
  constructor
  · rintro ⟨before, verified, boundary, drawn, rfl⟩
    exact ⟨before, boundary, verified, drawn, rfl⟩
  · rintro ⟨before, boundary, verified, drawn, rfl⟩
    exact ⟨before, verified, boundary, drawn, rfl⟩

/-- What is read after the walks does not depend on the boundaries. -/
theorem contextOfChain_withRevocation {before after : Table String (List RevocationBoundary)}
    (read : contextOfChain P raw nowMs byHash before chain = .ok context) :
    contextOfChain P (raw.withRevocation record) nowMs byHash after chain =
      .ok { context with revocationBoundaries := after } := by
  obtain ⟨devices, removed, read⟩ := bind_ok.mp read
  obtain ⟨departures, left, same⟩ := bind_ok.mp read
  rw [← Except.ok.inj same]
  exact bind_ok.mpr ⟨devices, removed, bind_ok.mpr ⟨departures, left, rfl⟩⟩

/-- The second walk after one more revocation. -/
theorem secondWalk_withRevocation_iff
    (first : verifiedOwnershipChainWithGraph P raw nowMs ∅ true byHash = .ok chain)
    (walked : verifiedOwnershipChainWithGraph P raw nowMs raw.revokedPeople true byHash =
      .ok chain) :
    (∃ after, verifiedOwnershipChainWithGraph P (raw.withRevocation record) nowMs
        (raw.withRevocation record).revokedPeople true byHash = .ok after) ↔
      ∀ claim ∈ raw.successionClaims, claim.payload.Survives record.payload.personId := by
  have stand := (firstWalk_iff walked).mp first
  rw [revokedPeople_withRevocation]
  constructor
  · rintro ⟨after, walked'⟩ claim held
    obtain ⟨us, same', order'⟩ := verifiedOwnershipChainWithGraph_ok.mp walked'
    obtain ⟨authority, epoch, verified⟩ :=
      order'.verified (same'.mem_iff.mpr (mem_transitions.mpr held))
    obtain ⟨active, checked, _⟩ := successor_of_verified verified
    exact survives_of_checked active checked
  · intro survive
    obtain ⟨ts, same, order⟩ := verifiedOwnershipChainWithGraph_ok.mp walked
    refine ⟨chain, verifiedOwnershipChainWithGraph_ok.mpr ⟨ts, same, order.withRevoked ?_⟩⟩
    intro claim held authority epoch verified
    have inClaims := mem_transitions.mp (same.mem_iff.mp held)
    obtain ⟨active, checked, verifies⟩ := successor_of_verified verified
    obtain ⟨active', checked'⟩ :=
      checked_of_survives (stand claim inClaims) active checked (survive claim inClaims)
    exact verifies _ active' checked'

end OneMore

/-- An accepted snapshot takes in a revocation that its owner signed exactly
when the revocation also holds for the authority under which the owner first
came into the chain, and every succession survives it. -/
theorem revocation_accepted_iff {E : Type} {P : Primitives} {A : Automerge E}
    {raw : WorkspaceWriteAuthorizationSnapshot} {nowMs : Int} {byHash : DocumentGraph}
    {context : ValidatedWorkspaceWriteAuthorizationContext} {record : WorkspaceRevocation}
    (lawful : A.Lawful) (accepted : fromSnapshot P A raw nowMs = .ok context)
    (signed : verifyWorkspaceRevocation P record raw.workspaceId context.currentOwner nowMs =
      .ok ())
    (graph : documentHashes A raw.document = .ok byHash)
    (inside : ∀ head ∈ record.payload.workspaceHeads, (byHash.lookup head).isSome)
    (room : raw.revocations.length < 512) :
    (∃ after, fromSnapshot P A (raw.withRevocation record) nowMs = .ok after ∧
        after.currentOwner = context.currentOwner) ↔
      (∃ authority, (context.historicalOwners ++ [context.currentOwner]).find?
          (fun authority => authority.personId = context.currentOwner.personId) = some authority ∧
        verifyWorkspaceRevocation P record raw.workspaceId authority nowMs = .ok ()) ∧
      ∀ claim ∈ raw.successionClaims, claim.payload.Survives record.payload.personId := by
  obtain ⟨byHash', chain, first, valid⟩ := fromSnapshot_ok.mp accepted
  obtain rfl : byHash' = byHash :=
    ok_unique (documentHashes_of_snapshotGraph valid.graph) graph
  obtain ⟨owner, history⟩ := valid.currentOwner
  have ownerId : record.payload.ownerPersonId = chain.current.personId := by
    rw [owner_of_verifyWorkspaceRevocation signed, owner]
  have survival := @secondWalk_withRevocation_iff P nowMs byHash' chain raw record first
    valid.walked
  rw [owner, history]
  constructor
  · rintro ⟨after, ok, _⟩
    obtain ⟨byHash'', chain', first', valid'⟩ := fromSnapshot_ok.mp ok
    obtain rfl : byHash'' = byHash' :=
      ok_unique (documentHashes_of_snapshotGraph valid'.graph) graph
    obtain rfl : chain' = chain := ok_unique first' first
    refine ⟨?_, survival.mp ⟨chain', valid'.walked⟩⟩
    obtain ⟨boundaries, verified, _⟩ := valid'.bounded
    obtain ⟨_, boundary, _, drawn, _⟩ := chainBoundaries_withRevocation.mp verified
    obtain ⟨authority, _, found, _, verified, _⟩ := revocationBoundary_ok.mp drawn
    rw [ownerId] at found
    exact ⟨authority, found, verified⟩
  · rintro ⟨⟨authority, found, verified⟩, survive⟩
    obtain ⟨chain', walked'⟩ := survival.mpr survive
    obtain rfl : chain' = chain := walks_agree first walked'
    obtain ⟨before, drawn, read⟩ := valid.bounded
    obtain ⟨hashes, reached⟩ := ancestry_of_present lawful graph inside
    have same : authority.personId = chain'.current.personId := by
      simpa using List.find?_some found
    have boundary : revocationBoundary P raw.workspaceId chain'.authorities chain'.current.personId
        chain'.historicalHashes nowMs byHash' record = .ok ⟨record.payload.epoch, hashes⟩ := by
      refine revocationBoundary_ok.mpr ⟨authority, hashes, ?_, ?_, verified, reached, rfl⟩
      · rw [ownerId]
        exact found
      · simp [ownerControlFrontierAllowed, same]
    refine ⟨_, fromSnapshot_ok.mpr ⟨byHash', chain', first,
      snapshotGraph_withRevocation valid.graph room, walked', valid.expected, _,
      chainBoundaries_withRevocation.mpr ⟨before, _, drawn, boundary, rfl⟩,
      contextOfChain_withRevocation read⟩, owner⟩

theorem Sample.succession_accepted :
    acceptedOwner (succession (policy 0 none [2, 3] 1) [2, 3] []) = .ok (authority 2) := by
  decide

/-- The new owner revokes somebody who had no part in the succession. -/
theorem revocation_accepted_sample :
    ∃ context, fromSnapshot primitives automerge
        (succession (policy 0 none [2, 3] 1) [2, 3] []) 0 = .ok context ∧
      ((∃ after, fromSnapshot primitives automerge
          ((succession (policy 0 none [2, 3] 1) [2, 3] []).withRevocation
            (revocation 2 4 ["head"])) 0 = .ok after ∧
          after.currentOwner = context.currentOwner) ↔
        (∃ authority, (context.historicalOwners ++ [context.currentOwner]).find?
            (fun authority => authority.personId = context.currentOwner.personId) = some authority ∧
          verifyWorkspaceRevocation primitives (revocation 2 4 ["head"])
            "workspace" authority 0 = .ok ()) ∧
        ∀ claim ∈ (succession (policy 0 none [2, 3] 1) [2, 3] []).successionClaims,
          claim.payload.Survives (revocation 2 4 ["head"]).payload.personId) := by
  obtain ⟨context, accepted, owner⟩ :=
    fromSnapshot_of_acceptedOwner succession_accepted
  have signed : verifyWorkspaceRevocation primitives (revocation 2 4 ["head"])
      "workspace" (authority 2) 0 = .ok () := by decide
  rw [← owner] at signed
  refine ⟨context, accepted, ?_⟩
  exact revocation_accepted_iff automerge_lawful accepted signed rfl (by decide) (by decide)

/-- The new owner revokes one of those who voted for them; the succession, and
with it the whole snapshot, is no longer accepted. -/
theorem revoked_voter_breaks_history :
    let raw := succession (policy 0 none [2, 3] 1) [2, 3] []
    acceptedOwner raw = .ok (authority 2) ∧
      verifyWorkspaceRevocation primitives (revocation 2 3 ["head"]) "workspace"
        (authority 2) 0 = .ok () ∧
      acceptedOwner (raw.withRevocation (revocation 2 3 ["head"])) =
        .error "Invalid workspace succession vote" := by
  intro raw
  refine ⟨succession_accepted, ?_, ?_⟩
  · decide
  · decide

end MetaMesh
