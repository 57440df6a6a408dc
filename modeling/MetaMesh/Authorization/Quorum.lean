import MetaMesh.Authorization.Succession

/-!
# Succession quorums

Without a named successor, a claim needs the votes of more than half of the eligible editors that
are not revoked.  Two such majorities have a voter in common, so claims for different successors
need somebody who voted twice.
-/

namespace MetaMesh

open Fallible

/-- The claim is valid under the policy through the votes it carries, whenever it is checked and
for whatever epoch. -/
structure ValidByVotes (P : Primitives) (policy : WorkspaceSuccessionPolicy)
    (authority : WorkspaceAuthority) (revoked : Finset String)
    (claim : WorkspaceSuccessionClaim) : Prop where
  policy_eq : claim.payload.policy = policy
  vacant : policy.payload.successorPersonId.all (· ∈ revoked) = true
  verified : ∃ workspaceId minimumEpoch nowMs, verifyWorkspaceSuccessionClaim P claim workspaceId
    authority minimumEpoch revoked nowMs = .ok ()

section Quorums

variable {P : Primitives} {policy : WorkspaceSuccessionPolicy} {authority : WorkspaceAuthority}
  {revoked : Finset String} {claim claim' : WorkspaceSuccessionClaim}

variable (policy revoked) in
/-- The eligible editors that are not revoked. -/
def activeEditors : Finset String :=
  (policy.payload.eligibleEditorPersonIds.filter (· ∉ revoked)).toFinset

theorem eligible_of_vote {vote : WorkspaceSuccessionVote} {candidate : String} {nowMs : Int}
    (verified : verifyWorkspaceSuccessionVote P vote policy candidate authority revoked nowMs =
      .ok ()) :
    vote.signed.payload.voterPersonId ∈ policy.payload.eligibleEditorPersonIds ∧
      vote.signed.payload.candidatePersonId = candidate := by
  obtain ⟨fields, _⟩ := refuse_after_ok.mp verified
  simp only [not_or, not_not] at fields
  obtain ⟨_, _, _, _, _, chosen, voter, _⟩ := fields
  exact ⟨voter, chosen⟩

/-- What the votes of a valid claim say: each is for its successor, and the voters are more than
half of the active editors. -/
theorem ValidByVotes.votes (valid : ValidByVotes P policy authority revoked claim) :
    (∀ vote ∈ claim.payload.votes,
      vote.signed.payload.candidatePersonId = claim.payload.toOwnerPersonId) ∧
    claim.payload.voters.toFinset ⊆ activeEditors policy revoked ∧
    (activeEditors policy revoked).card < 2 * claim.payload.voters.toFinset.card := by
  obtain ⟨workspaceId, minimumEpoch, nowMs, verified⟩ := valid.verified
  have checked := checkSuccessor_ok.mp (successor_of_verified verified).2.1
  rw [valid.policy_eq, if_pos valid.vacant] at checked
  obtain ⟨_, votes, active, distinct, quorum⟩ := checked
  refine ⟨fun vote held => (eligible_of_vote (votes vote held)).2, ?_, ?_⟩
  · intro voter held
    rw [List.mem_toFinset] at held
    obtain ⟨vote, cast, rfl⟩ := List.mem_map.mp held
    simp only [activeEditors, List.mem_toFinset, List.mem_filter, decide_eq_true_eq]
    exact ⟨(eligible_of_vote (votes vote cast)).1, active _ held⟩
  · have few : (activeEditors policy revoked).card ≤
        (policy.payload.eligibleEditorPersonIds.filter (· ∉ revoked)).length :=
      List.toFinset_card_le _
    have length : claim.payload.voters.length = claim.payload.votes.length := List.length_map _
    rw [List.toFinset_card_of_nodup distinct, length]
    omega

theorem ValidByVotes.share (valid : ValidByVotes P policy authority revoked claim)
    (valid' : ValidByVotes P policy authority revoked claim') :
    ∃ person, person ∈ claim.payload.voters ∧ person ∈ claim'.payload.voters := by
  obtain ⟨_, within, more⟩ := valid.votes
  obtain ⟨_, within', more'⟩ := valid'.votes
  obtain ⟨person, both⟩ := Finset.inter_nonempty_of_card_lt_card_add_card within within' (by omega)
  rw [Finset.mem_inter, List.mem_toFinset, List.mem_toFinset] at both
  exact ⟨person, both⟩

end Quorums

/-- Any two claims that are valid through votes share a voter; where nobody votes for two
candidates, all such claims name one successor. -/
theorem succession_quorums_intersect (P : Primitives) (policy : WorkspaceSuccessionPolicy)
    (authority : WorkspaceAuthority) (revoked : Finset String) :
    (∀ claim claim', ValidByVotes P policy authority revoked claim →
      ValidByVotes P policy authority revoked claim' →
      ∃ person, person ∈ claim.payload.voters ∧ person ∈ claim'.payload.voters) ∧
    ∀ claims : Set WorkspaceSuccessionClaim,
      (∀ claim ∈ claims, ValidByVotes P policy authority revoked claim) →
      (∀ claim ∈ claims, ∀ claim' ∈ claims, ∀ vote ∈ claim.payload.votes,
        ∀ other ∈ claim'.payload.votes,
        vote.signed.payload.voterPersonId ∈ policy.payload.eligibleEditorPersonIds →
        other.signed.payload.voterPersonId = vote.signed.payload.voterPersonId →
        other.signed.payload.candidatePersonId = vote.signed.payload.candidatePersonId) →
      ∀ claim ∈ claims, ∀ claim' ∈ claims,
        claim.payload.toOwnerPersonId = claim'.payload.toOwnerPersonId := by
  refine ⟨fun claim claim' valid valid' => valid.share valid', ?_⟩
  intro claims valid once claim held claim' held'
  obtain ⟨person, inClaim, inClaim'⟩ := (valid claim held).share (valid claim' held')
  obtain ⟨vote, cast, rfl⟩ := List.mem_map.mp inClaim
  obtain ⟨other, cast', same⟩ := List.mem_map.mp inClaim'
  have eligible := (valid claim held).votes.2.1 (List.mem_toFinset.mpr inClaim)
  rw [activeEditors, List.mem_toFinset, List.mem_filter] at eligible
  calc claim.payload.toOwnerPersonId
      = vote.signed.payload.candidatePersonId := ((valid claim held).votes.1 vote cast).symm
    _ = other.signed.payload.candidatePersonId :=
        (once claim held claim' held' vote cast other cast' eligible.1 same).symm
    _ = claim'.payload.toOwnerPersonId := (valid claim' held').votes.1 other cast'

open Sample

/-- A claim under a policy that has three editors vote. -/
abbrev Sample.elected (voters : List Nat) : WorkspaceSuccessionClaim :=
  claim 0 2 (policy 0 none [2, 3, 4] 1) voters 2 ["head"]

set_option maxRecDepth 100000 in
/-- Two of three editors, and another two of them. -/
theorem succession_quorums_intersect_sample : ∃ claim claim',
    ValidByVotes primitives (policy 0 none [2, 3, 4] 1) (authority 0) ∅ claim ∧
    ValidByVotes primitives (policy 0 none [2, 3, 4] 1) (authority 0) ∅ claim' ∧
    claim.payload.voters = [keyId 2, keyId 3] ∧
    claim'.payload.voters = [keyId 3, keyId 4] ∧
    (∃ person, person ∈ claim.payload.voters ∧ person ∈ claim'.payload.voters) ∧
    claim.payload.toOwnerPersonId = claim'.payload.toOwnerPersonId := by
  have valid : ∀ voters ∈ [[2, 3], [3, 4]], ValidByVotes primitives
      (policy 0 none [2, 3, 4] 1) (authority 0) ∅ (elected voters) := by
    have verified : ∀ voters ∈ [[2, 3], [3, 4]], verifyWorkspaceSuccessionClaim primitives
        (elected voters) "workspace" (authority 0) 1 ∅ 0 = .ok () := by decide
    exact fun voters held => ⟨rfl, rfl, _, _, _, verified voters held⟩
  obtain ⟨share, agree⟩ := succession_quorums_intersect primitives
    (policy 0 none [2, 3, 4] 1) (authority 0) ∅
  refine ⟨_, _, valid [2, 3] (by decide), valid [3, 4] (by decide), rfl, rfl,
    share _ _ (valid [2, 3] (by decide)) (valid [3, 4] (by decide)), ?_⟩
  refine agree { elected [2, 3], elected [3, 4] } ?_ ?_ _ (.inl rfl) _ (.inr rfl)
  · intro claim held
    rcases held with rfl | rfl
    · exact valid [2, 3] (by decide)
    · exact valid [3, 4] (by decide)
  · intro claim held claim' held' vote cast other cast' _ _
    have all : ∀ claim ∈ ({ elected [2, 3], elected [3, 4] } :
        Set WorkspaceSuccessionClaim), ∀ vote ∈ claim.payload.votes,
        vote.signed.payload.candidatePersonId = keyId 2 := by
      intro claim held vote cast
      rcases held with rfl | rfl <;> obtain ⟨voter, _, rfl⟩ := List.mem_map.mp cast <;> rfl
    rw [all claim held vote cast, all claim' held' other cast']

end MetaMesh
