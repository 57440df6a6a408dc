import MetaMesh.Coownership.Records

/-!
# What counted approvals establish

`verifyApprovals` returns exactly on lists that `ApprovedBy` describes.  The
people it counts are owners of the parent, each with a signature in the list,
so the quorum is a quorum of distinct people however many keys each signs with.
-/

namespace MetaMesh

open Fallible

section Approvals

variable (P : Primitives) {T : Type} [Serialize T] (payload : T)

/-- `approval` is `owner`'s signature on `payload`. -/
def Signs (owner : CoownerIdentity) (approval : CoownedApproval) : Prop :=
  verifyForOwner P ⟨payload, approval.signerKeyId, approval.signature⟩ owner = .ok ()

/-- The people an approval list counts. -/
def approvedPeople (owners : List CoownerIdentity) (approvals : List CoownedApproval) :
    Finset String :=
  (approvals.filterMap fun approval => (approvalSigner P payload owners approval).toOption).toFinset

/-- An approval within its bounds that one owner signed. -/
structure Countable (owners : List CoownerIdentity) (approval : CoownedApproval) : Prop where
  signerNamed : approval.signerKeyId ≠ ""
  signerBounded : approval.signerKeyId.utf8ByteSize ≤ maxScopeIdBytes
  signatureLength : approval.signature.utf8ByteSize = 86
  signed : ∃ person, approvalSigner P payload owners approval = .ok person

/-- Enough owners approve, each once. -/
structure ApprovedBy (approvals : List CoownedApproval) (owners : List CoownerIdentity)
    (policy : CoownerPolicy) : Prop where
  nonempty : approvals ≠ []
  bounded : approvals.length ≤ maxCoownershipApprovals
  nodup : approvals.Nodup
  countable : ∀ approval ∈ approvals, Countable P payload owners approval
  quorum : policy.quorum owners.length ≤ (approvedPeople P payload owners approvals).card

variable {P payload} {owners : List CoownerIdentity} {approval : CoownedApproval}
  {person : String} {approvals : List CoownedApproval} {policy : CoownerPolicy}

/-- The person an approval counts for is an owner who signed it. -/
theorem approvalSigner_signs (counted : approvalSigner P payload owners approval = .ok person) :
    ∃ owner ∈ owners, owner.personId = person ∧ Signs P payload owner approval := by
  obtain ⟨matched, loop, found⟩ := bind_ok.mp counted
  have invariant := foldlM_invariant loop (fun seen matched => ∀ person, matched = some person →
      ∃ owner ∈ seen, owner.personId = person ∧ Signs P payload owner approval)
    (by simp) (by
      intro seen owner rest before after _ holds step person isMatched
      split at step
      · next verified =>
        obtain ⟨-, step⟩ := refuse_bind_ok.mp step
        obtain ⟨⟨⟩, signs⟩ := isOk_iff.mp verified
        cases step
        cases isMatched
        exact ⟨owner, by simp, rfl, signs⟩
      · cases step
        obtain ⟨signer, member, signs⟩ := holds person isMatched
        exact ⟨signer, by simp [member], signs⟩)
  exact invariant person (okOr_ok.mp found)

theorem mem_approvedPeople :
    person ∈ approvedPeople P payload owners approvals ↔
      ∃ approval ∈ approvals, approvalSigner P payload owners approval = .ok person := by
  simp only [approvedPeople, List.mem_toFinset, List.mem_filterMap]
  refine exists_congr fun approval => and_congr_right fun _ => ?_
  cases approvalSigner P payload owners approval <;> simp [Except.toOption]

theorem approvedPeople_cons (counted : approvalSigner P payload owners approval = .ok person) :
    approvedPeople P payload owners (approval :: approvals) =
      insert person (approvedPeople P payload owners approvals) := by
  simp [approvedPeople, counted, Except.toOption]

theorem approvedPeople_mono {fewer more : List CoownedApproval} (included : fewer ⊆ more) :
    approvedPeople P payload owners fewer ⊆ approvedPeople P payload owners more := by
  intro person member
  obtain ⟨approval, listed, counted⟩ := mem_approvedPeople.mp member
  exact mem_approvedPeople.mpr ⟨approval, included listed, counted⟩

theorem countApproval_ok {tally after : Tally} :
    countApproval P payload owners tally approval = .ok after ↔
      Countable P payload owners approval ∧
      (approval.signerKeyId, approval.signature) ∉ tally.seenSignatures ∧
      ∃ person, approvalSigner P payload owners approval = .ok person ∧
        after = ⟨insert (approval.signerKeyId, approval.signature) tally.seenSignatures,
          insert person tally.approvedPeople⟩ := by
  unfold countApproval
  rw [refuse_bind_ok, bind_ok]
  simp only [not_or, Decidable.not_not, Nat.not_lt, Except.ok.injEq]
  constructor
  · rintro ⟨⟨named, bounded, length, unseen⟩, person, counted, rfl⟩
    exact ⟨⟨named, bounded, length, person, counted⟩, unseen, person, counted, rfl⟩
  · rintro ⟨countable, unseen, person, counted, rfl⟩
    exact ⟨⟨countable.signerNamed, countable.signerBounded, countable.signatureLength, unseen⟩,
      person, counted, rfl⟩

/-- The counting loop, from any tally. -/
theorem countApprovals_ok {tally after : Tally} :
    approvals.foldlM (countApproval P payload owners) tally = .ok after ↔
      (∀ approval ∈ approvals, Countable P payload owners approval ∧
        (approval.signerKeyId, approval.signature) ∉ tally.seenSignatures) ∧
      approvals.Nodup ∧
      after = ⟨tally.seenSignatures ∪
          (approvals.map fun a => (a.signerKeyId, a.signature)).toFinset,
        tally.approvedPeople ∪ approvedPeople P payload owners approvals⟩ := by
  induction approvals generalizing tally with
  | nil => simp [approvedPeople, pure, Except.pure, eq_comm]
  | cons approval approvals ih =>
    rw [List.foldlM_cons, bind_ok, List.forall_mem_cons, List.nodup_cons]
    constructor
    · rintro ⟨next, step, rest⟩
      obtain ⟨countable, unseen, person, counted, rfl⟩ := countApproval_ok.mp step
      obtain ⟨remaining, distinct, rfl⟩ := ih.mp rest
      refine ⟨⟨⟨countable, unseen⟩, fun a member => ⟨(remaining a member).1, fun old =>
        (remaining a member).2 (Finset.mem_insert_of_mem old)⟩⟩,
        ⟨fun repeated => ?_, distinct⟩, ?_⟩
      · exact (remaining approval repeated).2 (Finset.mem_insert_self _ _)
      · simp [approvedPeople_cons counted, Finset.insert_union]
    · rintro ⟨⟨⟨countable, unseen⟩, remaining⟩, ⟨fresh, distinct⟩, rfl⟩
      obtain ⟨person, counted⟩ := countable.signed
      refine ⟨_, countApproval_ok.mpr ⟨countable, unseen, person, counted, rfl⟩,
        ih.mpr ⟨fun a member => ⟨(remaining a member).1, fun old => ?_⟩, distinct, ?_⟩⟩
      · rcases Finset.mem_insert.mp old with same | old
        · rcases a with ⟨signer, signature⟩
          simp only [Prod.mk.injEq] at same
          exact fresh (by simpa [same.1, same.2] using member)
        · exact (remaining a member).2 old
      · simp [approvedPeople_cons counted, Finset.insert_union]

theorem verifyApprovals_ok :
    verifyApprovals P payload approvals owners policy = .ok () ↔
      ApprovedBy P payload approvals owners policy := by
  unfold verifyApprovals
  rw [refuse_bind_ok, bind_ok]
  simp only [countApprovals_ok, refuse_ok, not_or, Nat.not_lt]
  constructor
  · rintro ⟨⟨nonempty, bounded⟩, tally, ⟨countable, nodup, rfl⟩, quorum⟩
    exact ⟨nonempty, bounded, nodup, fun a member => (countable a member).1,
      by simpa using quorum⟩
  · rintro approved
    exact ⟨⟨approved.nonempty, approved.bounded⟩, _,
      ⟨fun a member => ⟨approved.countable a member, by simp⟩, approved.nodup, rfl⟩,
      by simpa using approved.quorum⟩

/-- A quorum of distinct owners stands behind an approved payload. -/
theorem ApprovedBy.people (approved : ApprovedBy P payload approvals owners policy) :
    ∃ people : Finset String, policy.quorum owners.length ≤ people.card ∧
      ∀ person ∈ people, ∃ owner ∈ owners, owner.personId = person ∧
        ∃ approval ∈ approvals, Signs P payload owner approval := by
  refine ⟨approvedPeople P payload owners approvals, approved.quorum, fun person member => ?_⟩
  obtain ⟨approval, listed, counted⟩ := mem_approvedPeople.mp member
  obtain ⟨owner, isOwner, named, signs⟩ := approvalSigner_signs counted
  exact ⟨owner, isOwner, named, approval, listed, signs⟩

end Approvals

end MetaMesh
