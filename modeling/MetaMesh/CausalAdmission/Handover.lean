import Mathlib.Data.List.Sublists
import MetaMesh.Authorization.Transfer
import MetaMesh.CausalAdmission.RecordOrder
import MetaMesh.CausalAdmission.Renewal
import MetaMesh.CausalAdmission.Resolution

/-!
# Admission after a transfer of ownership

The history of a workspace is evaluated again after the owner signed the workspace over at
the current heads.  Every record is then read under the next owner: their own records are
an owner's, those of the owner before are a former owner's or rest on a grant, and all
others prove what they did, except where they rest on an automation grant, which only the
owner in office can give.

`Steady` says when no change loses its role by that, and `admission_survives_transfer` that
then nothing that was admitted is lost.
-/

namespace MetaMesh

open Fallible ValidatedWorkspaceWriteAuthorizationContext

variable {P : Primitives} {context : ValidatedWorkspaceWriteAuthorizationContext}
  {hashes : Finset String} {next : WorkspaceAuthority} {role : WorkspaceRole} {E : Type}
  {A : Automerge E} {checks : ScopeChecks A} {history : CausalHistory A} {node : ChangeNode E}
  {record : IncomingWorkspaceChangeAuthorization} {transfer : WorkspaceOwnershipTransfer}
  {scope : Option AutomationGrantScope} {plan : CausalAdmissionPlan}
  {records : List IncomingWorkspaceChangeAuthorization}

/-! ## Roles under the next owner -/

section Roles

variable {personId : String} {grant : Option WorkspaceGrant}

variable {signed : WorkspaceGrant}

theorem verifiedGrant_iff {epoch : Nat} :
    context.verifiedGrant P personId grant = some (role, epoch) ↔
      ∃ signed, grant = some signed ∧ GrantedBy P context personId signed role ∧
        epoch = signed.payload.effectiveAccessEpoch := by
  refine ⟨verifiedGrant_eq_some, ?_⟩
  rintro ⟨signed, rfl, ⟨authority, held, verified⟩, rfl⟩
  cases found : context.verifiedGrant P personId (some signed) with
  | none =>
    have missed := List.findSome?_eq_none_iff.mp found authority held
    simp [verified, Except.toOption] at missed
  | some pair =>
    obtain ⟨role', epoch⟩ := pair
    obtain ⟨other, same, ⟨_, _, verified'⟩, rfl⟩ := verifiedGrant_eq_some found
    obtain rfl := Option.some.inj same
    rw [(verifyWorkspaceGrant_ok verified).1, (verifyWorkspaceGrant_ok verified').1]

variable (P context next personId) in
/-- A grant that an owner signed, or the one who takes office next. -/
def GrantStands (grant : WorkspaceGrant) (role : WorkspaceRole) : Prop :=
  GrantedBy P context personId grant role ∨ verifyWorkspaceGrant P grant context.workspaceId
    personId next.identity next.certificates = .ok role

theorem grantedBy_handOver :
    GrantedBy P (context.handOver next hashes) personId signed role ↔
      GrantStands P context next personId signed role := by
  have owners : ∀ authority, authority ∈ (context.handOver next hashes).currentOwnerAndHistory ↔
        authority ∈ context.currentOwnerAndHistory ∨ authority = next := by
    intro authority
    simp only [currentOwnerAndHistory, handOver, List.mem_cons, List.mem_append, List.not_mem_nil,
      or_false]
    tauto
  constructor
  · rintro ⟨authority, held, verified⟩
    rcases (owners authority).mp held with before | rfl
    · exact .inl ⟨authority, before, verified⟩
    · exact .inr verified
  · rintro (⟨authority, held, verified⟩ | verified)
    · exact ⟨authority, (owners authority).mpr (.inl held), verified⟩
    · exact ⟨next, (owners next).mpr (.inr rfl), verified⟩

theorem GrantStands.role_eq (stands : GrantStands P context next personId signed role) :
    role = signed.payload.role := by
  rcases stands with ⟨_, _, verified⟩ | verified <;> exact (verifyWorkspaceGrant_ok verified).1

theorem roleFor_owner :
    context.roleFor P context.currentOwner.personId grant = .ok (.owner, none) :=
  if_pos rfl

/-- Someone who is neither the owner nor the next one keeps their role, unless it rests on
an automation grant, or they were an owner and bring a grant of the next one. -/
theorem roleFor_other {role : WorkspaceRole × Option Nat}
    (notOwner : personId ≠ context.currentOwner.personId) (notNext : personId ≠ next.personId)
    (automation : ∀ signed, grant = some signed →
      ¬ GrantStands P context next personId signed .automation)
    (granted : personId ∈ context.historicalHashes → ∀ signed role, grant = some signed →
      GrantStands P context next personId signed role → GrantedBy P context personId signed role)
    (read : context.roleFor P personId grant = .ok role) :
    (context.handOver next hashes).roleFor P personId grant = .ok role := by
  have former : personId ∈ (context.handOver next hashes).historicalHashes ↔
      personId ∈ context.historicalHashes := by
    simp [handOver, AList.mem_insert, notOwner]
  unfold roleFor at read ⊢
  rw [if_neg notOwner] at read
  rw [if_neg (show ¬ personId = (context.handOver next hashes).currentOwner.personId from notNext)]
  cases found : context.verifiedGrant P personId grant with
  | none =>
    simp only [found] at read
    split at read
    · next wasOwner =>
      have none : (context.handOver next hashes).verifiedGrant P personId grant = none := by
        refine Option.eq_none_iff_forall_ne_some.mpr fun ⟨role, epoch⟩ verified => ?_
        obtain ⟨signed, given, stands, rfl⟩ := verifiedGrant_iff.mp verified
        have before := granted wasOwner signed role given (grantedBy_handOver.mp stands)
        rw [verifiedGrant_iff.mpr ⟨signed, given, before, rfl⟩] at found
        cases found
      simpa only [none, former, if_pos wasOwner] using read
    · cases read
  | some pair =>
    obtain ⟨role', epoch⟩ := pair
    obtain ⟨signed, given, before, epochs⟩ := verifiedGrant_eq_some found
    rw [found] at read
    rw [verifiedGrant_iff.mpr ⟨signed, given, grantedBy_handOver.mpr (.inl before), epochs⟩]
    cases role' with
    | editor
    | visitor => exact read
    | owner => simpa only [former] using read
    | automation => exact absurd (.inl before) (automation signed given)

/-- What the owner's own records prove once they are a former owner. -/
theorem roleFor_previous (apart : context.currentOwner.personId ≠ next.personId)
    (automation : ∀ signed, grant = some signed →
      ¬ GrantStands P context next context.currentOwner.personId signed .automation) :
    (∃ role signed, grant = some signed ∧ (role = .editor ∨ role = .visitor) ∧
      GrantStands P context next context.currentOwner.personId signed role ∧
      (context.handOver next hashes).roleFor P context.currentOwner.personId grant =
        .ok (role, some signed.payload.effectiveAccessEpoch)) ∨
    (∀ signed, grant = some signed → ∀ role, role = .editor ∨ role = .visitor →
      ¬ GrantStands P context next context.currentOwner.personId signed role) ∧
    (context.handOver next hashes).roleFor P context.currentOwner.personId grant =
      .ok (.owner, none) := by
  have former : context.currentOwner.personId ∈
      (context.handOver next hashes).historicalHashes := by
    simp [handOver, AList.mem_insert]
  unfold roleFor
  rw [if_neg (show ¬ context.currentOwner.personId =
    (context.handOver next hashes).currentOwner.personId from apart)]
  cases found : (context.handOver next hashes).verifiedGrant P context.currentOwner.personId
      grant with
  | none =>
    refine .inr ⟨fun signed given role _ stands => ?_, if_pos former⟩
    have verified : (context.handOver next hashes).verifiedGrant P
        context.currentOwner.personId grant = some (role, _) :=
      verifiedGrant_iff.mpr ⟨signed, given, grantedBy_handOver.mpr stands, rfl⟩
    rw [found] at verified
    cases verified
  | some pair =>
    obtain ⟨role, epoch⟩ := pair
    obtain ⟨signed, given, granted, rfl⟩ := verifiedGrant_eq_some found
    rw [grantedBy_handOver] at granted
    cases role with
    | editor => exact .inl ⟨.editor, signed, given, .inl rfl, granted, rfl⟩
    | visitor => exact .inl ⟨.visitor, signed, given, .inr rfl, granted, rfl⟩
    | owner =>
      refine .inr ⟨fun other given' role lesser stands => ?_, if_pos former⟩
      obtain rfl := Option.mem_unique given given'
      obtain rfl := stands.role_eq.trans granted.role_eq.symm
      rcases lesser with same | same <;> cases same
    | automation => exact absurd granted (automation signed given)

/-- A grant lets through what the office does. -/
theorem revocationAllows_of_none {hash : String} {epoch : Option Nat}
    (allows : context.revocationAllows personId none hash = true) :
    context.revocationAllows personId epoch hash = true := by
  have renewed : ∀ boundaries, boundariesAllow boundaries none hash = true →
      boundariesAllow boundaries epoch hash = true := by
    intro boundaries inside
    cases boundaries with
    | none => rfl
    | some boundaries =>
      rw [boundariesAllow, Option.all_some, List.all_eq_true] at inside ⊢
      intro boundary held
      have within := inside boundary held
      rw [Option.any_none, Bool.false_or] at within
      rw [within, Bool.or_true]
  unfold revocationAllows at allows ⊢
  rw [Bool.and_eq_true] at allows ⊢
  exact allows.imp (renewed _) (renewed _)

end Roles

/-! ## Records under the next owner -/

variable (history transfer) in
/-- A history whose owner has signed it over. -/
def CausalHistory.withTransfer : CausalHistory A :=
  { history with snapshot := history.snapshot.withTransfer transfer }

/-- The findings of a record about a change: the one of the role it proves, wherever it lets
the change through. -/
theorem mem_recordFindings {found : Finding} :
    found ∈ recordFindings P checks history context node record ↔
      verifyChangeAuthorization P record context.workspaceId history.needed = .ok () ∧
        node.hash ∈ record.signed.payload.hashes ∧ node.hash ∈ history.needed ∧
        ∃ role grantEpoch,
          context.roleFor P record.signed.payload.personId record.grant = .ok (role, grantEpoch) ∧
          LetsThrough context record.signed.payload role grantEpoch node.hash ∧
          found = finding P checks history context record node role := by
  unfold recordFindings
  constructor
  · intro held
    split at held
    · split at held
      · next admitted ran =>
        obtain ⟨proof, inProofs, rfl⟩ := List.mem_map.mp held
        obtain ⟨inAdmitted, same⟩ := List.mem_filter.mp inProofs
        obtain ⟨hash, role⟩ := proof
        obtain rfl := of_decide_eq_true same
        obtain ⟨verified, covers, needed, epoch, read, lets⟩ := mem_admitted ran inAdmitted
        exact ⟨verified, covers, needed, role, epoch, read, lets, rfl⟩
      · cases held
    · cases held
  · rintro ⟨verified, covers, needed, role, epoch, read, lets, rfl⟩
    rw [if_pos ⟨node.hash, covers, needed⟩,
      admitWithNeededForCausal_ok.mpr ⟨verified, role, epoch, read, rfl⟩]
    refine List.mem_map.mpr ⟨⟨node.hash, role⟩, List.mem_filter.mpr ⟨List.mem_map.mpr
      ⟨node.hash, List.mem_filter.mpr ⟨covers, decide_eq_true ⟨needed, lets⟩⟩, rfl⟩, by simp⟩, rfl⟩

/-- A finding that proves a role is one of that role, and the change bears it out. -/
theorem finding_eq_proves {role' : WorkspaceRole}
    (proves : finding P checks history context record node role = .proves role' scope) :
    role' = role ∧ (role ≠ .automation → scope = none) ∧
      checkProvenance P checks history context record node role = .ok () := by
  unfold finding at proves
  split at proves
  · cases proves
  · next passed =>
    split at proves
    · next automation =>
      split at proves
      · cases proves
      · obtain ⟨rfl, _⟩ := Finding.proves.inj proves
        exact ⟨automation.symm, fun other => absurd automation other, passed⟩
    · obtain ⟨rfl, rfl⟩ := Finding.proves.inj proves
      exact ⟨rfl, fun _ => rfl, passed⟩

theorem finding_of_passed (other : role ≠ .automation)
    (passed : checkProvenance P checks history context record node role = .ok ()) :
    finding P checks history context record node role = .proves role none := by
  unfold finding
  rw [passed]
  exact if_neg other

/-- Behind a finding that proves a role is a record that does. -/
theorem proves_of_mem (held : node ∈ history.nodes)
    (found : .proves role scope ∈ recordFindings P checks history context node record) :
    Proves P checks history context record node role := by
  obtain ⟨verified, covers, needed, role', epoch, read, lets, same⟩ := mem_recordFindings.mp found
  obtain ⟨rfl, _, passed⟩ := finding_eq_proves same.symm
  refine ⟨held, ⟨_, admitWithNeededForCausal_ok.mpr ⟨verified, role, epoch, read, rfl⟩, ?_⟩, passed⟩
  exact List.mem_map.mpr ⟨node.hash, List.mem_filter.mpr
    ⟨covers, decide_eq_true ⟨needed, lets⟩⟩, rfl⟩

/-- A record of somebody who keeps their role is read as before. -/
theorem recordFindings_other
    (notOwner : record.signed.payload.personId ≠ context.currentOwner.personId)
    (notNext : record.signed.payload.personId ≠ next.personId)
    (kept : (∃ hash ∈ record.signed.payload.hashes, hash ∈ history.needed) → ∀ role,
      context.roleFor P record.signed.payload.personId record.grant = .ok role →
      (context.handOver next hashes).roleFor P record.signed.payload.personId record.grant =
        .ok role)
    (admitted : RecordAdmitted P history context record) :
    recordFindings P checks history (context.handOver next hashes) node record =
      recordFindings P checks history context node record := by
  have former : ∀ role hash, (context.handOver next hashes).formerOwnerAllows role
      record.signed.payload.personId hash =
        context.formerOwnerAllows role record.signed.payload.personId hash := by
    intro role hash
    unfold formerOwnerAllows
    rw [decide_eq_false (show ¬ record.signed.payload.personId =
      (context.handOver next hashes).currentOwner.personId from notNext),
      decide_eq_false notOwner]
    unfold handOver
    rw [Table.lookup_insert_ite, if_neg notOwner]
  unfold recordFindings
  by_cases covers : ∃ hash ∈ record.signed.payload.hashes, hash ∈ history.needed
  · obtain ⟨proofs, ran⟩ := admitted covers
    have again : admitWithNeededForCausal P record (context.handOver next hashes) history.needed
        true = .ok proofs := by
      obtain ⟨verified, role, epoch, read, rfl⟩ := admitWithNeededForCausal_ok.mp ran
      refine admitWithNeededForCausal_ok.mpr ⟨verified, role, epoch, kept covers _ read, ?_⟩
      simp only [former]
      rfl
    rw [if_pos covers, if_pos covers, ran, again]
    rfl
  · rw [if_neg covers, if_neg covers]

/-! ## What refusals leave alone -/

/-- Whether a finding gives a role. -/
def Finding.isProof : Finding → Bool
  | .proves _ _ => true
  | .refused _ => false

theorem filter_isProof_eq_nil {found : List Finding}
    (none : ∀ role scope, .proves role scope ∉ found) : found.filter Finding.isProof = [] := by
  refine List.filter_eq_nil_iff.mpr fun finding inFound proof => ?_
  cases finding with
  | proves role scope => exact none role scope inFound
  | refused reason => cases proof

/-- A proof looks at the role and the scope of a slot. -/
theorem Slot.take_proves_congr {slot other : Slot} (role : slot.role = other.role)
    (scope : slot.scope = other.scope) (proven : WorkspaceRole)
    (given : Option AutomationGrantScope) :
    (slot.take (.proves proven given)).role = (other.take (.proves proven given)).role ∧
      (slot.take (.proves proven given)).scope = (other.take (.proves proven given)).scope := by
  cases given with
  | none => simp [take, role, scope]
  | some given =>
    dsimp only [take]
    rw [scope]
    split
    · exact ⟨role, rfl⟩
    · simp [role]

/-- Only proofs decide about the role in a slot. -/
theorem Slot.role_foldl_proofs (found : List Finding) (slot : Slot) :
    (found.foldl Slot.take slot).role =
      ((found.filter Finding.isProof).foldl Slot.take slot).role := by
  have relate : ∀ (found : List Finding) (slot other : Slot), slot.role = other.role →
      slot.scope = other.scope → (found.foldl Slot.take slot).role =
        ((found.filter Finding.isProof).foldl Slot.take other).role := by
    intro found
    induction found with
    | nil => exact fun _ _ role _ => role
    | cons first found ih =>
      intro slot other role scope
      cases first with
      | refused reason => exact ih _ _ role scope
      | proves proven given =>
        obtain ⟨role, scope⟩ := take_proves_congr role scope proven given
        exact ih _ _ role scope
  exact relate found slot slot rfl rfl

/-- The role in a slot was proved. -/
theorem Slot.mem_of_role {found : List Finding} {slot : Slot}
    (known : (found.foldl Slot.take slot).role = some role) :
    slot.role = some role ∨ ∃ scope, .proves role scope ∈ found := by
  induction found generalizing slot with
  | nil => exact .inl known
  | cons first found ih =>
    rcases ih known with taken | ⟨scope, later⟩
    · cases first with
      | refused reason => exact .inl taken
      | proves proven given =>
        have here : (slot.take (.proves proven given)).role = slot.role ∨
            (slot.take (.proves proven given)).role = some proven := by
          cases given with
          | none =>
            by_cases owner : slot.role = some .owner <;> simp [take, owner]
          | some given =>
            dsimp only [take]
            split
            · exact .inl rfl
            · by_cases owner : slot.role = some .owner <;> simp [owner]
        rcases here with same | same
        · exact .inl (same.symm.trans taken)
        · obtain rfl := Option.mem_unique same taken
          exact .inr ⟨given, by simp⟩
    · exact .inr ⟨scope, List.mem_cons_of_mem first later⟩

/-! ## Verdicts under the next owner -/

section Verdicts

variable {ids : List String}

theorem takeSourceDelta_mayCreate {mayCreate : Bool} {ids' : List String} {delta : SourceDelta}
    (taken : takeSourceDelta mayCreate ids delta = .ok ids') :
    takeSourceDelta true ids delta = .ok ids' := by
  cases delta with
  | untouched => exact taken
  | edited => cases taken
  | created validated =>
    obtain ⟨_, rest⟩ := refuse_bind_ok.mp taken
    exact refuse_bind_ok.mpr ⟨by simp, rest⟩

variable {role' : WorkspaceRole} {scope' : Option AutomationGrantScope}

/-- Who may create sources creates what anybody else would. -/
theorem sourceResult_mayCreate (may : mayCreateSources role' scope' = true)
    (result : sourceResult checks history node role scope = .ok ids) :
    sourceResult checks history node role' scope' = .ok ids := by
  unfold sourceResult at result ⊢
  split at result
  · next touches =>
    rw [if_pos touches]
    obtain ⟨deltas, read, taken⟩ := bind_ok.mp result
    refine bind_ok.mpr ⟨deltas, read, foldlM_ok_of_imp ?_ taken⟩
    intro delta _ before after step
    rw [may]
    exact takeSourceDelta_mayCreate step
  · next untouched =>
    rw [if_neg untouched]
    exact result

theorem roleVerdict_of_sourceResult
    (result : sourceResult checks history node role scope = .ok ids) :
    roleVerdict checks history node role scope =
      ⟨(roleStatus checks history node role scope).1, if ids = [] then none else
        some (ids, checks.workspaceEntitiesObjectAtFrontier history.document [node.hash]),
        checks.workspaceEntitiesMapRebound history.document node,
        (roleStatus checks history node role scope).2⟩ := by
  unfold roleVerdict
  rw [result]

theorem sourceResult_of_admitted
    (admitted : (roleVerdict checks history node role scope).status.isAdmitted = true) :
    ∃ ids, sourceResult checks history node role scope = .ok ids := by
  unfold roleVerdict at admitted
  cases result : sourceResult checks history node role scope with
  | ok ids => exact ⟨ids, rfl⟩
  | error reason =>
    rw [result] at admitted
    cases admitted

theorem roleVerdict_effect (other : role ≠ .automation) :
    (roleVerdict checks history node role scope).effect = none := by
  have status : (roleStatus checks history node role scope).2 = none := by
    unfold roleStatus
    rw [if_neg other]
    split <;> rfl
  unfold roleVerdict
  split
  · rfl
  · exact status

theorem roleVerdict_creation_of_untouched
    (untouched : checks.applicationSourceChangeMayTouch history.document node = false) :
    (roleVerdict checks history node role scope).creation = none := by
  have result : sourceResult checks history node role scope = .ok [] := by
    unfold sourceResult
    rw [untouched]
    rfl
  rw [roleVerdict_of_sourceResult result]
  rfl

/-- A change that keeps its role, or gets an owner's or an editor's, keeps its verdict. -/
theorem roleVerdict_kept
    (admitted : (roleVerdict checks history node role scope).status.isAdmitted = true)
    (cause : role' = .owner ∨ (role' = .editor ∧ node.dependencies ≠ []) ∨
      (role' = role ∧ role ≠ .automation)) :
    (roleVerdict checks history node role' scope').status.isAdmitted = true ∧
      (roleVerdict checks history node role' scope').creation =
        (roleVerdict checks history node role scope).creation ∧
      (roleVerdict checks history node role' scope').rebinding =
        (roleVerdict checks history node role scope).rebinding := by
  obtain ⟨ids, result⟩ := sourceResult_of_admitted admitted
  rcases cause with rfl | ⟨rfl, notFirst⟩ | ⟨rfl, other⟩
  · rw [roleVerdict_of_sourceResult result,
      roleVerdict_of_sourceResult (sourceResult_mayCreate (by rfl) result)]
    exact ⟨rfl, rfl, rfl⟩
  · rw [roleVerdict_of_sourceResult result,
      roleVerdict_of_sourceResult (sourceResult_mayCreate (by rfl) result)]
    refine ⟨?_, rfl, rfl⟩
    unfold roleStatus
    rw [if_neg (fun first => notFirst first.2), if_neg (by decide)]
    rfl
  · rw [roleVerdict_scope (fun automation => absurd automation other)]
    exact ⟨admitted, rfl, rfl⟩

end Verdicts

/-! ## Changes that keep their role -/

/-- No admitted change loses its role when the workspace goes to the next owner. -/
structure Steady {E : Type} {A : Automerge E} (P : Primitives) (checks : ScopeChecks A)
    (history : CausalHistory A) (context : ValidatedWorkspaceWriteAuthorizationContext)
    (next : WorkspaceAuthority) (records : List IncomingWorkspaceChangeAuthorization)
    (plan : CausalAdmissionPlan) : Prop where
  /-- Nobody but the next owner relies on an automation grant for a change of the history. -/
  automation : ∀ record ∈ records,
    (∃ hash ∈ record.signed.payload.hashes, hash ∈ history.needed) →
    record.signed.payload.personId ≠ next.personId → ∀ grant, record.grant = some grant →
      ¬ GrantStands P context next record.signed.payload.personId grant .automation
  /-- No former owner has brought a grant that only the next owner signed. -/
  granted : ∀ record ∈ records, record.signed.payload.personId ∈ context.historicalHashes →
    record.signed.payload.personId ≠ context.currentOwner.personId →
    record.signed.payload.personId ≠ next.personId → ∀ grant role, record.grant = some grant →
      GrantStands P context next record.signed.payload.personId grant role →
      GrantedBy P context record.signed.payload.personId grant role
  /-- What the next owner signed counts as an owner's, too. -/
  promoted : ∀ record ∈ records, record.signed.payload.personId = next.personId →
    ∀ node ∈ history.nodes, plan.Admits node.hash → ∀ role,
      Proves P checks history context record node role →
      context.revocationAllows next.personId none node.hash = true ∧
        identitylessLegacyOwnerRebind context node .owner = false
  /-- What the owner signed is in the document, and rests on the office; or it is an
  editor's, and nobody signed it as a visitor. -/
  retired : ∀ record ∈ records,
    record.signed.payload.personId = context.currentOwner.personId →
    ∀ node ∈ history.nodes, plan.Admits node.hash → node.hash ∈ record.signed.payload.hashes →
      (InDocument A history.snapshot.document node.hash ∧
        ∀ grant, record.grant = some grant → ∀ role, role = .editor ∨ role = .visitor →
          ¬ GrantStands P context next context.currentOwner.personId grant role) ∨
      ((∃ grant, record.grant = some grant ∧
          GrantStands P context next context.currentOwner.personId grant .editor) ∧
        node.dependencies ≠ [] ∧
        editorProvenanceMatches P record node history.snapshot context = true ∧
        ∀ other ∈ records, node.hash ∈ other.signed.payload.hashes →
          other.signed.payload.personId ≠ next.personId → ∀ grant, other.grant = some grant →
            ¬ GrantStands P context next other.signed.payload.personId grant .visitor)
  /-- Where an admitted change replaced the entities map, what is not admitted leaves the
  application sources alone. -/
  sources : ∀ node ∈ history.nodes, ∀ other ∈ history.nodes, plan.Admits node.hash →
    (checks.workspaceEntitiesMapRebound history.document node).isSome = true →
    ¬ plan.Admits other.hash →
    checks.applicationSourceChangeMayTouch history.document other = false

variable (P context next role record) in
/-- Why somebody has a role under the next owner. -/
def RoleCause : Prop :=
  role = .owner ∨ (record.signed.payload.personId ≠ next.personId ∧
    (role = .editor ∨ role = .visitor) ∧ ∃ grant, record.grant = some grant ∧
      GrantStands P context next record.signed.payload.personId grant role)

theorem RoleCause.not_automation (cause : RoleCause P context next role record) :
    role ≠ .automation := by
  rcases cause with rfl | ⟨_, rfl | rfl, _⟩ <;> simp

section Steady

variable (P context checks history node records) in
/-- The role that the findings about a change arrive at. -/
abbrev foundRole : Option WorkspaceRole :=
  ((findings P checks history context records node).foldl Slot.take Slot.empty).role

variable (steady : Steady P checks history context next records plan)
  (apart : context.currentOwner.personId ≠ next.personId)
  (whole : ∀ hash, InDocument A history.snapshot.document hash → hash ∈ hashes)
include steady

theorem Steady.roleFor_other (held : record ∈ records)
    (covers : ∃ hash ∈ record.signed.payload.hashes, hash ∈ history.needed)
    (notOwner : record.signed.payload.personId ≠ context.currentOwner.personId)
    (notNext : record.signed.payload.personId ≠ next.personId) {role : WorkspaceRole × Option Nat}
    (read : context.roleFor P record.signed.payload.personId record.grant = .ok role) :
    (context.handOver next hashes).roleFor P record.signed.payload.personId record.grant =
      .ok role :=
  MetaMesh.roleFor_other notOwner notNext (steady.automation record held covers notNext)
    (fun former => steady.granted record held former notOwner notNext) read

/-- Under the next owner every role but theirs comes from a grant that stands, or from an
office. -/
theorem Steady.role_cases (held : record ∈ records) {epoch : Option Nat}
    (covers : ∃ hash ∈ record.signed.payload.hashes, hash ∈ history.needed)
    (read : (context.handOver next hashes).roleFor P record.signed.payload.personId record.grant =
      .ok (role, epoch)) : RoleCause P context next role record := by
  by_cases isNext : record.signed.payload.personId = next.personId
  · obtain ⟨rfl, _⟩ := Prod.mk.inj (ok_unique roleFor_owner (isNext ▸ read))
    exact .inl rfl
  · rcases roleFor_ok read with ⟨owner, _⟩ | ⟨notOwner, signed, given, granted, _⟩
    · exact .inl owner
    · rw [grantedBy_handOver] at granted
      refine .inr ⟨isNext, ?_, signed, given, granted⟩
      cases role with
      | owner => exact absurd rfl notOwner
      | editor => exact .inl rfl
      | visitor => exact .inr rfl
      | automation =>
        exact absurd granted (steady.automation record held covers isNext signed given)

include apart in
/-- Every record is still admitted. -/
theorem Steady.recordAdmitted (held : record ∈ records)
    (admitted : RecordAdmitted P history context record) :
    RecordAdmitted P history (context.handOver next hashes) record := by
  intro covers
  obtain ⟨proofs, ran⟩ := admitted covers
  obtain ⟨verified, role, epoch, read, _⟩ := admitWithNeededForCausal_ok.mp ran
  obtain ⟨role', read'⟩ : ∃ role', (context.handOver next hashes).roleFor P
      record.signed.payload.personId record.grant = .ok role' := by
    by_cases isNext : record.signed.payload.personId = next.personId
    · exact ⟨_, if_pos isNext⟩
    · by_cases isOwner : record.signed.payload.personId = context.currentOwner.personId
      · have automation := steady.automation record held covers isNext
        rw [isOwner] at automation ⊢
        rcases roleFor_previous apart automation with ⟨_, _, _, _, _, read'⟩ | ⟨_, read'⟩
        · exact ⟨_, read'⟩
        · exact ⟨_, read'⟩
      · exact ⟨_, steady.roleFor_other held covers isOwner isNext read⟩
  exact ⟨_, admitWithNeededForCausal_ok.mpr ⟨verified, role'.1, role'.2, read', rfl⟩⟩

section

variable (held : record ∈ records) (inHistory : node ∈ history.nodes)
  (admits : plan.Admits node.hash)
  (found : .proves role scope ∈ recordFindings P checks history context node record)

include held inHistory admits found

/-- What the next owner's records prove, they prove as an owner's. -/
theorem Steady.promoted_proves (isNext : record.signed.payload.personId = next.personId) :
    .proves .owner none ∈
      recordFindings P checks history (context.handOver next hashes) node record := by
  obtain ⟨allows, bound⟩ := steady.promoted record held isNext node inHistory admits role
    (proves_of_mem inHistory found)
  obtain ⟨verified, covers, needed, role', epoch, _, lets, same⟩ := mem_recordFindings.mp found
  obtain ⟨rfl, _, passed⟩ := finding_eq_proves same.symm
  refine mem_recordFindings.mpr ⟨verified, covers, needed, .owner, none, if_pos isNext,
    ⟨isNext ▸ allows, lets.2.1, ?_⟩, ?_⟩
  · unfold formerOwnerAllows
    rw [decide_eq_true (show record.signed.payload.personId =
      (context.handOver next hashes).currentOwner.personId from isNext)]
    simp
  · have owned : checkProvenance P checks history context record node .owner = .ok () :=
      checkProvenance_ok.mpr ⟨(checkProvenance_ok.mp passed).1, bound, nofun, nofun, nofun⟩
    exact (finding_of_passed (by decide) owned).symm

include apart whole in
/-- What the owner's records prove, they prove as a former owner's or an editor's. -/
theorem Steady.retired_proves
    (isOwner : record.signed.payload.personId = context.currentOwner.personId) :
    .proves .owner none ∈
        recordFindings P checks history (context.handOver next hashes) node record ∨
      .proves .editor none ∈
        recordFindings P checks history (context.handOver next hashes) node record := by
  obtain ⟨verified, covers, needed, role', epoch, read, lets, same⟩ := mem_recordFindings.mp found
  obtain ⟨rfl, _, passed⟩ := finding_eq_proves same.symm
  obtain ⟨rfl, rfl⟩ := Prod.mk.inj (ok_unique roleFor_owner (isOwner ▸ read))
  have automation := steady.automation record held ⟨_, covers, needed⟩ (isOwner ▸ apart)
  rw [isOwner] at automation
  have reads := @roleFor_previous P context hashes next record.grant apart automation
  rcases steady.retired record held isOwner node inHistory admits covers with
    ⟨inDocument, noGrant⟩ | ⟨⟨grant, given, stands⟩, _, provenance, _⟩
  · refine .inl (mem_recordFindings.mpr ⟨verified, covers, needed, .owner, none, ?_,
      ⟨lets.1, lets.2.1, ?_⟩, (finding_of_passed (by decide) passed).symm⟩)
    · rw [isOwner]
      rcases reads with ⟨role, signed, given, lesser, stands, _⟩ | ⟨_, read'⟩
      · exact absurd stands (noGrant signed given role lesser)
      · exact read'
    · unfold formerOwnerAllows handOver
      rw [isOwner, Table.lookup_insert_ite, if_pos rfl, Option.any_some,
        decide_eq_true (Finset.mem_union_right _ (whole _ inDocument)), Bool.or_true]
  · have edited : checkProvenance P checks history context record node .editor = .ok () :=
      checkProvenance_ok.mpr ⟨(checkProvenance_ok.mp passed).1,
        by simp [identitylessLegacyOwnerRebind], fun _ => provenance, nofun, nofun⟩
    refine .inr (mem_recordFindings.mpr ⟨verified, covers, needed, .editor,
      some grant.payload.effectiveAccessEpoch, ?_,
      ⟨revocationAllows_of_none lets.1, lets.2.1, by simp [formerOwnerAllows]⟩,
      (finding_of_passed (by decide) edited).symm⟩)
    rw [isOwner]
    rcases reads with ⟨role, signed, given', _, stands', read'⟩ | ⟨noGrant, _⟩
    · obtain rfl := Option.mem_unique given given'
      rw [stands.role_eq.trans stands'.role_eq.symm]
      exact read'
    · exact absurd stands (noGrant grant given .editor (.inl rfl))

end

/-- A finding of a role under the next owner. -/
theorem Steady.finding_cases (held : record ∈ records)
    (found : .proves role scope ∈ recordFindings P checks history
      (context.handOver next hashes) node record) :
    scope = none ∧ node.hash ∈ record.signed.payload.hashes ∧
      RoleCause P context next role record := by
  obtain ⟨_, covers, needed, role', epoch, read, _, same⟩ := mem_recordFindings.mp found
  obtain ⟨rfl, plain, _⟩ := finding_eq_proves same.symm
  have cause := steady.role_cases held ⟨_, covers, needed⟩ read
  exact ⟨plain cause.not_automation, covers, cause⟩

theorem Steady.not_automation
    (known : foundRole P (context.handOver next hashes) checks history node records = some role) :
    role ≠ .automation := by
  rcases Slot.mem_of_role known with none | ⟨scope, found⟩
  · cases none
  · obtain ⟨record, held, found⟩ := List.mem_flatMap.mp found
    obtain ⟨_, _, cause⟩ := steady.finding_cases held found
    exact cause.not_automation

section

variable (inHistory : node ∈ history.nodes) (admits : plan.Admits node.hash)
include inHistory admits

/-- Where nobody proves an owner and the owner of before an editor, the change is an editor's. -/
theorem Steady.editor_kept (held : record ∈ records)
    (isOwner : record.signed.payload.personId = context.currentOwner.personId)
    (found : .proves .editor none ∈ recordFindings P checks history
      (context.handOver next hashes) node record)
    (noOwner : ∀ record ∈ records, .proves .owner none ∉ recordFindings P checks
      history (context.handOver next hashes) node record) :
    foundRole P (context.handOver next hashes) checks history node records = some .editor ∧
      node.dependencies ≠ [] := by
  obtain ⟨_, covers, cause⟩ := steady.finding_cases held found
  rcases cause with owner | ⟨_, _, grant, given, stands⟩
  · cases owner
  rw [isOwner] at stands
  rcases steady.retired record held isOwner node inHistory admits covers with
    ⟨_, noGrant⟩ | ⟨_, notFirst, _, noVisitor⟩
  · exact absurd stands (noGrant grant given .editor (.inl rfl))
  have all : ∀ role scope, .proves role scope ∈ findings P checks history
      (context.handOver next hashes) records node → role = .editor ∧ scope = none := by
    intro role scope proved
    obtain ⟨other, held', proved⟩ := List.mem_flatMap.mp proved
    obtain ⟨rfl, covers', cause⟩ := steady.finding_cases held' proved
    rcases cause with rfl | ⟨notNext, rfl | rfl, grant', given', stands'⟩
    · exact absurd proved (noOwner other held')
    · exact ⟨rfl, rfl⟩
    · exact absurd stands' (noVisitor other held' covers' notNext grant' given')
  have proved := List.mem_flatMap.mpr ⟨record, held, found⟩
  exact ⟨(Slot.same_of_all ⟨.inl rfl, .inl rfl⟩ all (.inr proved)).1, notFirst⟩

include apart whole in
/-- A record that proves neither an owner nor the owner of before an editor proves what it
proved. -/
theorem Steady.proofs_kept (held : record ∈ records)
    (admitted : RecordAdmitted P history context record)
    (noOwner : .proves .owner none ∉ recordFindings P checks history
      (context.handOver next hashes) node record)
    (noEditor : record.signed.payload.personId = context.currentOwner.personId →
      .proves .editor none ∉ recordFindings P checks history
        (context.handOver next hashes) node record) :
    (recordFindings P checks history (context.handOver next hashes) node record).filter
        Finding.isProof =
      (recordFindings P checks history context node record).filter Finding.isProof := by
  by_cases isNext : record.signed.payload.personId = next.personId
  · rw [filter_isProof_eq_nil, filter_isProof_eq_nil]
    · intro role scope found
      exact noOwner (steady.promoted_proves held inHistory admits found isNext)
    · intro role scope found
      obtain ⟨rfl, _, rfl | ⟨notNext, _⟩⟩ := steady.finding_cases held found
      · exact noOwner found
      · exact notNext isNext
  by_cases isOwner : record.signed.payload.personId = context.currentOwner.personId
  · rw [filter_isProof_eq_nil, filter_isProof_eq_nil]
    · intro role scope found
      rcases steady.retired_proves apart whole held inHistory admits found isOwner with
        found | found
      · exact noOwner found
      · exact noEditor isOwner found
    · intro role scope found
      obtain ⟨rfl, covers, rfl | ⟨_, rfl | rfl, grant, given, stands⟩⟩ :=
        steady.finding_cases held found
      · exact noOwner found
      · exact noEditor isOwner found
      · rw [isOwner] at stands
        rcases steady.retired record held isOwner node inHistory admits covers with
          ⟨_, noGrant⟩ | ⟨⟨other, given', stands'⟩, _⟩
        · exact noGrant grant given .visitor (.inr rfl) stands
        · obtain rfl := Option.mem_unique given given'
          cases stands.role_eq.trans stands'.role_eq.symm
  · rw [recordFindings_other isOwner isNext
      (fun covers _ => steady.roleFor_other held covers isOwner isNext) admitted]

include apart whole in
/-- An admitted change is the owner's, an editor's that is not the first, or has the role it
had, which was no automation's. -/
theorem Steady.role_kept (admitted : ∀ record ∈ records, RecordAdmitted P history context record)
    (known : foundRole P context checks history node records = some role) :
    ∃ role', foundRole P (context.handOver next hashes) checks history node records = some role' ∧
      (role' = .owner ∨ (role' = .editor ∧ node.dependencies ≠ []) ∨
        (role' = role ∧ role ≠ .automation)) := by
  by_cases owned : .proves .owner none ∈
      findings P checks history (context.handOver next hashes) records node
  · exact ⟨.owner, Slot.owner_of_mem (.inr owned), .inl rfl⟩
  have noOwner : ∀ record ∈ records, .proves .owner none ∉ recordFindings P checks
      history (context.handOver next hashes) node record :=
    fun record held found => owned (List.mem_flatMap.mpr ⟨record, held, found⟩)
  by_cases edited : ∃ record ∈ records,
      record.signed.payload.personId = context.currentOwner.personId ∧
        .proves .editor none ∈ recordFindings P checks history
          (context.handOver next hashes) node record
  · -- the owner of before signed as an editor, and nobody as a visitor
    obtain ⟨record, held, isOwner, found⟩ := edited
    obtain ⟨known', notFirst⟩ :=
      steady.editor_kept inHistory admits held isOwner found noOwner
    exact ⟨.editor, known', .inr (.inl ⟨rfl, notFirst⟩)⟩
  · -- the proofs are the same, so the role is
    have same : (findings P checks history (context.handOver next hashes) records node).filter
          Finding.isProof =
        (findings P checks history context records node).filter Finding.isProof := by
      unfold findings
      rw [List.filter_flatMap, List.filter_flatMap]
      exact List.flatMap_congr fun record held =>
        steady.proofs_kept apart whole inHistory admits held (admitted record held)
          (noOwner record held) fun isOwner found => edited ⟨record, held, isOwner, found⟩
    rw [foundRole, Slot.role_foldl_proofs, ← same, ← Slot.role_foldl_proofs] at known
    exact ⟨role, known, .inr (.inr ⟨rfl, steady.not_automation known⟩)⟩

end

variable {evidence more : Evidence}

include apart whole in
/-- The records under the next owner uphold the plan. -/
theorem Steady.upholds (distinct : history.hashes.Nodup)
    (gathered : readEvidence P checks history context records = .ok evidence)
    (gathered' : readEvidence P checks (history.withTransfer transfer)
      (context.handOver next hashes) records = .ok more)
    (judged : ∀ node ∈ history.nodes, plan.Admits node.hash →
      (ownVerdict checks history evidence node).status.isAdmitted = true) :
    Upholds checks history evidence more plan := by
  obtain ⟨admittedAll, filled⟩ := readEvidence_slot distinct gathered
  obtain ⟨_, filled'⟩ := @readEvidence_slot P E A checks (history.withTransfer transfer) _ _
    _ distinct gathered'
  have read : ∀ node ∈ history.nodes,
      evidence.roles.lookup node.hash = foundRole P context checks history node records :=
    fun node held => congrArg Slot.role (filled node held)
  have read' : ∀ node ∈ history.nodes, more.roles.lookup node.hash =
      foundRole P (context.handOver next hashes) checks history node records :=
    fun node held => congrArg Slot.role (filled' node held)
  refine ⟨fun node held admits => ?_, fun node held => ?_, ?_⟩
  · have admitted := judged node held admits
    unfold ownVerdict at admitted ⊢
    cases known : evidence.roles.lookup node.hash with
    | none =>
      rw [known] at admitted
      cases admitted
    | some role =>
      rw [known] at admitted
      obtain ⟨role', known', cause⟩ := steady.role_kept apart whole held admits admittedAll
        ((read node held).symm.trans known)
      rw [← read' node held] at known'
      rw [known']
      exact roleVerdict_kept admitted cause
  · unfold ownVerdict
    split
    · next role known =>
      rw [read' node held] at known
      exact roleVerdict_effect (steady.not_automation known)
    · rfl
  · intro node held other held' admits rebinds outside
    have rebound : (checks.workspaceEntitiesMapRebound history.document node).isSome = true := by
      rw [Option.isSome_iff_ne_none]
      intro none
      refine rebinds ?_
      unfold ownVerdict
      split
      · unfold roleVerdict
        split <;> exact none
      · rfl
    have untouched := steady.sources node held other held' admits rebound outside
    unfold ownVerdict
    split
    · exact roleVerdict_creation_of_untouched untouched
    · rfl

end Steady

/-! ## The evaluation -/

section Evaluation

/-- An input whose owner has signed the workspace over. -/
def CausalAdmissionInput.withTransfer (input : CausalAdmissionInput)
    (transfer : WorkspaceOwnershipTransfer) : CausalAdmissionInput :=
  { input with snapshot := input.snapshot.withTransfer transfer }

theorem readHistory_withTransfer {input : CausalAdmissionInput} {basis : Option String}
    (read : readHistory P A input basis = .ok history) :
    readHistory P A (input.withTransfer transfer) basis = .ok (history.withTransfer transfer) := by
  obtain ⟨_, limits, read⟩ := bind_ok.mp read
  obtain ⟨document, loaded, read⟩ := bind_ok.mp read
  obtain ⟨changes, added, read⟩ := bind_ok.mp read
  obtain ⟨few, same⟩ := refuse_bind_ok.mp read
  obtain rfl := Except.ok.inj same
  exact bind_ok.mpr ⟨(), limits, bind_ok.mpr ⟨document, loaded, bind_ok.mpr
    ⟨changes, added, refuse_bind_ok.mpr ⟨few, rfl⟩⟩⟩⟩

end Evaluation

namespace Sample

/-- The history of `edits`.  The edit can be received, and waits while the root is not
there. -/
def queueing : Automerge Unit :=
  { edits with
    changeFromBytes := fun _ => some editChange
    build := fun changes =>
      if ∀ change ∈ changes, ∀ dep ∈ change.deps, ∃ other ∈ changes, other.hash = dep then
        edits.build changes
      else some (⟨0, by decide⟩ : Fin 3) }

theorem queueing_lawful : queueing.Lawful where
  distinct := edits_lawful.distinct
  closed := edits_lawful.closed
  acyclic := edits_lawful.acyclic
  built changes document distinct closed built := by
    exact edits_lawful.built changes document distinct closed ((if_pos closed).symm.trans built)
  saved := edits_lawful.saved

theorem queueing_applies {nodes : List (ChangeNode Unit)}
    (known : ∀ node ∈ nodes, node.change = rootChange ∨ node.change = editChange) :
    Applies queueing nodes := by
  intro changes inside distinct
  -- what is built depends on which of the two changes are there, and not on their order
  have each : changes ⊆ [rootChange, editChange] := by
    intro change held
    obtain ⟨node, inNodes, rfl⟩ := inside change held
    exact List.mem_pair.mpr (known node inNodes)
  obtain ⟨listed, same, sub⟩ := (distinct.of_map).subperm each
  have built : queueing.build changes = queueing.build listed := by
    simp only [queueing, edits, journal, same.mem_iff, same.all_eq]
  have all : ∀ listed ∈ [rootChange, editChange].sublists, (queueing.build listed).isSome := by
    decide
  rw [built]
  exact Option.isSome_iff_exists.mp (all listed (List.mem_sublists.mpr sub))

theorem handsOverAll {raw : WorkspaceWriteAuthorizationSnapshot} (signed : (do
      let chain ← verifiedOwnershipChain P A raw endOfTime ∅ true
      verifyWorkspaceOwnershipTransfer P transfer raw.workspaceId chain.current chain.epoch
        endOfTime) = .ok ())
    (heads : ((A.load raw.document).map fun document => documentHeads (A.changes document)) =
      some transfer.payload.workspaceHeads) : HandsOverAll P A raw endOfTime transfer := by
  refine ⟨bind_ok.mp signed, fun document loaded hash => ?_⟩
  rw [loaded] at heads
  rw [← Option.some.inj heads]

variable (P checks transfer) in
/-- What was decided before a transfer at the heads of the document, and after it. -/
def BeforeAndAfter (input : CausalAdmissionInput) (before : List CausalAdmissionDecision)
    (after : Except String (List CausalAdmissionDecision)) : Prop :=
  (evaluateCausalAdmission P checks input).map CausalAdmissionPlan.decisions = .ok before ∧
    HandsOverAll P A input.snapshot endOfTime transfer ∧
    (evaluateCausalAdmission P checks (input.withTransfer transfer)).map
      CausalAdmissionPlan.decisions = after

/-- The owner signed an edit that has not reached the document. -/
def pendingEdit : CausalAdmissionInput where
  records := [signedChanges 0 ["root", "edit"] none]
  snapshot := workspace [1]
  pendingChangeBytes := [[]]
  nowMs := 0

/-- Scope checks that allow the automation's change. -/
def automating : ScopeChecks profileEdits :=
  { profileScope profileEdits with
    automationChangeAllowed := fun _ _ _ => .ok ⟨"lead", false⟩ }

/-- The owner gives back a device that the person themselves had removed. -/
def givenBack : CausalAdmissionInput :=
  let removal := deviceRevocation 3 3 "device" ["root"]
  let restoration := deviceRevocation 0 3 "device" ["root"]
  { twoProofs [editorRecord ["edit"]] with
    snapshot := { workspace [2] with
      deviceRevocations := [⟨removal, authority 3⟩, ⟨{ restoration with
        payload := { restoration.payload with restores := some [removal.signature] } },
        authority 0⟩] } }

def rootAnd (status : CausalAdmissionStatus) : List CausalAdmissionDecision :=
  [⟨"edit", status⟩, ⟨"root", .admitted .owner⟩]

def uncovered : CausalAdmissionStatus :=
  .quarantined "No verified signed authorization covers this change"

end Sample

open Sample

set_option maxRecDepth 100000

end MetaMesh
