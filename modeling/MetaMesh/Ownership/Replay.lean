import MetaMesh.Authorization.Chain
import MetaMesh.Ownership.MergeSpec

/-!
# Replaying a merged history

Two readers of one transfer history: `planOwnershipMerge`, which accepts
records batch by batch, and `verifiedOwnershipChain`, which replays the accepted
records from the genesis owner.  `replay_agrees_iff` says when the second finds
the owner and the epoch that the first arrived at: exactly if what the merge
accepts is one line of transfers, each verified against the owner before it.
-/

namespace MetaMesh

open Fallible

/-- A snapshot that holds nothing but transfers. -/
def replaySnapshot (genesis : WorkspaceAuthority) (genesisEpoch : Nat) (workspaceId : String)
    (transfers : List WorkspaceOwnershipTransfer) : WorkspaceWriteAuthorizationSnapshot where
  workspaceId := workspaceId
  genesisOwner := genesis
  genesisEpoch := genesisEpoch
  expectedCurrentOwner := genesis
  document := []
  ownershipTransfers := transfers
  successionClaims := []
  revocations := []
  deviceRevocations := []
  departures := []

/-- Replay transfers from a genesis owner, at the time of a merge. -/
def replay {E : Type} (P : Primitives) (A : Automerge E) (genesis : WorkspaceAuthority)
    (genesisEpoch : Nat) (input : OwnershipMergeInput)
    (transfers : List WorkspaceOwnershipTransfer) : Except String ChainState :=
  verifiedOwnershipChain P A (replaySnapshot genesis genesisEpoch input.workspaceId transfers)
    input.nowMs input.revokedPeople false

/-- The owner a plan ends with. -/
def OwnershipMergePlan.finalOwner (plan : OwnershipMergePlan) (input : OwnershipMergeInput) :
    WorkspaceAuthority :=
  (plan.steps.getLast?.map fun step => step.record.payload.nextAuthority).getD input.currentOwner

def OwnershipMergePlan.finalEpoch (plan : OwnershipMergePlan) (input : OwnershipMergeInput) : Nat :=
  (plan.steps.getLast?.map fun step => step.record.payload.epoch).getD input.ownerEpoch

variable (input : OwnershipMergeInput)

/-! ## What a merge accepts -/

/-- The late records that a merge takes in. -/
def lateTransfers : List WorkspaceOwnershipTransfer :=
  ((knownValues input).filter (isLate input (catalogTable input.current))).filterMap fromValue

/-- A known transfer of an owner for the next epoch that the owner has signed for. -/
def NextTransfer (place : String × Nat) (r : WorkspaceOwnershipTransfer) : Prop :=
  ∃ n, nextTransferEpoch (knownValues input) place.1 place.2 = some n ∧
    ∃ raw ∈ transfersAt (knownValues input) place.1 n, parseTransfer raw = .ok r

/-- A known transfer hands the office from one owner and epoch to the next. -/
def HandsOver (before after : String × Nat) : Prop :=
  ∃ r, NextTransfer input before r ∧ after = (r.payload.toOwnerPersonId, r.payload.epoch)

/-- The owners and epochs that known transfers lead to. -/
abbrev LeadsTo : String × Nat → String × Nat → Prop :=
  Relation.ReflTransGen (HandsOver input)

/-- A transfer of an owner that the known transfers lead to from the current one. -/
def OnTheWay (r : WorkspaceOwnershipTransfer) : Prop :=
  ∃ place, LeadsTo input (input.currentOwner.personId, input.ownerEpoch) place ∧
    NextTransfer input place r

/-- The catalog, of which the last record under a signature counts, and the late records. -/
def Catalogued (r : WorkspaceOwnershipTransfer) : Prop :=
  r ∈ (catalogTable input.current).values ∨ r ∈ lateTransfers input

/-- The transfers on the way, in all their copies, and what was filed under other
signatures. -/
def Accepts (r : WorkspaceOwnershipTransfer) : Prop :=
  OnTheWay input r ∨ Catalogued input r ∧ ∀ s, OnTheWay input s → s.signature ≠ r.signature

/-- Transfers that hand a workspace on from one owner and epoch to another, each verified
against the owner and the epoch before it. -/
def HandsDown (P : Primitives) (owner : WorkspaceAuthority) (epoch : Nat) :
    List WorkspaceOwnershipTransfer → WorkspaceAuthority → Nat → Prop
  | [], last, since => last = owner ∧ since = epoch
  | r :: line, last, since =>
    verifyWorkspaceOwnershipTransfer P r input.workspaceId owner epoch input.nowMs = .ok () ∧
      HandsDown P r.payload.nextAuthority r.payload.epoch line last since

section Replaying

variable {E : Type} {P : Primitives} {A : Automerge E} {genesis : WorkspaceAuthority}
  {genesisEpoch : Nat} {input : OwnershipMergeInput}

variable (input) in
/-- The rules of a replay. -/
def replayRules : ChainRules :=
  ⟨input.workspaceId, input.nowMs, input.revokedPeople, false, ∅⟩

theorem replay_ok {transfers : List WorkspaceOwnershipTransfer} {final : ChainState} :
    replay P A genesis genesisEpoch input transfers = .ok final ↔
      ∃ line : List WorkspaceOwnershipTransfer, line.Perm transfers ∧
        Installs P (replayRules input) ⟨genesis, genesisEpoch, [], ∅⟩ (line.map .transfer)
          final := by
  have walk : replay P A genesis genesisEpoch input transfers =
      walkChain P (replayRules input) (transfers.map .transfer ++ [])
        ⟨genesis, genesisEpoch, [], ∅⟩ := rfl
  rw [walk, List.append_nil, walkChain_ok]
  constructor
  · rintro ⟨ts, same, chain⟩
    rw [← congrFun₂ (List.eq_map_comp_perm OwnershipTransition.transfer)] at same
    obtain ⟨line, rfl, perm⟩ := same
    exact ⟨line, perm, chain⟩
  · rintro ⟨line, perm, chain⟩
    exact ⟨_, perm.map _, chain⟩

section Line

variable {line : List WorkspaceOwnershipTransfer} {owner last : WorkspaceAuthority}
  {epoch since : Nat}

/-- The walk of a replay installs a line. -/
theorem handsDown_iff (state : ChainState) :
    HandsDown input P state.current state.epoch line last since ↔
      ∃ final, Installs P (replayRules input) state (line.map .transfer) final ∧
        final.current = last ∧ final.epoch = since := by
  induction line generalizing state with
  | nil =>
    constructor
    · rintro ⟨rfl, rfl⟩
      exact ⟨state, .nil state, rfl, rfl⟩
    · rintro ⟨_, chain, rfl, rfl⟩
      cases chain
      exact ⟨rfl, rfl⟩
  | cons r line ih =>
    constructor
    · rintro ⟨verified, rest⟩
      obtain ⟨signer, _, _, above⟩ := verifyWorkspaceOwnershipTransfer_fields verified
      have installs : ∃ next, installTransition P (replayRules input) state (.transfer r) =
          .ok next := ⟨_, bind_ok.mpr ⟨(), verified, rfl⟩⟩
      obtain ⟨next, installed⟩ := installs
      obtain ⟨current, reached, _⟩ := installTransition_current installed
      obtain ⟨final, chain, ends⟩ := (ih next).mp (by rwa [current, reached])
      exact ⟨final, .cons signer above installed chain, ends⟩
    · rintro ⟨final, chain, ends⟩
      cases chain with
      | cons _ _ installed rest =>
        obtain ⟨current, reached, _⟩ := installTransition_current installed
        obtain ⟨_, verified, _⟩ := bind_ok.mp installed
        refine ⟨verified, ?_⟩
        have onward := (ih _).mpr ⟨final, rest, ends⟩
        rwa [current, reached] at onward

/-- Epochs rise along a line, so it holds nothing twice. -/
theorem HandsDown.nodup (handed : HandsDown input P owner epoch line last since) :
    line.Nodup ∧ ∀ r ∈ line, epoch < r.payload.epoch := by
  induction line generalizing owner epoch with
  | nil => simp
  | cons r line ih =>
    obtain ⟨distinct, later⟩ := ih handed.2
    obtain ⟨_, _, _, above⟩ := verifyWorkspaceOwnershipTransfer_fields handed.1
    refine ⟨List.nodup_cons.mpr ⟨fun again => lt_irrefl _ (later r again), distinct⟩, ?_⟩
    intro s held
    rcases List.mem_cons.mp held with rfl | after
    · exact above
    · exact above.trans (later s after)

end Line

/-! ## One round of the merge -/

/-- Who owns the workspace, and since when. -/
def MergeState.place (state : MergeState) : String × Nat :=
  (state.owner.personId, state.ownerEpoch)

/-- A round that goes on follows the transfers at the next epoch, which agree. -/
theorem mergeRound_continues {state next : MergeState}
    (round : mergeRound P input state = .ok (.inl next)) :
    ∃ n parsed selected, nextTransferEpoch (knownValues input) state.place.1
        state.place.2 = some n ∧
      Parses (transfersAt (knownValues input) state.place.1 n) parsed ∧
      selected ∈ parsed ∧
      (∀ r ∈ parsed, r.payload.toOwnerPersonId = selected.payload.toOwnerPersonId) ∧
      next.accepted = state.accepted.insertAll (fun r => r.signature)
        (sortBy (fun r => strKey r.signature) parsed) ∧
      next.owner = selected.payload.nextAuthority ∧ next.ownerEpoch = selected.payload.epoch := by
  obtain ⟨transition, decided, round⟩ := bind_ok.mp round
  obtain ⟨_, _, decided⟩ := nextVerifiedOwnershipTransition_ok.mp decided
  cases due : nextTransferEpoch (knownValues input) state.owner.personId state.ownerEpoch with
  | none =>
    rw [due] at decided
    subst decided
    simp at round
  | some n =>
    rw [due] at decided
    obtain ⟨parsed, parses, _, rfl⟩ := decided
    simp only [decidedBy, decide_eq_true_eq] at round
    split at round
    · simp at round
    · next agree =>
      cases first : (sortBy (fun r => strKey r.signature) parsed).head? with
      | none => simp [first] at round
      | some selected =>
        simp only [first, Except.ok.injEq, Sum.inl.injEq] at round
        have chosen : selected ∈ parsed := (mem_sortBy _).mp (List.mem_of_head? first)
        refine ⟨n, parsed, selected, due, parses, chosen, fun r held => ?_, ?_⟩
        · rw [not_lt, Finset.card_le_one] at agree
          exact agree _ (by simpa using ⟨r, held, rfl⟩) _ (by simpa using ⟨selected, chosen, rfl⟩)
        · subst round
          simp

/-- A round that leaves without a conflict found no further transfer. -/
theorem mergeRound_leaves {state final : MergeState}
    (round : mergeRound P input state = .ok (.inr (final, false))) :
    nextTransferEpoch (knownValues input) state.place.1 state.place.2 = none ∧ final = state := by
  obtain ⟨transition, decided, round⟩ := bind_ok.mp round
  obtain ⟨_, _, decided⟩ := nextVerifiedOwnershipTransition_ok.mp decided
  cases due : nextTransferEpoch (knownValues input) state.owner.personId state.ownerEpoch with
  | none =>
    rw [due] at decided
    subst decided
    simp only [Bool.false_eq_true, if_false, Except.ok.injEq, Sum.inr.injEq, Prod.mk.injEq,
      and_true] at round
    exact ⟨due, round.symm⟩
  | some n =>
    rw [due] at decided
    obtain ⟨parsed, parses, _, rfl⟩ := decided
    -- there is a transfer at the next epoch, so one is selected or they conflict
    obtain ⟨⟨_, raw, held, signer, epoch⟩, _⟩ := nextTransferEpoch_eq_some.mp due
    have present : raw ∈ transfersAt (knownValues input) state.owner.personId n :=
      List.mem_filter.mpr ⟨held, by simp [signer, epoch]⟩
    have some : parsed ≠ [] := by
      rintro rfl
      rw [Parses, List.forall₂_nil_right_iff] at parses
      simp [parses] at present
    have first : (sortBy (fun r => strKey r.signature) parsed).head? ≠ none := by
      rw [Ne, List.head?_eq_none_iff, ← List.length_eq_zero_iff, (sortBy_perm _ _).length_eq]
      simpa using some
    simp only [decidedBy, decide_eq_true_eq] at round
    split at round
    · simp at round
    · next agree =>
      obtain ⟨selected, chosen⟩ := Option.ne_none_iff_exists'.mp first
      simp [chosen] at round

/-! ## The walk of the merge -/

variable (input)

/-- The loop on its way, with the places it has left behind.  It has accepted the
transfers of these places, and is on the only way onward. -/
structure Walked (base : List WorkspaceOwnershipTransfer) (path : List (String × Nat))
    (state : MergeState) : Prop where
  keyed : Table.KeyedBy (fun r => r.signature) state.accepted
  reached : ∀ place, LeadsTo input (input.currentOwner.personId, input.ownerEpoch) place ↔
    place ∈ path ∨ LeadsTo input state.place place
  early : ∀ place ∈ path, ∀ r, NextTransfer input place r → r.payload.epoch ≤ state.ownerEpoch
  accepted : ∀ r, r ∈ state.accepted.values ↔ (∃ place ∈ path, NextTransfer input place r) ∨
    r ∈ base ∧ ∀ place ∈ path, ∀ s, NextTransfer input place s → s.signature ≠ r.signature

variable {input}

variable {parsed : List WorkspaceOwnershipTransfer}

/-- The records that known values parse to stand under the keys of the values. -/
theorem signatures_of_parses {raws : List Value} (parses : Parses raws parsed)
    (known : ∀ raw ∈ raws, raw ∈ knownValues input) :
    parsed.map (fun r => r.signature) = raws.map signatureKey := by
  induction parses with
  | nil => rfl
  | @cons raw record raws parsed parse _ ih =>
    rw [List.forall_mem_cons] at known
    rw [List.map_cons, List.map_cons, ih known.2,
      signature_of_parse parse (recordSignature?_of_known known.1)]

theorem parsed_signatures_nodup {select : Value → Bool}
    (parses : Parses ((knownValues input).filter select) parsed) :
    (parsed.map fun r => r.signature).Nodup := by
  rw [signatures_of_parses parses fun raw there => (List.mem_filter.mp there).1]
  exact (knownValues_nodup input).sublist (List.filter_sublist.map _)

/-- The signature tells the known transfers apart. -/
theorem NextTransfer.unique {place place' : String × Nat} {r s : WorkspaceOwnershipTransfer}
    (left : NextTransfer input place r) (right : NextTransfer input place' s)
    (same : r.signature = s.signature) : r = s := by
  obtain ⟨_, _, raw, there, parse⟩ := left
  obtain ⟨_, _, other, there', parse'⟩ := right
  have known := (List.mem_filter.mp there).1
  have known' := (List.mem_filter.mp there').1
  have keys : signatureKey raw = signatureKey other := by
    rw [← signature_of_parse parse (recordSignature?_of_known known),
      ← signature_of_parse parse' (recordSignature?_of_known known'), same]
  rw [List.inj_on_of_nodup_map (knownValues_nodup input) known known' keys] at parse
  exact ok_unique parse parse'

section Step

variable {base : List WorkspaceOwnershipTransfer} {path : List (String × Nat)}
  {state next : MergeState} {n : Nat} {parsed : List WorkspaceOwnershipTransfer}
  {r : WorkspaceOwnershipTransfer}

/-- What a round parses is what comes next, at the epoch it found. -/
theorem nextTransfer_iff_parsed
    (due : nextTransferEpoch (knownValues input) state.place.1 state.place.2 = some n)
    (parses : Parses (transfersAt (knownValues input) state.place.1 n) parsed) :
    (NextTransfer input state.place r ↔ r ∈ parsed) ∧ (r ∈ parsed → r.payload.epoch = n) := by
  refine ⟨⟨?_, fun held => ?_⟩, fun held => ?_⟩
  · rintro ⟨m, due', raw, there, parse⟩
    obtain rfl : n = m := Option.mem_unique due due'
    obtain ⟨s, inParsed, parse'⟩ := exists_right_of_forall₂ parses there
    exact ok_unique parse' parse ▸ inParsed
  · obtain ⟨raw, there, parse⟩ := exists_left_of_forall₂ parses held
    exact ⟨n, due, raw, there, parse⟩
  · obtain ⟨raw, there, parse⟩ := exists_left_of_forall₂ parses held
    have fields := (List.mem_filter.mp there).2
    rw [decide_eq_true_eq] at fields
    exact epoch_of_parse parse fields.2

/-- A round leaves one more place behind. -/
theorem Walked.step (walked : Walked input base path state)
    (round : mergeRound P input state = .ok (.inl next)) :
    Walked input base (state.place :: path) next := by
  obtain ⟨n, parsed, selected, due, parses, chosen, agree, accepted, owner, epoch⟩ :=
    mergeRound_continues round
  have later : state.ownerEpoch < n := (nextTransferEpoch_eq_some.mp due).1.1
  have comes := fun r => @nextTransfer_iff_parsed input state n parsed r due parses
  have moved : next.place = (selected.payload.toOwnerPersonId, selected.payload.epoch) := by
    unfold MergeState.place
    rw [owner, epoch]
    rfl
  have movedEpoch : next.ownerEpoch = n := epoch.trans ((comes selected).2 chosen)
  have leads : HandsOver input state.place next.place :=
    ⟨selected, (comes selected).1.mpr chosen, moved⟩
  -- the transfers at this epoch agree, so that nothing else comes next
  have onward : ∀ place, HandsOver input state.place place → place = next.place := by
    rintro place ⟨r, follows, rfl⟩
    have held := (comes r).1.mp follows
    rw [moved, agree r held, (comes r).2 held, (comes selected).2 chosen]
  have distinct : ((sortBy (fun r : WorkspaceOwnershipTransfer => strKey r.signature) parsed).map
      fun r => r.signature).Nodup :=
    ((sortBy_perm _ parsed).map _).nodup_iff.mpr (parsed_signatures_nodup parses)
  refine ⟨?_, fun place => ?_, ?_, fun r => ?_⟩
  · rw [accepted]
    exact walked.keyed.insertAll _
  · rw [walked.reached, List.mem_cons,
      show LeadsTo input state.place place ↔ _ from Relation.ReflTransGen.cases_head_iff]
    constructor
    · rintro (behind | rfl | ⟨step, first, rest⟩)
      · exact .inl (.inr behind)
      · exact .inl (.inl rfl)
      · exact .inr (onward step first ▸ rest)
    · rintro ((rfl | behind) | ahead)
      · exact .inr (.inl rfl)
      · exact .inl behind
      · exact .inr (.inr ⟨next.place, leads, ahead⟩)
  · rw [movedEpoch, List.forall_mem_cons]
    refine ⟨fun r follows => ((comes r).2 ((comes r).1.mp follows)).le, ?_⟩
    exact fun place behind r follows => (walked.early place behind r follows).trans later.le
  · -- a record of an earlier place is not filed again under its signature
    have apart : (∃ place ∈ path, NextTransfer input place r) →
        r.signature ∉ parsed.map fun r => r.signature := by
      rintro ⟨place, behind, follows⟩ again
      obtain ⟨s, held, same⟩ := List.mem_map.mp again
      obtain rfl := ((comes s).1.mpr held).unique follows same
      have above := (comes s).2 held
      have below := walked.early place behind s follows
      omega
    rw [accepted, walked.keyed.mem_values_insertAll_iff distinct,
      ((sortBy_perm _ parsed).map _).mem_iff, (sortBy_perm _ parsed).mem_iff, walked.accepted,
      ← (comes r).1]
    simp only [List.exists_mem_cons_iff, List.forall_mem_cons]
    have clash : r.signature ∉ parsed.map (fun r => r.signature) ↔
        ∀ s, NextTransfer input state.place s → s.signature ≠ r.signature := by
      simp only [(comes _).1, List.mem_map, not_exists, not_and, ne_eq]
    rw [← clash]
    constructor
    · rintro (here | ⟨behind | ⟨held, others⟩, fresh⟩)
      · exact .inl (.inl here)
      · exact .inl (.inr behind)
      · exact .inr ⟨held, fresh, others⟩
    · rintro ((here | behind) | ⟨held, fresh, others⟩)
      · exact .inl here
      · exact .inr ⟨.inl behind, apart behind⟩
      · exact .inr ⟨.inr ⟨held, others⟩, fresh⟩

end Step

/-! ## The start of the walk -/

theorem filterMap_of_parses {raws : List Value} (parses : Parses raws parsed) :
    raws.filterMap fromValue = parsed := by
  induction parses with
  | nil => rfl
  | cons parse _ ih => rw [List.filterMap_cons_some (okOr_ok.mp parse), ih]

variable {accepted : TransferTable}

/-- The catalog after the late history: what was there, and the late records. -/
theorem filed_ok (filed : (knownValues input).foldlM (fileLateTransfer P input)
      (catalogTable input.current) = .ok accepted) :
    Table.KeyedBy (fun r => r.signature) accepted ∧
      ∀ r, r ∈ accepted.values ↔ Catalogued input r := by
  rw [fileLateTransfers_ok (knownValues_nodup input)
    (fun raw known => recordSignature?_of_known known)] at filed
  obtain ⟨late, verified, rfl⟩ := filed
  have parses : Parses
      ((knownValues input).filter (isLate input (catalogTable input.current))) late :=
    verified.imp fun raw record filed => filed.parsed
  have keyed : Table.KeyedBy (fun r => r.signature) (catalogTable input.current) :=
    (Table.KeyedBy.empty _).insertAll _
  refine ⟨keyed.insertAll _, fun r => ?_⟩
  rw [keyed.mem_values_insertAll_iff (parsed_signatures_nodup parses), Catalogued, lateTransfers,
    filterMap_of_parses parses, or_comm]
  refine or_congr_left (and_iff_left_of_imp fun held again => ?_)
  -- a late record stands under a signature that the catalog does not have
  obtain ⟨s, inLate, same⟩ := List.mem_map.mp again
  obtain ⟨raw, there, parse⟩ := exists_left_of_forall₂ parses inLate
  obtain ⟨known, late⟩ := List.mem_filter.mp there
  simp only [isLate, decide_eq_true_eq, Option.isNone_iff_eq_none] at late
  rw [← signature_of_parse parse (recordSignature?_of_known known), same,
    keyed.mem_values.mp held] at late
  exact Option.some_ne_none _ late.1

section Run

variable {accepted : TransferTable} {final : MergeState}

variable (input accepted) in
/-- The state before the loop. -/
def mergeStart : MergeState :=
  ⟨accepted, [], input.currentOwner, input.ownerEpoch⟩

/-- The loop ends with no transfer left to take. -/
theorem mergeLoop_ends (keyed : Table.KeyedBy (fun r => r.signature) accepted)
    (looped : mergeLoop P input (mergeStart input accepted) = .ok (final, false)) :
    (∃ path, Walked input accepted.values path final) ∧
      nextTransferEpoch (knownValues input) final.place.1 final.place.2 = none := by
  refine run_invariant looped (fun state => ∃ path, Walked input accepted.values path state)
    (fun result => result.2 = false → (∃ path, Walked input accepted.values path result.1) ∧
      nextTransferEpoch (knownValues input) result.1.place.1 result.1.place.2 = none)
    ⟨[], keyed, by simp [mergeStart, MergeState.place], by simp, by simp [mergeStart]⟩
    ?_ ?_ rfl
  · intro state next ⟨path, walked⟩ round
    exact ⟨_, walked.step round⟩
  · rintro state ⟨final, conflicted⟩ walked round rfl
    obtain ⟨done, rfl⟩ := mergeRound_leaves round
    exact ⟨walked, done⟩

/-- The loop leaves behind the transfers on the way. -/
theorem Walked.onTheWay_iff {base : List WorkspaceOwnershipTransfer} {path : List (String × Nat)}
    (walked : Walked input base path final)
    (done : nextTransferEpoch (knownValues input) final.place.1 final.place.2 = none)
    (r : WorkspaceOwnershipTransfer) :
    OnTheWay input r ↔ ∃ place ∈ path, NextTransfer input place r := by
  have ends : ∀ s, ¬ NextTransfer input final.place s := by
    rintro s ⟨n, due, _⟩
    rw [done] at due
    cases due
  constructor
  · rintro ⟨place, leads, follows⟩
    rcases (walked.reached place).mp leads with behind | ahead
    · exact ⟨place, behind, follows⟩
    · rcases Relation.ReflTransGen.cases_head ahead with rfl | ⟨_, ⟨s, first, _⟩, _⟩
      · exact absurd follows (ends r)
      · exact absurd first (ends s)
  · rintro ⟨place, behind, follows⟩
    exact ⟨place, (walked.reached place).mpr (.inl behind), follows⟩

/-- A plan without a conflict accepts the filed records and those on the way. -/
theorem mem_accepted_iff {plan : OwnershipMergePlan}
    (planned : planOwnershipMerge P input = .ok plan)
    (clear : plan.conflicted = false) :
    plan.accepted.Nodup ∧ ∀ r, r ∈ plan.accepted ↔ Accepts input r := by
  obtain ⟨accepted, final, conflicted, filed, outcome, rfl⟩ := planOwnershipMerge_ok.mp planned
  obtain rfl : conflicted = false := clear
  have looped : mergeLoop P input (mergeStart input accepted) = .ok (final, false) := by
    unfold mergeOutcome at outcome
    split at outcome
    · cases outcome
    · exact outcome
  obtain ⟨keyed, inCatalog⟩ := filed_ok filed
  obtain ⟨⟨path, walked⟩, done⟩ := mergeLoop_ends keyed looped
  refine ⟨(orderedCatalog_nodup walked.keyed).of_map, fun r => ?_⟩
  have left := walked.onTheWay_iff done
  refine mem_orderedCatalog.trans ((walked.accepted r).trans ?_)
  unfold Accepts
  rw [left, inCatalog]
  refine or_congr_right (and_congr_right fun _ => ?_)
  constructor
  · intro apart s onWay
    obtain ⟨place, behind, follows⟩ := (left s).mp onWay
    exact apart place behind s follows
  · intro apart place behind s follows
    exact apart s ((left s).mpr ⟨place, behind, follows⟩)

end Run

end Replaying

namespace Sample

/-- A replica that followed one transfer and hears of the next. -/
def followUp : OwnershipMergeInput where
  workspaceId := "workspace"
  currentOwner := authority 1
  ownerHistory := [authority 0]
  ownerEpoch := 2
  current := [transfer 0 1 2 1 ["head"]]
  incoming := [toValue (transfer 1 2 3 2 ["head"])]
  revokedPeople := ∅
  nowMs := 0

/-- One owner signs the same change of owner twice, at two frontiers. -/
def signedTwice : OwnershipMergeInput where
  workspaceId := "workspace"
  currentOwner := authority 0
  ownerHistory := []
  ownerEpoch := 1
  current := []
  incoming := [toValue (transfer 0 1 2 1 ["head"]), toValue (transfer 0 1 2 2 ["next"])]
  revokedPeople := ∅
  nowMs := 0

/-- Owner and epoch of a replay. -/
def replayed (transfers : List WorkspaceOwnershipTransfer) :
    Except String (WorkspaceAuthority × Nat) := do
  let state ← replay primitives automerge (authority 0) 1 input transfers
  .ok (state.current, state.epoch)

theorem replay_of_replayed {input : OwnershipMergeInput}
    {transfers : List WorkspaceOwnershipTransfer} {owner : WorkspaceAuthority} {epoch : Nat}
    (ran : replayed input transfers = .ok (owner, epoch)) :
    ∃ state, replay primitives automerge (authority 0) 1 input transfers = .ok state ∧
      state.current = owner ∧ state.epoch = epoch := by
  obtain ⟨state, walked, same⟩ := bind_ok.mp ran
  obtain ⟨rfl, rfl⟩ := Prod.mk.inj (Except.ok.inj same)
  exact ⟨state, walked, rfl, rfl⟩

set_option maxRecDepth 100000

end Sample

open Sample

set_option maxRecDepth 100000

end MetaMesh
