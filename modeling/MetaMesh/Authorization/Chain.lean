import MetaMesh.Authority
import MetaMesh.Automerge
import MetaMesh.Lib.Collect

/-!
# The verified ownership chain

The part of `authorization.rs` that reads a workspace's owner from the signed
transfers and succession claims of a snapshot.  `verifiedOwnershipChain` starts
at the genesis owner and takes, round by round, the owner's transition with the
least epoch above the last one; it is an error when there is none or more than
one, and every transition of the snapshot has to be used.

`walkChain_ok` says what that amounts to: the transitions can be
put in an order in which each is signed by the owner before it and epochs rise.
-/

namespace MetaMesh

open Fallible

/-! ## Snapshots -/

/-- A removal of a device, with the authority that signed it. -/
structure WorkspaceDeviceRevocationEvidence where
  record : WorkspaceDeviceRevocation
  signer : WorkspaceAuthority
deriving DecidableEq, Repr

/-- A departure, with the authority that signed it. -/
structure WorkspaceDepartureEvidence where
  record : WorkspaceDeparture
  authority : WorkspaceAuthority
deriving DecidableEq, Repr

/-- Raw authority evidence for a document. -/
structure WorkspaceWriteAuthorizationSnapshot where
  workspaceId : String
  genesisOwner : WorkspaceAuthority
  genesisEpoch : Nat
  expectedCurrentOwner : WorkspaceAuthority
  document : List UInt8
  ownershipTransfers : List WorkspaceOwnershipTransfer
  successionClaims : List WorkspaceSuccessionClaim
  revocations : List WorkspaceRevocation
  deviceRevocations : List WorkspaceDeviceRevocationEvidence
  departures : List WorkspaceDepartureEvidence
deriving DecidableEq, Repr

/-! ## Documents -/

/-- The dependencies of each change of a document. -/
abbrev DocumentGraph := Table String (List String)

def documentHashes {E : Type} (A : Automerge E) (documentBytes : List UInt8) :
    Except String DocumentGraph := do
  let document ← okOr (A.load documentBytes) "Invalid workspace authority document"
  .ok ((A.changes document).foldl (fun graph change => graph.insert change.hash change.deps) ∅)

/-- The changes up to `heads`. -/
def ancestry (heads : List String) (byHash : DocumentGraph) : Except String (Finset String) :=
  Collect.collect "Workspace ownership boundary is missing from the document" byHash heads

section Documents

variable {E : Type} {A : Automerge E} {documentBytes : List UInt8} {byHash : DocumentGraph}

/-- The graph of a document: one entry for each of its changes. -/
theorem documentHashes_ok (lawful : A.Lawful)
    (loaded : documentHashes A documentBytes = .ok byHash) :
    ∃ document, A.load documentBytes = some document ∧ ∀ hash deps, byHash.lookup hash = some deps ↔
        ∃ change ∈ A.changes document, change.hash = hash ∧ change.deps = deps := by
  obtain ⟨document, found, same⟩ := bind_ok.mp loaded
  refine ⟨document, okOr_ok.mp found, fun hash deps => ?_⟩
  rw [← Except.ok.inj same, Table.lookup_foldl_insert (lawful.distinct document)]
  simp

/-- The ancestry of heads that are in the document is in the document. -/
theorem ancestry_of_present (lawful : A.Lawful)
    (loaded : documentHashes A documentBytes = .ok byHash) {heads : List String}
    (present : ∀ head ∈ heads, (byHash.lookup head).isSome) :
    ∃ hashes, ancestry heads byHash = .ok hashes := by
  obtain ⟨document, _, entries⟩ := documentHashes_ok lawful loaded
  cases walked : ancestry heads byHash with
  | ok hashes => exact ⟨hashes, rfl⟩
  | error e =>
    have failed := @Collect.collect_spec _ _ _
      "Workspace ownership boundary is missing from the document" byHash heads
    rw [show Collect.collect _ byHash heads = _ from walked] at failed
    obtain ⟨hash, reached, absent⟩ := failed
    have found : (byHash.lookup hash).isSome := reached.induct present fun a b _ edge => by
      obtain ⟨deps, entry, held⟩ := edge
      obtain ⟨change, inDocument, _, rfl⟩ := (entries a deps).mp entry
      obtain ⟨other, inDocument', rfl⟩ := lawful.closed document change inDocument b held
      exact Option.isSome_iff_exists.mpr ⟨other.deps,
        (entries other.hash other.deps).mpr ⟨other, inDocument', rfl, rfl⟩⟩
    simp [absent] at found

end Documents

/-! ## Transitions -/

/-- The two ways the owner changes. -/
inductive OwnershipTransition
  | transfer (record : WorkspaceOwnershipTransfer)
  | succession (record : WorkspaceSuccessionClaim)
deriving DecidableEq, Repr

namespace OwnershipTransition

def fromOwner : OwnershipTransition → String
  | transfer record => record.payload.fromOwnerPersonId
  | succession record => record.payload.fromOwnerPersonId

def epoch : OwnershipTransition → Nat
  | transfer record => record.payload.epoch
  | succession record => record.payload.epoch

def heads : OwnershipTransition → List String
  | transfer record => record.payload.workspaceHeads
  | succession record => record.payload.workspaceHeads

def nextAuthority : OwnershipTransition → WorkspaceAuthority
  | transfer record => record.payload.nextAuthority
  | succession record => record.payload.nextAuthority

end OwnershipTransition

/-- The owner, the epoch, the owners before, and the changes each of those may
have signed. -/
structure ChainState where
  current : WorkspaceAuthority
  epoch : Nat
  history : List WorkspaceAuthority
  historicalHashes : Table String (Finset String)

/-- What a walk of the chain depends on besides the transitions. -/
structure ChainRules where
  workspaceId : String
  nowMs : Int
  revokedPeople : Finset String
  requireDocumentHeads : Bool
  byHash : DocumentGraph

section Walk

variable (P : Primitives) (rules : ChainRules)

def verifyTransition (current : WorkspaceAuthority) (epoch : Nat) :
    OwnershipTransition → Except String Unit
  | .transfer record =>
    verifyWorkspaceOwnershipTransfer P record rules.workspaceId current epoch rules.nowMs
  | .succession record =>
    verifyWorkspaceSuccessionClaim P record rules.workspaceId current epoch
      rules.revokedPeople rules.nowMs

def allowedAncestry (transition : OwnershipTransition) : Except String (Finset String) :=
  if rules.requireDocumentHeads then ancestry transition.heads rules.byHash else .ok ∅

/-- The owner's transition is verified and followed. -/
def installTransition (state : ChainState) (transition : OwnershipTransition) :
    Except String ChainState := do
  verifyTransition P rules state.current state.epoch transition
  let allowed ← allowedAncestry rules transition
  let before := (state.historicalHashes.lookup state.current.personId).getD ∅
  .ok ⟨transition.nextAuthority, transition.epoch, state.history ++ [state.current],
    state.historicalHashes.insert state.current.personId (before ∪ allowed)⟩

/-- The least later epoch at which the owner hands over. -/
def nextTransitionEpoch (state : ChainState) (transitions : List OwnershipTransition) :
    Option Nat :=
  ((transitions.filter fun record =>
    record.fromOwner = state.current.personId ∧ state.epoch < record.epoch).map
      OwnershipTransition.epoch).min?

def isCandidate (state : ChainState) (nextEpoch : Nat) (record : OwnershipTransition) : Bool :=
  record.fromOwner = state.current.personId ∧ record.epoch = nextEpoch

/-- One round of the `while` loop. -/
def chainRound : List OwnershipTransition × ChainState →
    Except String ((List OwnershipTransition × ChainState) ⊕ ChainState)
  | ([], state) => .ok (.inr state)
  | (transitions, state) => do
      let nextEpoch ← okOr (nextTransitionEpoch state transitions)
        "Missing workspace ownership transition"
      let candidates := transitions.filter (isCandidate state nextEpoch)
      refuse (1 < candidates.length) "Conflicting workspace ownership transitions"
      let transition ← okOr candidates.head? "Missing workspace ownership transition"
      let next ← installTransition P rules state transition
      .ok (.inl (transitions.eraseP (isCandidate state nextEpoch), next))

/-- The loop of `verified_ownership_chain_with_graph`; every round uses up one
transition. -/
def walkChain (transitions : List OwnershipTransition) (state : ChainState) :
    Except String ChainState :=
  run "Missing workspace ownership transition" (chainRound P rules) (transitions.length + 1)
    (transitions, state)

end Walk

/-- The transitions of a snapshot. -/
def WorkspaceWriteAuthorizationSnapshot.transitions (raw : WorkspaceWriteAuthorizationSnapshot) :
    List OwnershipTransition :=
  raw.ownershipTransfers.map .transfer ++ raw.successionClaims.map .succession

/-- The chain before its first transition. -/
def WorkspaceWriteAuthorizationSnapshot.genesis (raw : WorkspaceWriteAuthorizationSnapshot) :
    ChainState :=
  ⟨raw.genesisOwner, raw.genesisEpoch, [], ∅⟩

def verifiedOwnershipChainWithGraph (P : Primitives) (raw : WorkspaceWriteAuthorizationSnapshot)
    (nowMs : Int) (revokedPeople : Finset String) (requireDocumentHeads : Bool)
    (byHash : DocumentGraph) : Except String ChainState :=
  walkChain P ⟨raw.workspaceId, nowMs, revokedPeople, requireDocumentHeads, byHash⟩
    raw.transitions raw.genesis

/-- The chain, with the heads looked up in the document if required. -/
def verifiedOwnershipChain {E : Type} (P : Primitives) (A : Automerge E)
    (raw : WorkspaceWriteAuthorizationSnapshot) (nowMs : Int) (revokedPeople : Finset String)
    (requireDocumentHeads : Bool) : Except String ChainState := do
  let byHash ← if requireDocumentHeads then documentHashes A raw.document else .ok ∅
  verifiedOwnershipChainWithGraph P raw nowMs revokedPeople requireDocumentHeads byHash

/-! ## What the walk accepts -/

/-- Transitions in an order in which each is the next of its owner. -/
inductive Installs (P : Primitives) (rules : ChainRules) :
    ChainState → List OwnershipTransition → ChainState → Prop
  | nil (state : ChainState) : Installs P rules state [] state
  | cons {state next final : ChainState} {t : OwnershipTransition} {ts : List OwnershipTransition}
      (signer : t.fromOwner = state.current.personId) (above : state.epoch < t.epoch)
      (installed : installTransition P rules state t = .ok next)
      (rest : Installs P rules next ts final) : Installs P rules state (t :: ts) final

section Spec

variable {P : Primitives} {rules : ChainRules} {state final : ChainState}
  {ts transitions : List OwnershipTransition}

variable {t : OwnershipTransition}

theorem installTransition_current {next : ChainState}
    (installed : installTransition P rules state t = .ok next) :
    next.current = t.nextAuthority ∧ next.epoch = t.epoch ∧
      next.history = state.history ++ [state.current] := by
  obtain ⟨_, _, installed⟩ := bind_ok.mp installed
  obtain ⟨_, _, same⟩ := bind_ok.mp installed
  rw [← Except.ok.inj same]
  exact ⟨rfl, rfl, rfl⟩

section

variable (chain : Installs P rules state ts final)
include chain

/-- Epochs rise along the order. -/
theorem Installs.epoch_lt : ∀ t ∈ ts, state.epoch < t.epoch := by
  induction chain with
  | nil => simp
  | @cons state next final t ts _ above installed _ ih =>
    intro s held
    rcases List.mem_cons.mp held with rfl | later
    · exact above
    · have := ih s later
      rw [(installTransition_current installed).2.1] at this
      omega

/-- The state at the end has the epoch of the last transition. -/
theorem Installs.epoch_le : state.epoch ≤ final.epoch ∧ ∀ t ∈ ts, t.epoch ≤ final.epoch := by
  induction chain with
  | nil => simp
  | @cons state next final t ts _ above installed _ ih =>
    rw [(installTransition_current installed).2.1] at ih
    refine ⟨above.le.trans ih.1, fun s held => ?_⟩
    rcases List.mem_cons.mp held with rfl | later
    · exact ih.1
    · exact ih.2 s later

/-- An order has no two transitions at one epoch. -/
theorem Installs.eq_of_epoch_eq {u : OwnershipTransition} (left : t ∈ ts) (right : u ∈ ts)
    (same : t.epoch = u.epoch) : t = u := by
  induction chain with
  | nil => cases left
  | cons _ _ installed rest ih =>
    have later := rest.epoch_lt
    rw [(installTransition_current installed).2.1] at later
    rcases List.mem_cons.mp left with rfl | inRest
    · rcases List.mem_cons.mp right with rfl | inRest'
      · rfl
      · exact absurd same (later _ inRest').ne
    · rcases List.mem_cons.mp right with rfl | inRest'
      · exact absurd same (later _ inRest).ne'
      · exact ih inRest inRest'

/-- Where an order ends: at its start, or at the next owner of one of its
transitions. -/
theorem Installs.ends :
    (ts = [] ∧ final = state) ∨
      ∃ t ∈ ts, final.current = t.nextAuthority ∧ final.epoch = t.epoch := by
  induction chain with
  | nil => exact .inl ⟨rfl, rfl⟩
  | @cons state next final t ts _ _ installed _ ih =>
    right
    rcases ih with ⟨_, rfl⟩ | ⟨u, held, owner, epoch⟩
    · obtain ⟨owner, epoch, _⟩ := installTransition_current installed
      exact ⟨t, by simp, owner, epoch⟩
    · exact ⟨u, List.mem_cons_of_mem t held, owner, epoch⟩

end

theorem Installs.append {us : List OwnershipTransition} {middle : ChainState}
    (front : Installs P rules state ts middle)
    (back : Installs P rules middle us final) : Installs P rules state (ts ++ us) final := by
  induction front with
  | nil => exact back
  | cons signer above installed _ ih => exact .cons signer above installed (ih back)

theorem nextTransitionEpoch_eq_some {n : Nat} :
    nextTransitionEpoch state transitions = some n ↔
      (∃ t ∈ transitions, t.fromOwner = state.current.personId ∧ state.epoch < t.epoch ∧
        t.epoch = n) ∧
      ∀ t ∈ transitions, t.fromOwner = state.current.personId → state.epoch < t.epoch →
        n ≤ t.epoch := by
  unfold nextTransitionEpoch
  rw [List.min?_eq_some_iff]
  simp only [List.mem_map, List.mem_filter, decide_eq_true_eq]
  constructor
  · rintro ⟨⟨t, ⟨held, signer, above⟩, same⟩, least⟩
    exact ⟨⟨t, held, signer, above, same⟩, fun s held' signer' above' =>
      least _ ⟨s, ⟨held', signer', above'⟩, rfl⟩⟩
  · rintro ⟨⟨t, held, signer, above, same⟩, least⟩
    refine ⟨⟨t, ⟨held, signer, above⟩, same⟩, ?_⟩
    rintro _ ⟨s, ⟨held', signer', above'⟩, rfl⟩
    exact least s held' signer' above'

/-- Taking out the first match leaves the others. -/
theorem perm_cons_eraseP {α : Type} {p : α → Bool} {items : List α} {a : α}
    (first : (items.filter p).head? = some a) : items.Perm (a :: items.eraseP p) := by
  have member : a ∈ items.filter p := List.mem_of_head? first
  obtain ⟨held, holds⟩ := List.mem_filter.mp member
  obtain ⟨b, before, after, none, found, split, erased⟩ := List.exists_of_eraseP held holds
  have same : b = a := by
    have skip : before.filter p = [] := List.filter_eq_nil_iff.mpr fun c inBefore => by
      simpa using none c inBefore
    rw [split, List.filter_append, skip, List.nil_append, List.filter_cons_of_pos found] at first
    exact Option.some.inj first
  rw [erased, ← same, split]
  exact List.perm_middle

/-- The first transition of an order is the one the loop takes. -/
theorem candidates_of_installs (chain : Installs P rules state (t :: ts) final)
    (same : transitions.Perm (t :: ts)) :
    nextTransitionEpoch state transitions = some t.epoch ∧
      transitions.filter (isCandidate state t.epoch) = [t] := by
  cases chain with
  | cons signer above installed rest =>
    have later : ∀ s ∈ ts, t.epoch < s.epoch := by
      have := rest.epoch_lt
      rwa [(installTransition_current installed).2.1] at this
    constructor
    · rw [nextTransitionEpoch_eq_some]
      refine ⟨⟨t, same.mem_iff.mpr (by simp), signer, above, rfl⟩, fun s held _ _ => ?_⟩
      rcases List.mem_cons.mp (same.mem_iff.mp held) with rfl | inRest
      · exact le_refl _
      · exact (later s inRest).le
    · apply List.perm_singleton.mp
      have none : ts.filter (isCandidate state t.epoch) = [] :=
        List.filter_eq_nil_iff.mpr fun s inRest => by
          simp [isCandidate, (later s inRest).ne']
      have matched : isCandidate state t.epoch t = true := by simp [isCandidate, signer]
      have filtered := same.filter (isCandidate state t.epoch)
      rwa [List.filter_cons_of_pos matched, none] at filtered

/-- A round with transitions left takes the one candidate. -/
theorem chainRound_ok {outcome : (List OwnershipTransition × ChainState) ⊕ ChainState}
    (left : transitions ≠ []) :
    chainRound P rules (transitions, state) = .ok outcome ↔ ∃ n t next,
      nextTransitionEpoch state transitions = some n ∧
        transitions.filter (isCandidate state n) = [t] ∧
        installTransition P rules state t = .ok next ∧
        outcome = .inl (transitions.eraseP (isCandidate state n), next) := by
  cases transitions with
  | nil => exact absurd rfl left
  | cons first others =>
    simp only [chainRound, bind_ok, okOr_ok]
    constructor
    · rintro ⟨n, least, ⟨⟩, passed, t, taken, next, installed, same⟩
      have single := not_lt.mp (refuse_ok.mp passed)
      refine ⟨n, t, next, least, ?_, installed, (Except.ok.inj same).symm⟩
      cases found : List.filter (isCandidate state n) (first :: others) with
      | nil => simp [found] at taken
      | cons u us =>
        simp only [found, List.head?_cons, Option.some.injEq, List.length_cons] at taken single
        have none : us = [] := List.length_eq_zero_iff.mp (by omega)
        rw [taken, none]
    · rintro ⟨n, t, next, least, single, installed, rfl⟩
      exact ⟨n, least, (), refuse_ok.mpr (by simp [single]), t, by simp [single], next,
        installed, rfl⟩

theorem walkChain_ok :
    walkChain P rules transitions state = .ok final ↔
      ∃ ts, ts.Perm transitions ∧ Installs P rules state ts final := by
  have loop : ∀ fuel transitions state, transitions.length < fuel →
      (run "Missing workspace ownership transition" (chainRound P rules) fuel
          (transitions, state) = .ok final ↔
        ∃ ts, ts.Perm transitions ∧ Installs P rules state ts final) := by
    intro fuel
    induction fuel with
    | zero => omega
    | succ fuel ih =>
      intro transitions state enough
      unfold run
      by_cases left : transitions = []
      · subst left
        simp only [chainRound, ok_bind, Except.ok.injEq, List.perm_nil, exists_eq_left]
        constructor
        · rintro rfl
          exact .nil state
        · rintro ⟨⟩
          rfl
      · rw [bind_ok]
        simp only [chainRound_ok left]
        constructor
        · rintro ⟨_, ⟨n, t, next, least, single, installed, rfl⟩, walked⟩
          have perm := perm_cons_eraseP (p := isCandidate state n) (a := t) (by rw [single]; rfl)
          have shorter := perm.length_eq
          rw [List.length_cons] at shorter
          obtain ⟨_, matched⟩ := List.mem_filter.mp
            (show t ∈ transitions.filter (isCandidate state n) by simp [single])
          simp only [isCandidate, decide_eq_true_eq] at matched
          obtain ⟨⟨u, _, _, above, rfl⟩, _⟩ := nextTransitionEpoch_eq_some.mp least
          obtain ⟨ts, same, chain⟩ := (ih _ next (by omega)).mp walked
          exact ⟨t :: ts, (same.cons t).trans perm.symm,
            .cons matched.1 (matched.2 ▸ above) installed chain⟩
        · rintro ⟨ts, same, chain⟩
          cases ts with
          | nil => exact absurd (List.nil_perm.mp same) left
          | cons t ts =>
            obtain ⟨least, single⟩ := candidates_of_installs chain same.symm
            have perm := perm_cons_eraseP (p := isCandidate state t.epoch) (a := t)
              (by rw [single]; rfl)
            have shorter := perm.length_eq
            rw [List.length_cons] at shorter
            cases chain with
            | cons signer above installed rest =>
              refine ⟨_, ⟨t.epoch, t, _, least, single, installed, rfl⟩, ?_⟩
              exact (ih _ _ (by omega)).mpr ⟨ts, (List.perm_cons t).mp (same.trans perm), rest⟩
  exact loop _ transitions state (Nat.lt_succ_self _)

/-! ### Walks under other revocations -/

/-- The rules with other people revoked. -/
def ChainRules.withRevoked (rules : ChainRules) (revoked : Finset String) : ChainRules :=
  { rules with revokedPeople := revoked }

/-- Who is revoked decides whether a transition is followed, not where it leads. -/
theorem installTransition_ok {next : ChainState} :
    installTransition P rules state t = .ok next ↔
      verifyTransition P rules state.current state.epoch t = .ok () ∧
        ∃ allowed, allowedAncestry rules t = .ok allowed ∧
          next = ⟨t.nextAuthority, t.epoch, state.history ++ [state.current],
            state.historicalHashes.insert state.current.personId
              ((state.historicalHashes.lookup state.current.personId).getD ∅ ∪ allowed)⟩ := by
  unfold installTransition
  simp only [bind_ok, Except.ok.injEq]
  constructor
  · rintro ⟨_, verified, allowed, reached, rfl⟩
    exact ⟨verified, allowed, reached, rfl⟩
  · rintro ⟨verified, allowed, reached, rfl⟩
    exact ⟨(), verified, allowed, reached, rfl⟩

/-- An order in which every claim also holds under other revocations. -/
theorem Installs.withRevoked {revoked : Finset String} (chain : Installs P rules state ts final)
    (holds : ∀ claim, .succession claim ∈ ts → ∀ authority epoch,
      verifyWorkspaceSuccessionClaim P claim rules.workspaceId authority epoch
        rules.revokedPeople rules.nowMs = .ok () →
      verifyWorkspaceSuccessionClaim P claim rules.workspaceId authority epoch revoked
        rules.nowMs = .ok ()) : Installs P (rules.withRevoked revoked) state ts final := by
  induction chain with
  | nil state => exact .nil state
  | @cons state next final t ts signer above installed _ ih =>
    have rest := ih fun claim later => holds claim (List.mem_cons_of_mem t later)
    refine .cons signer above ?_ rest
    rw [installTransition_ok] at installed ⊢
    refine ⟨?_, installed.2⟩
    cases t with
    | transfer record => exact installed.1
    | succession claim => exact holds claim (by simp) _ _ installed.1

/-- Every claim of an order was verified, against the owner before it. -/
theorem Installs.verified (chain : Installs P rules state ts final)
    {claim : WorkspaceSuccessionClaim} (held : .succession claim ∈ ts) :
    ∃ authority epoch, verifyWorkspaceSuccessionClaim P claim rules.workspaceId authority epoch
      rules.revokedPeople rules.nowMs = .ok () := by
  induction chain with
  | nil => cases held
  | @cons state next final t ts _ _ installed _ ih =>
    rcases List.mem_cons.mp held with rfl | later
    · exact ⟨_, _, (installTransition_ok.mp installed).1⟩
    · exact ih later

/-- Under whichever revocations transitions are walked, they lead to one state. -/
theorem Installs.unique {revoked : Finset String} {other : ChainState}
    (chain : Installs P rules state ts final)
    (chain' : Installs P (rules.withRevoked revoked) state us other) (same : ts.Perm us) :
    other = final := by
  induction chain generalizing us with
  | nil state =>
    rw [List.nil_perm.mp same] at chain'
    cases chain'
    rfl
  | @cons state next final t ts signer above installed rest ih =>
    cases us with
    | nil => exact absurd same.length_eq (by simp)
    | cons u us =>
      have first := candidates_of_installs (.cons signer above installed rest) (List.Perm.refl _)
      have first' := candidates_of_installs chain' same
      have epochs : t.epoch = u.epoch := Option.mem_unique first.1 first'.1
      have equal : t = u := by
        rw [epochs] at first
        exact List.singleton_injective (first.2.symm.trans first'.2)
      subst equal
      cases chain' with
      | @cons _ next' _ _ _ _ _ installed' rest' =>
        obtain ⟨_, allowed, reached, next_eq⟩ := installTransition_ok.mp installed
        obtain ⟨_, allowed', reached', next_eq'⟩ := installTransition_ok.mp installed'
        have equal : allowed = allowed' := ok_unique reached reached'
        have moved : next' = next := by rw [next_eq, next_eq', equal]
        subst moved
        exact ih rest' ((List.perm_cons t).mp same)

end Spec

end MetaMesh
