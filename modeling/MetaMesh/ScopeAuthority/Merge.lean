import MetaMesh.Lib.Union
import MetaMesh.ScopeAuthority.Validate

/-!
# Merging the ledgers of a scope

`merge_scope_authority_snapshots_at` of `scope_authority.rs` joins the records of two
valid ledgers and validates the result.  `scope_merge_accepted` says exactly when the
result is valid, once the control chain of one ledger extends that of the other.
`issuer_evidence_blocks_merge` has two pairs that cannot be merged though each ledger is
valid: evidence, which nobody signs, is written down in two ways, or one ledger has
revoked what the other delegated with.
-/

namespace MetaMesh

open Fallible Delegation Union

/-- `append_unique` on the revocations of two transfers by one claim. -/
def joinSuccession (existing transfer : ScopeSuccessionTransfer) : ScopeSuccessionTransfer :=
  { existing with revocations := appendUnique existing.revocations transfer.revocations }

theorem key_joinSuccession (existing transfer : ScopeSuccessionTransfer) :
    (joinSuccession existing transfer).key = existing.key := rfl

-- a transfer equal to one that is held has its key, so only the key decides
def mergeSuccessionTransfers (current incoming : List ScopeSuccessionTransfer) :
    List ScopeSuccessionTransfer :=
  absorbAll ScopeSuccessionTransfer.key joinSuccession current incoming

/-- The records of both ledgers. -/
def joinScopeRecords (current incoming : ScopeAuthoritySnapshot) : ScopeAuthoritySnapshot where
  genesis := current.genesis
  grants := appendUnique current.grants incoming.grants
  grantIssuers := appendUnique current.grantIssuers incoming.grantIssuers
  revocations := appendUnique current.revocations incoming.revocations
  controlTransfers := appendUnique current.controlTransfers incoming.controlTransfers
  successionTransfers :=
    mergeSuccessionTransfers current.successionTransfers incoming.successionTransfers

/-- The joined ledger, if both sides and it are valid. -/
def mergeScopeAuthoritySnapshotsAt (P : Primitives) (current : Option ScopeAuthoritySnapshot)
    (incoming : ScopeAuthoritySnapshot) (nowMs : Int) : Except String ScopeAuthoritySnapshot := do
  let _ ← validateScopeAuthorityAt P incoming nowMs
  match current with
  | none => .ok incoming
  | some current => do
      let _ ← validateScopeAuthorityAt P current nowMs
      refuse (current.genesis ≠ incoming.genesis) "Scope authority genesis cannot change"
      let merged := joinScopeRecords current incoming
      let _ ← validateScopeAuthorityAt P merged nowMs
      .ok merged

/-! ## Control -/

/-- Every control record of one ledger is in the other, claims up to the revocations that
come with them. -/
structure ControlExtends (short long : ScopeAuthoritySnapshot) : Prop where
  transfers : ∀ t ∈ short.controlTransfers, t ∈ long.controlTransfers
  claims : ∀ t ∈ short.successionTransfers, ∃ u ∈ long.successionTransfers, u.key = t.key

section Control

variable {P : Primitives} {scopeId : String} {nowMs : Int} {start final : ControlState}

theorem nodup_of_filter {α : Type} {f : α → Nat} {items : List α} {n : Nat}
    (here : ((items.filter fun a => f a = n).map f).Nodup)
    (others : ((items.filter fun a => f a ≠ n).map f).Nodup) : (items.map f).Nodup := by
  have parts := (List.filter_append_perm (fun a => decide (f a = n)) items).map f
  rw [← parts.nodup_iff, List.map_append, List.nodup_append]
  refine ⟨here, by simpa using others, ?_⟩
  intro i left j right same
  obtain ⟨a, inHere, rfl⟩ := List.mem_map.mp left
  obtain ⟨b, inOthers, rfl⟩ := List.mem_map.mp right
  have isN := of_decide_eq_true (List.mem_filter.mp inHere).2
  simpa [← same, isN] using (List.mem_filter.mp inOthers).2

/-- The control records of a chain leave from different epochs. -/
theorem ControlRun.distinct (walked : ControlRun P scopeId nowMs start final) :
    (start.transfers.map fun t => t.payload.fromControlEpoch).Nodup ∧
      (start.successions.map fun t => t.fromControlEpoch).Nodup := by
  induction walked with
  | done noTransfers noSuccessions => simp [noTransfers, noSuccessions]
  | @step state final controller _ passes _ ih =>
    have one : (state.dueTransfers.map fun t => t.payload.fromControlEpoch).Nodup ∧
        (state.dueSuccessions.map fun t => t.fromControlEpoch).Nodup := by
      cases passes with
      | transfer due none _ => simp [due, none]
      | succession none due _ => simp [due, none]
    exact ⟨nodup_of_filter one.1 ih.1, nodup_of_filter one.2 ih.2⟩

variable {genesis : ScopeGenesisPayload} {a b : ScopeAuthoritySnapshot}

theorem ControlRun.distinct_keys (walked : ControlRun P scopeId nowMs start final) :
    (start.successions.map ScopeSuccessionTransfer.key).Nodup := by
  refine List.Nodup.of_map Prod.fst ?_
  rw [List.map_map]
  exact walked.distinct.2

/-- The claims of the union, by the two ledgers' claims. -/
theorem mem_joined_revocations (distinct : (a.successionTransfers.map
      ScopeSuccessionTransfer.key).Nodup) {u : ScopeSuccessionTransfer}
    (held : u ∈ (joinScopeRecords a b).successionTransfers) (r : WorkspaceRevocation) :
    r ∈ u.revocations ↔ ∃ t, (t ∈ a.successionTransfers ∨ t ∈ b.successionTransfers) ∧
      t.key = u.key ∧ r ∈ t.revocations := by
  have keys := nodup_keys_absorbAll key_joinSuccession distinct b.successionTransfers
  have carries := @carries_absorbAll _ _ _ _ _ _ ScopeSuccessionTransfer.revocations
    key_joinSuccession a.successionTransfers b.successionTransfers (fun _ _ _ => mem_appendUnique)
    u.key r
  rw [@mem_parts_iff _ _ _ _ ScopeSuccessionTransfer.revocations _ keys _ held r, carries]
  simp only [Carries, or_and_right, exists_or]

theorem joins_start {short long : ScopeAuthoritySnapshot} {shortEnd longEnd : ControlState}
    (extended : ControlExtends short long)
    (shortRun : ControlRun P scopeId nowMs (controlStart genesis short) shortEnd)
    (longRun : ControlRun P scopeId nowMs (controlStart genesis long) longEnd)
    (pair : (a = short ∧ b = long) ∨ (a = long ∧ b = short)) :
    Joins (controlStart genesis short) (controlStart genesis long)
      (controlStart genesis (joinScopeRecords a b)) := by
  have longTransfers : long.controlTransfers.Nodup := longRun.distinct.1.of_map
  have either : ∀ {p : ScopeAuthoritySnapshot → Prop}, p a ∨ p b ↔ p long ∨ p short := by
    rcases pair with ⟨rfl, rfl⟩ | ⟨rfl, rfl⟩
    · exact or_comm
    · exact Iff.rfl
  have distinctA : a.controlTransfers.Nodup ∧
      (a.successionTransfers.map ScopeSuccessionTransfer.key).Nodup := by
    rcases pair with ⟨rfl, rfl⟩ | ⟨rfl, rfl⟩
    · exact ⟨shortRun.distinct.1.of_map, shortRun.distinct_keys⟩
    · exact ⟨longTransfers, longRun.distinct_keys⟩
  refine ⟨⟨rfl, rfl, rfl⟩, ?_, ?_, ?_, extended.transfers, extended.claims,
    .inr ⟨rfl, rfl, rfl⟩, fun e c found => found, ?_⟩
  · refine appendUnique_perm distinctA.1 longTransfers fun t => ?_
    rw [@either fun s => t ∈ s.controlTransfers]
    exact or_iff_left_of_imp (extended.transfers t)
  · refine (List.perm_ext_iff_of_nodup (nodup_keys_absorbAll key_joinSuccession distinctA.2 _)
      longRun.distinct_keys).mpr fun k => ?_
    refine (mem_keys_absorbAll key_joinSuccession).trans ?_
    rw [@either fun s => k ∈ s.successionTransfers.map ScopeSuccessionTransfer.key]
    refine or_iff_left_of_imp fun inShort => ?_
    obtain ⟨t, held, rfl⟩ := List.mem_map.mp inShort
    obtain ⟨u, inLong, key⟩ := extended.claims t held
    exact List.mem_map.mpr ⟨u, inLong, key⟩
  · intro u held r
    rw [mem_joined_revocations distinctA.2 held r]
    exact exists_congr fun t => and_congr_left fun _ => @either fun s => t ∈ s.successionTransfers
  · intro e c found
    simp only [controlStart, Table.lookup_insert_ite] at found ⊢
    split at found
    · omega
    · simp at found

end Control

/-! ## Evidence -/

section Evidence

variable {evidence : List ScopeGrantIssuerEvidence} {issuers : Table String ScopeAuthority}

/-- Evidence is read if it names a grant and no grant twice. -/
theorem takeIssuers_ok :
    evidence.foldlM takeIssuer ∅ = .ok issuers ↔
      (∀ e ∈ evidence, e.grantId ≠ "") ∧ (evidence.map fun e => e.grantId).Nodup ∧
        issuers = evidence.foldl (fun issuers e => issuers.insert e.grantId e.issuer) ∅ := by
  induction evidence using List.reverseRecOn generalizing issuers with
  | nil => simp [pure, Except.pure, @eq_comm _ issuers]
  | append_singleton evidence e ih =>
    have known : (evidence.map fun e => e.grantId).Nodup →
        (((evidence.foldl (fun issuers e => issuers.insert e.grantId e.issuer)
          (∅ : Table String ScopeAuthority)).lookup e.grantId).isSome = true ↔
          e.grantId ∈ evidence.map fun e => e.grantId) := by
      intro distinct
      rw [Option.isSome_iff_exists]
      simp [Table.lookup_foldl_insert distinct]
    rw [List.foldlM_append, bind_ok]
    simp only [ih, List.foldlM_cons, List.foldlM_nil, bind_pure, takeIssuer, refuse_bind_ok, not_or,
      List.map_append, List.foldl_append, List.nodup_append]
    constructor
    · rintro ⟨_, ⟨named, distinct, rfl⟩, ⟨nonempty, unknown⟩, took⟩
      rw [known distinct] at unknown
      refine ⟨?_, ⟨distinct, by simp, ?_⟩, (Except.ok.inj took).symm⟩
      · simpa [or_imp, forall_and] using ⟨named, nonempty⟩
      · rintro _ inside _ last rfl
        rw [List.mem_singleton.mp last] at inside
        exact unknown inside
    · rintro ⟨named, ⟨distinct, _, apart⟩, rfl⟩
      refine ⟨_, ⟨fun f held => named f (List.mem_append_left _ held), distinct, rfl⟩,
        ⟨named e (by simp), ?_⟩, rfl⟩
      rw [known distinct]
      exact fun again => apart _ again _ (by simp) rfl

theorem lookup_issuer (read : evidence.foldlM takeIssuer ∅ = .ok issuers) {grantId : String}
    {issuer : ScopeAuthority} :
    issuers.lookup grantId = some issuer ↔ ⟨grantId, issuer⟩ ∈ evidence := by
  obtain ⟨_, distinct, rfl⟩ := takeIssuers_ok.mp read
  rw [Table.lookup_foldl_insert distinct]
  constructor
  · rintro (⟨e, held, rfl, rfl⟩ | ⟨_, found⟩)
    · exact held
    · simp at found
  · exact fun held => .inl ⟨_, held, rfl, rfl⟩

end Evidence

/-! ## Contexts of a union -/

namespace ScopeContext

/-- What two contexts say together. -/
def join (a b : ScopeContext) : ScopeContext where
  scopeId := a.scopeId
  creator := a.creator
  controller := if a.controlEpoch ≤ b.controlEpoch then b.controller else a.controller
  controlEpoch := max a.controlEpoch b.controlEpoch
  controllers := a.controllers ∪ b.controllers
  revoked := a.revoked ∪ b.revoked
  issuers := a.issuers ∪ b.issuers

/-- Grants read the same against both. -/
structure Agrees (ctx other : ScopeContext) : Prop where
  scope : ctx.scopeId = other.scopeId
  controllers : ∀ e, ctx.controllers.lookup e = other.controllers.lookup e
  revoked : ctx.revoked = other.revoked
  issuers : ∀ id, ctx.issuers.lookup id = other.issuers.lookup id

variable {ctx other : ScopeContext}

theorem Agrees.issuerOf (agrees : ctx.Agrees other) (controller : ScopeAuthority)
    (g : ScopeCapabilityGrant) : ctx.issuerOf controller g = other.issuerOf controller g := by
  unfold ScopeContext.issuerOf
  rw [agrees.issuers]

theorem Agrees.rules (agrees : ctx.Agrees other) : ctx.rules = other.rules := by
  have rooted : ctx.Rooted = other.Rooted := by
    funext g
    unfold ScopeContext.Rooted ScopeContext.controllerIssued
    simp only [agrees.controllers, agrees.issuerOf]
  unfold ScopeContext.rules
  rw [rooted]

theorem Agrees.signed_iff {P : Primitives} (agrees : ctx.Agrees other)
    (g : ScopeCapabilityGrant) : ctx.Signed P g ↔ other.Signed P g := by
  unfold ScopeContext.Signed
  simp only [agrees.controllers, agrees.issuerOf, agrees.scope]

theorem Agrees.liveGrants (agrees : ctx.Agrees other) (s : ScopeAuthoritySnapshot) :
    ctx.liveGrants s = other.liveGrants s := by
  unfold ScopeContext.liveGrants ScopeContext.live
  rw [agrees.revoked]

end ScopeContext

/-- The union of two ledgers is within the limits; each grant has one signed text and one
issuer, is signed by that issuer, and is derivable from the grants that neither ledger
revoked. -/
structure Compatible (P : Primitives) (a b : ScopeAuthoritySnapshot) (ctx : ScopeContext) :
    Prop where
  limits : checkScopeLimits (joinScopeRecords a b) = .ok ()
  oneGrant : ∀ g ∈ a.grants, ∀ h ∈ b.grants, g.payload.grantId = h.payload.grantId → g = h
  oneIssuer : ∀ e ∈ a.grantIssuers, ∀ f ∈ b.grantIssuers, e.grantId = f.grantId → e = f
  signed : ∀ g ∈ (joinScopeRecords a b).grants, ctx.Signed P g
  derivable : ∀ g ∈ (joinScopeRecords a b).grants,
    ctx.rules.Derivable (ctx.liveGrants (joinScopeRecords a b)) g

section Join

variable {P : Primitives} {nowMs : Int} {a b : ScopeAuthoritySnapshot} {ctxA ctxB : ScopeContext}

variable (contextA : scopeContext P a nowMs = .ok ctxA)
  (contextB : scopeContext P b nowMs = .ok ctxB) (genesis : a.genesis = b.genesis)
  (extended : ControlExtends a b ∨ ControlExtends b a)

include contextA contextB genesis extended in
/-- The walk over the union passes the controllers of both ledgers. -/
theorem control_join :
    ∃ control, ControlRun P a.genesis.payload.scopeId nowMs
        (controlStart a.genesis.payload (joinScopeRecords a b)) control ∧
      (∀ e, control.controllers.lookup e = (ctxA.controllers ∪ ctxB.controllers).lookup e) ∧
      ∀ e c, ctxB.controllers.lookup e = some c → control.controllers.lookup e = some c := by
  obtain ⟨_, _, ⟨endA, runA, _, _, controllersA⟩, _⟩ := scopeContext_ok.mp contextA
  obtain ⟨_, _, ⟨endB, runB, _, _, controllersB⟩, _⟩ := scopeContext_ok.mp contextB
  rw [← genesis] at runB
  rw [controllersA, controllersB]
  rcases extended with extended | extended
  · obtain ⟨⟨control, walked, place⟩, reached⟩ := control_joined
      (joins_start extended runA runB (.inl ⟨rfl, rfl⟩)) runA runB
    refine ⟨control, walked, fun e => ?_, fun e c found => place.controllers ▸ found⟩
    rw [place.controllers, Table.lookup_union]
    cases found : endA.controllers.lookup e with
    | none => rw [Option.none_or]
    | some c => rw [reached e c found]; rfl
  · obtain ⟨⟨control, walked, place⟩, reached⟩ := control_joined
      (joins_start extended runB runA (.inr ⟨rfl, rfl⟩)) runB runA
    refine ⟨control, walked, fun e => ?_, fun e c found => place.controllers ▸ reached e c found⟩
    rw [place.controllers, Table.lookup_union]
    cases found : endA.controllers.lookup e with
    | some c => rfl
    | none =>
      cases foundB : endB.controllers.lookup e with
      | none => rfl
      | some c => exact absurd (reached e c foundB) (by simp [found])

theorem checkScopeRevocation_mono {scopeId : String} {few all : Table Nat ScopeAuthority}
    (reached : ∀ e c, few.lookup e = some c → all.lookup e = some c)
    {r : ScopeCapabilityRevocation} (checked : checkScopeRevocation P scopeId few r = .ok ()) :
    checkScopeRevocation P scopeId all r = .ok () := by
  obtain ⟨controller, found, verified⟩ := bind_ok.mp checked
  exact bind_ok.mpr ⟨controller, okOr_ok.mpr (reached _ _ (okOr_ok.mp found)), verified⟩

/-- The evidence of the union is that of both. -/
theorem issuers_join {issuersA issuersB : Table String ScopeAuthority}
    (readA : a.grantIssuers.foldlM takeIssuer ∅ = .ok issuersA)
    (readB : b.grantIssuers.foldlM takeIssuer ∅ = .ok issuersB)
    (oneIssuer : ∀ e ∈ a.grantIssuers, ∀ f ∈ b.grantIssuers, e.grantId = f.grantId → e = f) :
    ∃ issuers, (joinScopeRecords a b).grantIssuers.foldlM takeIssuer ∅ = .ok issuers ∧
      ∀ id, issuers.lookup id = (issuersA ∪ issuersB).lookup id := by
  obtain ⟨namedA, distinctA, _⟩ := takeIssuers_ok.mp readA
  obtain ⟨namedB, distinctB, _⟩ := takeIssuers_ok.mp readB
  have read : (joinScopeRecords a b).grantIssuers.foldlM takeIssuer ∅ = .ok _ :=
    takeIssuers_ok.mpr ⟨fun e held => (mem_appendUnique.mp held).elim (namedA e) (namedB e),
      nodup_map_appendUnique distinctA distinctB oneIssuer, rfl⟩
  refine ⟨_, read, fun id => Option.ext fun issuer => ?_⟩
  have joined : ⟨id, issuer⟩ ∈ (joinScopeRecords a b).grantIssuers ↔
      ⟨id, issuer⟩ ∈ a.grantIssuers ∨ ⟨id, issuer⟩ ∈ b.grantIssuers := mem_appendUnique
  rw [lookup_issuer read, joined, Table.lookup_union]
  cases found : issuersA.lookup id with
  | none =>
    have notA : ⟨id, issuer⟩ ∉ a.grantIssuers := fun held => by
      simp [(lookup_issuer readA).mpr held] at found
    rw [Option.none_or, lookup_issuer readB, or_iff_right notA]
  | some issuerA =>
    have inA := (lookup_issuer readA).mp found
    have same : some issuerA = some issuer ↔ ⟨id, issuer⟩ ∈ a.grantIssuers := by
      rw [← found, lookup_issuer readA]
    rw [Option.some_or, same]
    refine or_iff_left_of_imp fun inB => ?_
    exact oneIssuer _ inA _ inB rfl ▸ inA

include contextA contextB genesis extended in
theorem scopeContext_join (limits : checkScopeLimits (joinScopeRecords a b) = .ok ())
    (oneIssuer : ∀ e ∈ a.grantIssuers, ∀ f ∈ b.grantIssuers, e.grantId = f.grantId → e = f) :
    ∃ ctx, scopeContext P (joinScopeRecords a b) nowMs = .ok ctx ∧
      ctx.Agrees (ctxA.join ctxB) := by
  obtain ⟨control, walked, controllers, reachedB⟩ :=
    control_join contextA contextB genesis extended
  obtain ⟨_, verified, _, checkedA, readA, scopeA, _, revokedA⟩ := scopeContext_ok.mp contextA
  obtain ⟨_, _, _, checkedB, readB, scopeB, _, revokedB⟩ := scopeContext_ok.mp contextB
  obtain ⟨issuers, read, lookups⟩ := issuers_join readA readB oneIssuer
  have reachedA : ∀ e c, ctxA.controllers.lookup e = some c →
      control.controllers.lookup e = some c := by
    intro e c found
    rw [controllers, Table.lookup_union, found]
    rfl
  have scopes : ctxB.scopeId = a.genesis.payload.scopeId := genesis ▸ scopeB
  let ctx : ScopeContext :=
    { scopeId := a.genesis.payload.scopeId
      creator := a.genesis.payload.creator
      controller := control.controller
      controlEpoch := control.epoch
      controllers := control.controllers
      revoked := (joinScopeRecords a b).revocations.foldl
        (fun revoked r => insert r.payload.grantId revoked) ∅
      issuers := issuers }
  refine ⟨ctx, scopeContext_ok.mpr ⟨limits, verified, ⟨control, walked, rfl, rfl, rfl⟩, ?_, read,
    rfl, rfl, rfl⟩, ⟨scopeA.symm, controllers, ?_, lookups⟩⟩
  · intro r held
    rcases mem_appendUnique.mp held with inA | inB
    · rw [scopeA] at checkedA
      exact checkScopeRevocation_mono reachedA (checkedA r inA)
    · rw [scopes] at checkedB
      exact checkScopeRevocation_mono reachedB (checkedB r inB)
  · ext id
    show id ∈ List.foldl _ ∅ _ ↔ id ∈ ctxA.revoked ∪ ctxB.revoked
    rw [Table.foldl_insert_empty, List.mem_toFinset, List.mem_map, Finset.mem_union,
      mem_revoked contextA, mem_revoked contextB]
    simp only [joinScopeRecords, mem_appendUnique, or_and_right, exists_or]

/-- A union that is read has one record under each key. -/
theorem same_of_appendUnique {α : Type} [DecidableEq α] {key : α → String} {left right : List α}
    (distinct : ((appendUnique left right).map key).Nodup) :
    ∀ x ∈ left, ∀ y ∈ right, key x = key y → x = y := by
  intro x inLeft y inRight same
  exact List.inj_on_of_nodup_map distinct (mem_appendUnique.mpr (.inl inLeft))
    (mem_appendUnique.mpr (.inr inRight)) same

include contextA contextB genesis extended in
/-- The union is valid exactly if the two are compatible. -/
theorem valid_join_iff (distinctA : (a.grants.map fun g => g.payload.grantId).Nodup)
    (distinctB : (b.grants.map fun g => g.payload.grantId).Nodup) :
    (∃ valid, validateScopeAuthorityAt P (joinScopeRecords a b) nowMs = .ok valid) ↔
      Compatible P a b (ctxA.join ctxB) := by
  constructor
  · rintro ⟨valid, accepted⟩
    obtain ⟨ctx, context, validated⟩ := validate_sound accepted
    obtain ⟨limits, _, _, _, read, _⟩ := scopeContext_ok.mp context
    have oneIssuer := same_of_appendUnique (takeIssuers_ok.mp read).2.1
    obtain ⟨ctx', context', agrees⟩ :=
      scopeContext_join contextA contextB genesis extended limits oneIssuer
    obtain rfl : ctx = ctx' := ok_unique context context'
    refine ⟨limits, same_of_appendUnique validated.distinct, oneIssuer, ?_, ?_⟩
    · exact fun g held => (agrees.signed_iff g).mp (validated.signed g held)
    · rw [← agrees.rules, ← agrees.liveGrants]
      exact validated.derivable
  · rintro ⟨limits, oneGrant, oneIssuer, signed, derivable⟩
    obtain ⟨ctx, context, agrees⟩ :=
      scopeContext_join contextA contextB genesis extended limits oneIssuer
    rw [← agrees.rules, ← agrees.liveGrants] at derivable
    exact validate_total context (nodup_map_appendUnique distinctA distinctB oneGrant)
      (fun g held => (agrees.signed_iff g).mpr (signed g held)) derivable

end Join

/-- The merged ledger holds every record of the other. -/
structure KeepsRecords (merged s : ScopeAuthoritySnapshot) : Prop where
  genesis : merged.genesis = s.genesis
  grants : ∀ g ∈ s.grants, g ∈ merged.grants
  revocations : ∀ r ∈ s.revocations, r ∈ merged.revocations
  transfers : ∀ t ∈ s.controlTransfers, t ∈ merged.controlTransfers
  claims : ∀ t ∈ s.successionTransfers, ∃ u ∈ merged.successionTransfers,
    u.key = t.key ∧ ∀ r ∈ t.revocations, r ∈ u.revocations

theorem keeps_claims {P : Primitives} {nowMs : Int} {a b : ScopeAuthoritySnapshot}
    {ctxA : ScopeContext} (contextA : scopeContext P a nowMs = .ok ctxA)
    {t : ScopeSuccessionTransfer} (held : t ∈ a.successionTransfers ∨ t ∈ b.successionTransfers) :
    ∃ u ∈ (joinScopeRecords a b).successionTransfers,
      u.key = t.key ∧ ∀ r ∈ t.revocations, r ∈ u.revocations := by
  obtain ⟨_, _, ⟨_, walked, _⟩, _⟩ := scopeContext_ok.mp contextA
  have keys : t.key ∈ (joinScopeRecords a b).successionTransfers.map ScopeSuccessionTransfer.key :=
    (mem_keys_absorbAll key_joinSuccession).mpr
      (held.imp (fun inA => List.mem_map_of_mem inA) fun inB => List.mem_map_of_mem inB)
  obtain ⟨u, inside, key⟩ := List.mem_map.mp keys
  refine ⟨u, inside, key, fun r inT => ?_⟩
  exact (mem_joined_revocations walked.distinct_keys inside r).mpr ⟨t, held, key.symm, inT⟩

theorem keeps_join {P : Primitives} {nowMs : Int} {a b : ScopeAuthoritySnapshot}
    {ctxA : ScopeContext} (contextA : scopeContext P a nowMs = .ok ctxA)
    (genesis : a.genesis = b.genesis) :
    KeepsRecords (joinScopeRecords a b) a ∧ KeepsRecords (joinScopeRecords a b) b := by
  have claims := fun t => keeps_claims contextA (b := b) (t := t)
  constructor
  · exact ⟨rfl, fun g held => mem_appendUnique.mpr (.inl held),
      fun r held => mem_appendUnique.mpr (.inl held),
      fun t held => mem_appendUnique.mpr (.inl held), fun t held => claims t (.inl held)⟩
  · exact ⟨genesis, fun g held => mem_appendUnique.mpr (.inr held),
      fun r held => mem_appendUnique.mpr (.inr held),
      fun t held => mem_appendUnique.mpr (.inr held), fun t held => claims t (.inr held)⟩

/-- Valid ledgers of one scope, of which one extends the control chain of the other, merge
exactly if they are compatible.  The result is then valid, and keeps the records of both. -/
theorem scope_merge_accepted (P : Primitives) (a b : ScopeAuthoritySnapshot) (nowMs : Int)
    (validA validB : ValidatedScopeAuthority) (ctxA ctxB : ScopeContext)
    (acceptedA : validateScopeAuthorityAt P a nowMs = .ok validA)
    (acceptedB : validateScopeAuthorityAt P b nowMs = .ok validB)
    (contextA : scopeContext P a nowMs = .ok ctxA) (contextB : scopeContext P b nowMs = .ok ctxB)
    (genesis : a.genesis = b.genesis) (extended : ControlExtends a b ∨ ControlExtends b a) :
    ((∃ merged, mergeScopeAuthoritySnapshotsAt P (some a) b nowMs = .ok merged) ↔
      Compatible P a b (ctxA.join ctxB)) ∧
    ∀ merged, mergeScopeAuthoritySnapshotsAt P (some a) b nowMs = .ok merged →
      (∃ valid, validateScopeAuthorityAt P merged nowMs = .ok valid) ∧
      KeepsRecords merged a ∧ KeepsRecords merged b := by
  obtain ⟨_, _, validatedA⟩ := validate_sound acceptedA
  obtain ⟨_, _, validatedB⟩ := validate_sound acceptedB
  rw [← valid_join_iff contextA contextB genesis extended validatedA.distinct validatedB.distinct]
  have merges : ∀ merged, mergeScopeAuthoritySnapshotsAt P (some a) b nowMs = .ok merged ↔
      (∃ valid, validateScopeAuthorityAt P (joinScopeRecords a b) nowMs = .ok valid) ∧
        joinScopeRecords a b = merged := by
    intro merged
    simp only [mergeScopeAuthoritySnapshotsAt, acceptedA, acceptedB, ok_bind]
    rw [refuse_bind_ok, and_iff_right (not_not.mpr genesis), bind_ok, ← exists_and_right]
    simp only [Except.ok.injEq]
  simp only [merges, exists_and_left, exists_eq', and_true, true_and]
  rintro merged ⟨valid, rfl⟩
  exact ⟨valid, keeps_join contextA genesis⟩

namespace Sample

/-- A ledger of the same scope that has heard of another grant. -/
def scopeLedgerElsewhere : ScopeAuthoritySnapshot :=
  { scopeLedger with
    grants := [scopeGrant 0 1 "admin" [.read, .grant], scopeGrant 0 3 "writer" [.write]]
    grantIssuers := [] }

/-- The same records, with other certificates for the issuer of the delegated grant. -/
def scopeLedgerRewritten : ScopeAuthoritySnapshot :=
  { scopeLedger with
    grantIssuers := [⟨"reader", { scopeAuthority 1 with certificates := [certificate 1 3] }⟩] }

/-- A ledger that has heard of the admin's grant and of its revocation only. -/
def scopeLedgerRevoked : ScopeAuthoritySnapshot :=
  { scopeLedger with
    grants := [scopeGrant 0 1 "admin" [.read, .grant]]
    grantIssuers := []
    revocations := [scopeRevocation "admin"] }

end Sample

open Sample

theorem scope_merge_accepted_sample :
    ∃ merged valid, mergeScopeAuthoritySnapshotsAt primitives (some scopeLedger)
        scopeLedgerElsewhere 0 = .ok merged ∧
      validateScopeAuthorityAt primitives merged 0 = .ok valid ∧
      KeepsRecords merged scopeLedger ∧ KeepsRecords merged scopeLedgerElsewhere := by
  have accepts : ∀ s ∈ [scopeLedger, scopeLedgerElsewhere],
      (validateScopeAuthorityAt primitives s 0).isOk = true := by decide
  simp only [List.forall_mem_cons, isOk_iff] at accepts
  obtain ⟨⟨validA, acceptedA⟩, ⟨validB, acceptedB⟩, _⟩ := accepts
  obtain ⟨ctxA, contextA, _⟩ := validate_sound acceptedA
  obtain ⟨ctxB, contextB, _⟩ := validate_sound acceptedB
  have extended : ControlExtends scopeLedger scopeLedgerElsewhere :=
    ⟨by simp [scopeLedger], by simp [scopeLedger]⟩
  have merges : (mergeScopeAuthoritySnapshotsAt primitives (some scopeLedger)
      scopeLedgerElsewhere 0).isOk = true := by decide
  obtain ⟨merged, ran⟩ := isOk_iff.mp merges
  obtain ⟨⟨valid, accepted⟩, keepsA, keepsB⟩ := (scope_merge_accepted primitives scopeLedger
    scopeLedgerElsewhere 0 validA validB ctxA ctxB acceptedA acceptedB contextA contextB rfl
    (.inl extended)).2 merged ran
  exact ⟨merged, valid, ran, accepted, keepsA, keepsB⟩

/-- Two pairs of valid ledgers under one control chain whose unions are refused.  Evidence
is not signed, so the issuer of one grant may have different certificates in the two; and
a grant loses its backing when the other ledger revoked its issuer's. -/
theorem issuer_evidence_blocks_merge :
    (∀ s ∈ [scopeLedger, scopeLedgerRewritten, scopeLedgerRevoked],
      (validateScopeAuthorityAt primitives s 0).isOk = true ∧ s.genesis = scopeLedger.genesis ∧
      s.controlTransfers = scopeLedger.controlTransfers ∧
      s.successionTransfers = scopeLedger.successionTransfers) ∧
    mergeScopeAuthoritySnapshotsAt primitives (some scopeLedger) scopeLedgerRewritten 0 =
      .error "Duplicate scope grant issuer evidence" ∧
    mergeScopeAuthoritySnapshotsAt primitives (some scopeLedger) scopeLedgerRevoked 0 =
      .error "Scope capability delegation is cyclic or exceeds issuer authority" := by
  decide

end MetaMesh
