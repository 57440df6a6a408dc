import MetaMesh.CausalAdmission.Evaluate

/-!
# The authorized projection is closed

What the loops of causal admission establish.  `Resolved` holds of every state
of the first loop: a change is admitted only after its dependencies, by the
verdict on itself.  Quarantines take changes out, and the cascade ends when no
admitted change depends on one that was taken out.  `admission_closed` puts this
together: the admitted changes are closed under dependencies and the authorized
document holds exactly them.
-/

namespace MetaMesh

open Fallible

variable {P : Primitives} {E : Type} {A : Automerge E} {checks : ScopeChecks A}
  {history : CausalHistory A} {evidence : Evidence} {r : Resolution checks}
  {statuses upper : Statuses} {plan : CausalAdmissionPlan} {input : CausalAdmissionInput}
  {basis : Option String} {hash : String} {role : WorkspaceRole} {node : ChangeNode E}

/-! ## Histories -/

/-- Pending changes keep the hashes distinct and the document's changes in. -/
theorem addPendingChanges_spec {pending : List (List UInt8)} {changes all : List (Change E)}
    (distinct : (changes.map Change.hash).Nodup)
    (added : pending.foldlM (addPendingChange A) changes = .ok all) :
    (all.map Change.hash).Nodup ∧ ∀ change ∈ changes, change ∈ all := by
  apply foldlM_invariant added _ ⟨distinct, fun _ held => held⟩
  intro _ bytes _ before after _ kept step
  obtain ⟨change, _, same⟩ := bind_ok.mp step
  rw [← Except.ok.inj same]
  split
  · exact kept
  · next fresh =>
    refine ⟨?_, fun other held => List.mem_append_left _ (kept.2 other held)⟩
    rw [List.map_append, List.map_singleton]
    exact List.nodup_append.mpr ⟨kept.1, by simp, by
      rintro a held b single rfl
      exact fresh (List.mem_singleton.mp single ▸ held)⟩

/-- What is read: the document's changes and the pending ones, each once. -/
theorem readHistory_ok (lawful : A.Lawful) (read : readHistory P A input basis = .ok history) :
    A.load input.snapshot.document = some history.document ∧
      history.snapshot = input.snapshot ∧ history.trustedBasisHash = basis ∧
      history.hashes.Nodup ∧
      (∀ node ∈ history.nodes, node = changeNode P node.change) ∧
      (∀ change ∈ A.changes history.document, changeNode P change ∈ history.nodes) ∧
      (input.pendingChangeBytes = [] →
        history.nodes = (A.changes history.document).map (changeNode P)) := by
  obtain ⟨_, _, read⟩ := bind_ok.mp read
  obtain ⟨document, loaded, read⟩ := bind_ok.mp read
  obtain ⟨changes, added, read⟩ := bind_ok.mp read
  obtain ⟨_, same⟩ := refuse_bind_ok.mp read
  rw [← Except.ok.inj same]
  obtain ⟨distinct, kept⟩ := addPendingChanges_spec (lawful.distinct document) added
  refine ⟨okOr_ok.mp loaded, rfl, rfl, ?_, ?_, fun change held =>
    List.mem_map_of_mem (kept change held), ?_⟩
  · simpa [CausalHistory.hashes, changeNode, Function.comp_def] using distinct
  · intro node held
    obtain ⟨change, _, rfl⟩ := List.mem_map.mp held
    rfl
  · intro none
    rw [none] at added
    rw [← Except.ok.inj added]

theorem mem_hashes : hash ∈ history.hashes ↔ ∃ node ∈ history.nodes, node.hash = hash :=
  List.mem_map

theorem find_node (distinct : history.hashes.Nodup) (held : node ∈ history.nodes) :
    history.nodes.find? (fun other => other.hash = node.hash) = some node := by
  cases found : history.nodes.find? (fun other => other.hash = node.hash) with
  | none =>
    have missed := List.find?_eq_none.mp found node held
    simp at missed
  | some other =>
    have same := List.find?_some found
    rw [decide_eq_true_eq] at same
    rw [List.inj_on_of_nodup_map distinct (List.mem_of_find?_eq_some found) held same]

/-- The basis of a history is one of its changes and has no dependencies. -/
theorem checkHistoryBasis_ok (distinct : history.hashes.Nodup)
    (checked : checkHistoryBasis history = .ok ()) (held : node ∈ history.nodes)
    (isBasis : some node.hash = history.trustedBasisHash) : node.dependencies = [] := by
  unfold checkHistoryBasis at checked
  rw [← isBasis] at checked
  obtain ⟨found, located, passed⟩ := bind_ok.mp checked
  rw [okOr_ok, find_node distinct held] at located
  rw [Option.some.inj located]
  have root := refuse_ok.mp passed
  rw [not_or, not_not] at root
  exact root.1

/-! ## Statuses -/

section Statuses

theorem Statuses.isAdmitted_iff :
    statuses.isAdmitted hash = true ↔ ∃ role, statuses.lookup hash = some (.admitted role) := by
  unfold Statuses.isAdmitted
  cases found : statuses.lookup hash with
  | none => simp
  | some status => cases status <;> simp [CausalAdmissionStatus.isAdmitted]

theorem Statuses.lookup_quarantine (reason : String) (hashes : List String) :
    (statuses.quarantine reason hashes).lookup hash =
      if hash ∈ hashes then some (.quarantined reason) else statuses.lookup hash := by
  unfold Statuses.quarantine
  induction hashes generalizing statuses with
  | nil => simp
  | cons first hashes ih =>
    rw [List.foldl_cons, ih, Table.lookup_insert_ite]
    by_cases same : hash = first <;> by_cases later : hash ∈ hashes <;> simp [same, later]

variable {hashes : List String}

/-- What a quarantine leaves admitted was admitted and is not named. -/
theorem Statuses.lookup_quarantine_admitted {reason : String} :
    (statuses.quarantine reason hashes).lookup hash = some (.admitted role) ↔
      hash ∉ hashes ∧ statuses.lookup hash = some (.admitted role) := by
  rw [lookup_quarantine]
  by_cases named : hash ∈ hashes <;> simp [named]

theorem Statuses.isSome_quarantine {reason : String}
    (known : ∀ hash ∈ hashes, (statuses.lookup hash).isSome) :
    ((statuses.quarantine reason hashes).lookup hash).isSome ↔ (statuses.lookup hash).isSome := by
  rw [lookup_quarantine]
  by_cases named : hash ∈ hashes
  · simp [named, known hash named]
  · simp [named]

theorem lookup_closeUnresolved_admitted :
    (closeUnresolved statuses).lookup hash = some (.admitted role) ↔
      statuses.lookup hash = some (.admitted role) := by
  unfold closeUnresolved
  rw [Table.lookup_mapValues]
  cases found : statuses.lookup hash with
  | none => simp
  | some status =>
    by_cases open' : status = .unresolved
    · simp [open', CausalAdmissionStatus.unresolved]
    · simp [open']

theorem allAdmitted_iff :
    allAdmitted statuses = true ↔
      ∀ hash, (statuses.lookup hash).isSome → statuses.isAdmitted hash = true := by
  unfold allAdmitted
  rw [List.all_eq_true]
  constructor
  · intro all hash known
    obtain ⟨status, found⟩ := Option.isSome_iff_exists.mp known
    rw [Statuses.isAdmitted, found]
    exact all status (Table.mem_values.mpr ⟨hash, found⟩)
  · intro all status held
    obtain ⟨hash, found⟩ := Table.mem_values.mp held
    have admitted := all hash (by simp [found])
    rwa [Statuses.isAdmitted, found] at admitted

end Statuses

/-! ## The first loop -/

section Resolve

variable {next : Resolution checks}

variable {scope : Option AutomationGrantScope}

theorem roleStatus_isAdmitted {role' : WorkspaceRole}
    (admitted : (roleStatus checks history node role scope).1 = .admitted role') :
    role' = role := by
  unfold roleStatus at admitted
  split at admitted
  · cases admitted
  · split at admitted
    · split at admitted
      · cases admitted
      · split at admitted
        · exact (CausalAdmissionStatus.admitted.inj admitted).symm
        · cases admitted
    · exact (CausalAdmissionStatus.admitted.inj admitted).symm

theorem roleStatus_ne_unresolved : (roleStatus checks history node role scope).1 ≠ .unresolved := by
  unfold roleStatus CausalAdmissionStatus.unresolved
  split
  · simp
  · split
    · split
      · simp
      · split <;> simp
    · simp

/-- A verdict is final. -/
theorem ownVerdict_ne_unresolved :
    (ownVerdict checks history evidence node).status ≠ .unresolved := by
  unfold ownVerdict
  split
  · unfold roleVerdict
    split
    · simp [CausalAdmissionStatus.unresolved]
    · exact roleStatus_ne_unresolved
  · simp [CausalAdmissionStatus.unresolved]

/-- Who is admitted has a proven role and is admitted in it. -/
theorem role_of_ownVerdict
    (admitted : (ownVerdict checks history evidence node).status = .admitted role) :
    evidence.roles.lookup node.hash = some role := by
  unfold ownVerdict at admitted
  split at admitted
  · next proven found =>
    unfold roleVerdict at admitted
    split at admitted
    · cases admitted
    · rw [roleStatus_isAdmitted admitted, found]
  · cases admitted

/-- What its dependencies make of a change. -/
inductive Decides (checks : ScopeChecks A) (history : CausalHistory A) (evidence : Evidence)
    (statuses : Statuses) (node : ChangeNode E) : Verdict checks → Prop
  | missing (lacks : ∃ dep ∈ node.dependencies, dep ∉ history.hashes) :
      Decides checks history evidence statuses node
        ⟨.pending "Change dependency is missing", none, none, none⟩
  | outside (whole : ∀ dep ∈ node.dependencies, dep ∈ history.hashes)
      (excluded : ∃ dep ∈ node.dependencies,
        (statuses.lookup dep).any CausalAdmissionStatus.isExcluded = true) :
      Decides checks history evidence statuses node ⟨.outsideProjection, none, none, none⟩
  | judged (whole : ∀ dep ∈ node.dependencies, dep ∈ history.hashes)
      (deps : ∀ dep ∈ node.dependencies, statuses.isAdmitted dep = true) :
      Decides checks history evidence statuses node (ownVerdict checks history evidence node)

variable {verdict : Verdict checks}

theorem Decides.final (decides : Decides checks history evidence statuses node verdict) :
    verdict.status ≠ .unresolved := by
  cases decides with
  | missing
  | outside => simp [CausalAdmissionStatus.unresolved, unresolvedReason,
      CausalAdmissionStatus.outsideProjection]
  | judged => exact ownVerdict_ne_unresolved

theorem not_excluded_of_isAdmitted (admitted : statuses.isAdmitted hash = true) :
    (statuses.lookup hash).any CausalAdmissionStatus.isExcluded ≠ true := by
  obtain ⟨role, found⟩ := Statuses.isAdmitted_iff.mp admitted
  rw [found]
  exact nofun

/-- A step files what the dependencies make of an unresolved change. -/
theorem resolveNode_eq_some :
    resolveNode checks history evidence r node = some next ↔
      r.statuses.lookup node.hash = some .unresolved ∧ ∃ verdict,
        Decides checks history evidence r.statuses node verdict ∧
          r.withVerdict node.hash verdict = next := by
  unfold resolveNode
  constructor
  · intro stepped
    split at stepped
    · cases stepped
    · next open' =>
      refine ⟨not_not.mp open', ?_⟩
      split at stepped
      · next lacks => exact ⟨_, .missing (by simpa using lacks), Option.some.inj stepped⟩
      · next whole =>
        have whole : ∀ dep ∈ node.dependencies, dep ∈ history.hashes := by simpa using whole
        split at stepped
        · next excluded =>
          exact ⟨_, .outside whole (List.any_eq_true.mp excluded), Option.some.inj stepped⟩
        · split at stepped
          · cases stepped
          · split at stepped
            · next admitted =>
              exact ⟨_, .judged whole (List.all_eq_true.mp admitted), Option.some.inj stepped⟩
            · cases stepped
  · rintro ⟨open', verdict, decides, rfl⟩
    rw [if_neg (not_not.mpr open')]
    cases decides with
    | missing lacks =>
      rw [if_pos (by simpa using lacks)]
      rfl
    | outside whole excluded =>
      rw [if_neg (by simpa using whole), if_pos (List.any_eq_true.mpr excluded)]
      rfl
    | judged whole deps =>
      rw [if_neg (by simpa using whole), if_neg, if_neg, if_pos (List.all_eq_true.mpr deps)]
      · rw [List.any_eq_true]
        rintro ⟨dep, needs, open'⟩
        obtain ⟨role, found⟩ := Statuses.isAdmitted_iff.mp (deps dep needs)
        rw [found] at open'
        cases of_decide_eq_true open'
      · rw [List.any_eq_true]
        rintro ⟨dep, needs, excluded⟩
        exact not_excluded_of_isAdmitted (deps dep needs) excluded

variable {other : String}

theorem lookup_withVerdict :
    (r.withVerdict hash verdict).statuses.lookup other =
      if other = hash then some verdict.status else r.statuses.lookup other :=
  Table.lookup_insert_ite _ _ _ _

/-- What is noted about a change: the sources it created, the map it bound, its effect. -/
def Resolution.notes (r : Resolution checks) (hash : String) :
    Option (List String × Option checks.ObjId) × Option checks.ObjId × Option AutomationEffect :=
  (r.applicationSourceCreations.lookup hash, r.entitiesMapRebindings.lookup hash,
    r.automationEffects.lookup hash)

/-- What a verdict has to note. -/
def Verdict.notes (verdict : Verdict checks) :
    Option (List String × Option checks.ObjId) × Option checks.ObjId × Option AutomationEffect :=
  (verdict.creation, verdict.rebinding, verdict.effect)

theorem notes_withVerdict_of_ne (apart : other ≠ hash) :
    (r.withVerdict hash verdict).notes other = r.notes other := by
  have kept : ∀ {α : Type} (t : Table String α) noted,
      (insertNoted t hash noted).lookup other = t.lookup other := by
    intro α t noted
    cases noted with
    | none => rfl
    | some a => rw [insertNoted, Table.lookup_insert_ite, if_neg apart]
  simp only [Resolution.notes, Resolution.withVerdict, kept]

theorem notes_withVerdict_self (fresh : r.notes hash = (none, none, none)) :
    (r.withVerdict hash verdict).notes hash = verdict.notes := by
  have noted : ∀ {α : Type} {t : Table String α} {noted}, t.lookup hash = none →
      (insertNoted t hash noted).lookup hash = noted := by
    intro α t noted fresh
    cases noted with
    | none => exact fresh
    | some a => rw [insertNoted, Table.lookup_insert_ite, if_pos rfl]
  simp only [Resolution.notes, Prod.mk.injEq] at fresh
  simp only [Resolution.notes, Verdict.notes, Resolution.withVerdict, noted fresh.1,
    noted fresh.2.1, noted fresh.2.2]

/-- How the loop filed a change: as at the start, with nothing noted, or by a verdict that
its dependencies call for. -/
def Filed (history : CausalHistory A) (evidence : Evidence) (r : Resolution checks)
    (node : ChangeNode E) : Prop :=
  (r.statuses.lookup node.hash = some (initialStatus history node) ∧
      r.notes node.hash = (none, none, none)) ∨
    some node.hash ≠ history.trustedBasisHash ∧ ∃ verdict,
      Decides checks history evidence r.statuses node verdict ∧
      r.statuses.lookup node.hash = some verdict.status ∧ r.notes node.hash = verdict.notes

section

variable (open' : r.statuses.lookup hash = some .unresolved)

include open'

theorem isAdmitted_withVerdict {dep : String} (admitted : r.statuses.isAdmitted dep = true) :
    (r.withVerdict hash verdict).statuses.isAdmitted dep = true := by
  rw [Statuses.isAdmitted_iff] at admitted ⊢
  obtain ⟨role, found⟩ := admitted
  refine ⟨role, ?_⟩
  rw [lookup_withVerdict, if_neg, found]
  rintro rfl
  rw [open'] at found
  cases found

/-- What its dependencies make of a change stays when another one is classified. -/
theorem Decides.withVerdict {own : Verdict checks}
    (decides : Decides checks history evidence r.statuses node own) :
    Decides checks history evidence (r.withVerdict hash verdict).statuses node own := by
  cases decides with
  | missing lacks => exact .missing lacks
  | outside whole excluded =>
    obtain ⟨dep, needs, outside⟩ := excluded
    refine .outside whole ⟨dep, needs, ?_⟩
    rw [lookup_withVerdict, if_neg, outside]
    rintro rfl
    rw [open'] at outside
    cases outside
  | judged whole deps =>
    exact .judged whole fun dep needs => isAdmitted_withVerdict open' (deps dep needs)

/-- A verdict on one change leaves the others as they are filed. -/
theorem Filed.of_ne (apart : node.hash ≠ hash) (filed : Filed history evidence r node) :
    Filed history evidence (r.withVerdict hash verdict) node := by
  have same : (r.withVerdict hash verdict).statuses.lookup node.hash =
      r.statuses.lookup node.hash := by
    rw [lookup_withVerdict, if_neg apart]
  unfold Filed
  rw [same, notes_withVerdict_of_ne apart]
  exact filed.imp_right fun ⟨notBasis, own, decides, filed⟩ =>
    ⟨notBasis, own, decides.withVerdict open', filed⟩

end

variable (history evidence r) in
/-- A state of the first loop. -/
structure Resolved : Prop where
  keys : ∀ hash, (r.statuses.lookup hash).isSome ↔ hash ∈ history.hashes
  filed : ∀ node ∈ history.nodes, Filed history evidence r node
  unnoted : ∀ hash ∉ history.hashes, r.notes hash = (none, none, none)

theorem Resolved.basis_owner (resolved : Resolved history evidence r) (held : node ∈ history.nodes)
    (isBasis : some node.hash = history.trustedBasisHash) :
    r.statuses.lookup node.hash = some (.admitted .owner) := by
  rcases resolved.filed node held with ⟨status, _⟩ | ⟨other, _⟩
  · rw [status, initialStatus, if_pos isBasis]
  · exact absurd isBasis other

/-- An admitted change was judged, unless it is the basis. -/
theorem Resolved.judged (resolved : Resolved history evidence r) (held : node ∈ history.nodes)
    (notBasis : some node.hash ≠ history.trustedBasisHash)
    (admitted : r.statuses.lookup node.hash = some (.admitted role)) :
    (∀ dep ∈ node.dependencies, r.statuses.isAdmitted dep = true) ∧
      (ownVerdict checks history evidence node).status = .admitted role ∧
      r.notes node.hash = (ownVerdict checks history evidence node).notes := by
  rcases resolved.filed node held with ⟨status, _⟩ | ⟨_, verdict, decides, status, notes⟩
  · rw [admitted, initialStatus, if_neg notBasis] at status
    cases status
  · rw [admitted] at status
    cases decides with
    | missing
    | outside => cases status
    | judged _ deps => exact ⟨deps, (Option.some.inj status).symm, notes⟩

variable (r hash) in
/-- The changes about which something was noted. -/
def Resolution.Noted : Prop :=
  (r.applicationSourceCreations.lookup hash).isSome ∨
    (r.entitiesMapRebindings.lookup hash).isSome ∨ (r.automationEffects.lookup hash).isSome

/-- Something is noted only about a change that was judged. -/
theorem Resolved.noted (resolved : Resolved history evidence r) hash (noted : r.Noted hash) :
    ∃ node ∈ history.nodes, node.hash = hash ∧ some hash ≠ history.trustedBasisHash ∧
      r.notes hash = (ownVerdict checks history evidence node).notes := by
  have some' : r.notes hash ≠ (none, none, none) := by
    rintro none
    simp only [Resolution.notes, Prod.mk.injEq] at none
    simp [Resolution.Noted, none] at noted
  by_cases present : hash ∈ history.hashes
  · obtain ⟨node, held, rfl⟩ := mem_hashes.mp present
    rcases resolved.filed node held with ⟨_, unnoted⟩ | ⟨notBasis, verdict, decides, _, notes⟩
    · exact absurd unnoted some'
    · cases decides with
      | missing
      | outside => exact absurd notes some'
      | judged => exact ⟨node, held, rfl, notBasis, notes⟩
  · exact absurd (resolved.unnoted hash present) some'

theorem Resolved.noted_known (resolved : Resolved history evidence r) (noted : r.Noted hash) :
    hash ∈ history.hashes ∧ some hash ≠ history.trustedBasisHash := by
  obtain ⟨node, held, rfl, notBasis, _⟩ := resolved.noted hash noted
  exact ⟨List.mem_map_of_mem held, notBasis⟩

theorem lookup_initialStatuses (distinct : history.hashes.Nodup) {status : CausalAdmissionStatus} :
    (initialStatuses history).lookup hash = some status ↔
      ∃ node ∈ history.nodes, node.hash = hash ∧ initialStatus history node = status := by
  unfold initialStatuses
  rw [Table.lookup_foldl_insert distinct]
  simp

theorem Resolved.start (distinct : history.hashes.Nodup) :
    Resolved history evidence (⟨initialStatuses history, ∅, ∅, ∅⟩ : Resolution checks) where
  keys hash := by
    rw [Option.isSome_iff_exists, mem_hashes]
    simp only [lookup_initialStatuses distinct]
    constructor
    · rintro ⟨_, node, held, same, _⟩
      exact ⟨node, held, same⟩
    · rintro ⟨node, held, same⟩
      exact ⟨_, node, held, same, rfl⟩
  filed node held := .inl ⟨(lookup_initialStatuses distinct).mpr ⟨node, held, rfl, rfl⟩, rfl⟩
  unnoted _ _ := rfl

variable (history r) in
/-- The changes that are still unresolved. -/
def unresolvedHashes : Finset String :=
  history.hashes.toFinset.filter fun hash => r.statuses.lookup hash = some .unresolved

theorem Resolved.step (distinct : history.hashes.Nodup) (held : node ∈ history.nodes)
    (resolved : Resolved history evidence r)
    (stepped : resolveNode checks history evidence r node = some next) :
    Resolved history evidence next ∧
      (unresolvedHashes history next).card < (unresolvedHashes history r).card := by
  obtain ⟨open', verdict, decides, rfl⟩ := resolveNode_eq_some.mp stepped
  have present : node.hash ∈ history.hashes := List.mem_map_of_mem held
  refine ⟨⟨?_, ?_, ?_⟩, ?_⟩
  · intro hash
    rw [lookup_withVerdict, ← resolved.keys hash]
    split
    · next same =>
      subst same
      simp [open']
    · rfl
  · intro other held'
    by_cases same : other.hash = node.hash
    · obtain rfl := List.inj_on_of_nodup_map distinct held' held same
      rcases resolved.filed other held' with ⟨status, unnoted⟩ | ⟨_, _, decided, status, _⟩
      · refine .inr ⟨fun isBasis => ?_, verdict, decides.withVerdict open', ?_,
          notes_withVerdict_self unnoted⟩
        · rw [open', initialStatus, if_pos isBasis] at status
          cases status
        · rw [lookup_withVerdict, if_pos rfl]
      · exact absurd (Option.mem_unique status open') decided.final
    · exact (resolved.filed other held').of_ne open' same
  · intro hash absent
    rw [notes_withVerdict_of_ne, resolved.unnoted hash absent]
    rintro rfl
    exact absent present
  · apply Finset.card_lt_card
    rw [Finset.ssubset_iff_of_subset]
    · refine ⟨node.hash, ?_, ?_⟩
      · simp [unresolvedHashes, present, open']
      · simp [unresolvedHashes, lookup_withVerdict, decides.final]
    · intro hash left
      simp only [unresolvedHashes, Finset.mem_filter, lookup_withVerdict] at left ⊢
      refine ⟨left.1, ?_⟩
      have still := left.2
      split at still
      · exact absurd (Option.some.inj still) decides.final
      · exact still

theorem card_unresolved_start (history : CausalHistory A) :
    (unresolvedHashes history (⟨initialStatuses history, ∅, ∅, ∅⟩ : Resolution checks)).card <
      history.nodes.length + 1 := by
  have few : (unresolvedHashes history
      (⟨initialStatuses history, ∅, ∅, ∅⟩ : Resolution checks)).card ≤ history.hashes.length :=
    (Finset.card_filter_le _ _).trans (List.toFinset_card_le _)
  rw [CausalHistory.hashes, List.length_map] at few
  exact Nat.lt_succ_of_le few

/-- The first loop ends in a state in which no change can be classified. -/
theorem resolve_spec (distinct : history.hashes.Nodup) :
    Resolved history evidence (resolve checks history evidence) ∧ ∀ node ∈ history.nodes,
        resolveNode checks history evidence (resolve checks history evidence) node = none := by
  refine settle_pass (Resolved history evidence) (fun r => (unresolvedHashes history r).card) ?_
    (Resolved.start distinct) (card_unresolved_start history)
  intro r node held next resolved stepped
  exact resolved.step distinct held stepped

end Resolve

/-! ## Quarantines and the cascade -/

open Statuses (isAdmitted_iff)

section Cascade

variable {next : Statuses}

variable (history) in
/-- Statuses that admit no more than others do, and still the basis. -/
structure Narrows (upper statuses : Statuses) : Prop where
  keys : ∀ hash, (statuses.lookup hash).isSome ↔ hash ∈ history.hashes
  basis : ∀ node ∈ history.nodes, some node.hash = history.trustedBasisHash →
    statuses.lookup node.hash = some (.admitted .owner)
  admitted : ∀ hash role, statuses.lookup hash = some (.admitted role) →
    upper.lookup hash = some (.admitted role)

theorem Narrows.refl (narrows : Narrows history upper statuses) :
    Narrows history statuses statuses :=
  ⟨narrows.keys, narrows.basis, fun _ _ found => found⟩

theorem Narrows.trans (first : Narrows history upper statuses)
    (second : Narrows history statuses next) : Narrows history upper next :=
  ⟨second.keys, second.basis, fun hash role found =>
    first.admitted hash role (second.admitted hash role found)⟩

theorem Narrows.quarantine {reason : String} {hashes : List String}
    (narrows : Narrows history upper statuses)
    (known : ∀ hash ∈ hashes, hash ∈ history.hashes ∧ some hash ≠ history.trustedBasisHash) :
    Narrows history upper (statuses.quarantine reason hashes) where
  keys hash := by
    rw [Statuses.isSome_quarantine, narrows.keys]
    intro named held
    exact (narrows.keys named).mpr (known named held).1
  basis node held isBasis := by
    rw [Statuses.lookup_quarantine_admitted]
    exact ⟨fun named => (known node.hash named).2 isBasis, narrows.basis node held isBasis⟩
  admitted hash role found :=
    narrows.admitted hash role (Statuses.lookup_quarantine_admitted.mp found).2

theorem mem_entries_map {α : Type} {t : Table String α} {p : (_ : String) × α → Bool}
    (held : hash ∈ (t.entries.filter p).map fun entry => entry.1) : (t.lookup hash).isSome := by
  obtain ⟨⟨hash, a⟩, inEntries, rfl⟩ := List.mem_map.mp held
  have found := AList.mem_lookup_iff.mpr (List.mem_filter.mp inEntries).1
  exact Option.isSome_iff_exists.mpr ⟨a, found⟩

theorem narrows_statusesWithoutConflicts (resolved : Resolved history evidence r) :
    Narrows history r.statuses (statusesWithoutConflicts checks history r) := by
  have keys : ∀ hash, ((closeUnresolved r.statuses).lookup hash).isSome ↔
      (r.statuses.lookup hash).isSome := by
    intro hash
    rw [closeUnresolved, Table.lookup_mapValues, Option.isSome_map]
  have closed : Narrows history r.statuses (closeUnresolved r.statuses) :=
    ⟨fun hash => (keys hash).trans (resolved.keys hash),
      fun node held isBasis => lookup_closeUnresolved_admitted.mpr
        (resolved.basis_owner held isBasis),
      fun hash role found => lookup_closeUnresolved_admitted.mp found⟩
  apply Narrows.quarantine
  · apply closed.quarantine
    intro hash held
    exact resolved.noted_known (.inl (mem_entries_map held))
  · intro hash held
    exact resolved.noted_known (.inr (.inl (mem_entries_map held)))

variable (history statuses) in
/-- Every dependency of an admitted change is admitted. -/
def AdmissionClosed : Prop :=
  ∀ node ∈ history.nodes, statuses.isAdmitted node.hash = true →
    ∀ dep ∈ node.dependencies, statuses.isAdmitted dep = true

variable (history) in
/-- The basis has no dependencies. -/
def RootBasis : Prop :=
  ∀ node ∈ history.nodes, some node.hash = history.trustedBasisHash → node.dependencies = []

section

variable (root : RootBasis history) (resolved : Resolved history evidence r)
  (narrows : Narrows history r.statuses statuses)

include root resolved narrows

/-- The dependencies of an admitted change are in the history. -/
theorem Narrows.present (held : node ∈ history.nodes)
    (admitted : statuses.isAdmitted node.hash = true) {dep : String}
    (needs : dep ∈ node.dependencies) : (statuses.lookup dep).isSome := by
  rw [narrows.keys]
  by_cases isBasis : some node.hash = history.trustedBasisHash
  · rw [root node held isBasis] at needs
    cases needs
  · obtain ⟨role, found⟩ := isAdmitted_iff.mp admitted
    obtain ⟨deps, _⟩ := resolved.judged held isBasis (narrows.admitted _ _ found)
    exact (resolved.keys dep).mp (Option.isSome_of_any (deps dep needs))

theorem Narrows.closed_of_allAdmitted (all : allAdmitted statuses = true) :
    AdmissionClosed history statuses := by
  intro node held admitted dep needs
  exact allAdmitted_iff.mp all dep (narrows.present root resolved held admitted needs)

end

theorem excludeNode_eq_some (stepped : excludeNode statuses node = some next) :
    statuses.isAdmitted node.hash = true ∧
      (∃ dep ∈ node.dependencies, ∃ status, statuses.lookup dep = some status ∧
        status.isAdmitted = false) ∧
      next = statuses.insert node.hash .outsideProjection := by
  unfold excludeNode at stepped
  split at stepped
  · next excluded =>
    obtain ⟨dep, needs, outside⟩ := List.any_eq_true.mp excluded.2
    obtain ⟨status, found, outside⟩ := (Option.any_eq_true _ _).mp outside
    exact ⟨excluded.1, ⟨dep, needs, status, found, by simpa using outside⟩,
      (Option.some.inj stepped).symm⟩
  · cases stepped

theorem excludeNode_eq_none (quiet : excludeNode statuses node = none)
    (admitted : statuses.isAdmitted node.hash = true) {dep : String}
    (needs : dep ∈ node.dependencies) (known : (statuses.lookup dep).isSome) :
    statuses.isAdmitted dep = true := by
  unfold excludeNode at quiet
  split at quiet
  · cases quiet
  · next kept =>
    obtain ⟨status, found⟩ := Option.isSome_iff_exists.mp known
    by_contra outside
    refine kept ⟨admitted, List.any_eq_true.mpr ⟨dep, needs, ?_⟩⟩
    rw [Statuses.isAdmitted, found] at outside
    rw [found]
    simpa using outside

theorem mem_admittedHashes :
    hash ∈ admittedHashes history.nodes statuses ↔
      hash ∈ history.hashes ∧ statuses.isAdmitted hash = true := by
  simp [admittedHashes, CausalHistory.hashes]

/-- One step of the cascade takes one change out. -/
theorem Narrows.exclude (root : RootBasis history) (held : node ∈ history.nodes)
    (narrows : Narrows history upper statuses) (stepped : excludeNode statuses node = some next) :
    Narrows history upper next ∧
      (admittedHashes history.nodes next).card < (admittedHashes history.nodes statuses).card := by
  obtain ⟨admitted, ⟨dep, needs, _⟩, rfl⟩ := excludeNode_eq_some stepped
  have present : node.hash ∈ history.hashes := List.mem_map_of_mem held
  have before : ∀ hash role, (statuses.insert node.hash .outsideProjection).lookup hash =
      some (.admitted role) → statuses.lookup hash = some (.admitted role) := by
    intro hash role found
    rw [Table.lookup_insert_ite] at found
    split at found
    · cases found
    · exact found
  refine ⟨⟨?_, ?_, ?_⟩, ?_⟩
  · intro hash
    rw [Table.lookup_insert_ite]
    split
    · next same => simp [same, present]
    · exact narrows.keys hash
  · intro other held' isBasis
    rw [Table.lookup_insert_ite, if_neg, narrows.basis other held' isBasis]
    -- the basis has no dependency, so it is never taken out
    intro same
    rw [root node held (same ▸ isBasis)] at needs
    cases needs
  · exact fun hash role found => narrows.admitted hash role (before hash role found)
  · apply Finset.card_lt_card
    rw [Finset.ssubset_iff_of_subset]
    · refine ⟨node.hash, mem_admittedHashes.mpr ⟨present, admitted⟩, ?_⟩
      rw [mem_admittedHashes, Statuses.isAdmitted, AList.lookup_insert]
      exact fun kept => Bool.false_ne_true kept.2
    · intro hash left
      rw [mem_admittedHashes, isAdmitted_iff] at left ⊢
      obtain ⟨inHistory, role, found⟩ := left
      exact ⟨inHistory, role, before hash role found⟩

/-- The cascade ends with a closed projection inside the one it started from. -/
theorem cascade_spec (root : RootBasis history) (resolved : Resolved history evidence r)
    (narrows : Narrows history r.statuses statuses) :
    Narrows history statuses (cascade history.nodes statuses) ∧
      AdmissionClosed history (cascade history.nodes statuses) := by
  have few : (admittedHashes history.nodes statuses).card ≤ history.nodes.length := by
    refine (List.toFinset_card_le _).trans ((List.length_filter_le _ _).trans ?_)
    rw [List.length_map]
  obtain ⟨kept, quiet⟩ := settle_pass (Narrows history statuses)
    (fun statuses => (admittedHashes history.nodes statuses).card)
    (fun statuses node held next narrows stepped => narrows.exclude root held stepped)
    narrows.refl (Nat.lt_succ_of_le few)
  refine ⟨kept, fun node held admitted dep needs => ?_⟩
  exact excludeNode_eq_none (quiet node held) admitted needs
    ((narrows.trans kept).present root resolved held admitted needs)

end Cascade

/-! ## The projection -/

/-- The nodes of a history are read from its changes, and its document's changes
are among them. -/
structure WellRead (P : Primitives) (history : CausalHistory A) : Prop where
  distinct : history.hashes.Nodup
  read : ∀ node ∈ history.nodes, node = changeNode P node.change
  loaded : A.load history.snapshot.document = some history.document

theorem wellRead_of_readHistory (lawful : A.Lawful)
    (read : readHistory P A input basis = .ok history) : WellRead P history := by
  obtain ⟨loaded, snapshot, _, distinct, nodes, _⟩ := readHistory_ok lawful read
  exact ⟨distinct, nodes, snapshot ▸ loaded⟩

variable (history statuses) in
/-- A document that holds exactly the admitted changes. -/
def IsProjection (document : A.Document) : Prop :=
  ∀ change, change ∈ A.changes document ↔
    ∃ node ∈ history.nodes, node.change = change ∧ statuses.isAdmitted node.hash = true

theorem map_hash_filterMap {find : String → Option (Change E)} {hashes : List String}
    (found : ∀ hash ∈ hashes, ∃ change, find hash = some change ∧ change.hash = hash) :
    (hashes.filterMap find).map Change.hash = hashes := by
  induction hashes with
  | nil => rfl
  | cons hash hashes ih =>
    rw [List.forall_mem_cons] at found
    obtain ⟨⟨change, here, named⟩, later⟩ := found
    rw [List.filterMap_cons_some here, List.map_cons, ih later, named]

theorem buildAuthorizedProjection_ok (lawful : A.Lawful) (wellRead : WellRead P history)
    (narrows : Narrows history upper statuses) (closed : AdmissionClosed history statuses)
    {document : A.Document}
    (built : buildAuthorizedProjection A history.nodes statuses = .ok document) :
    IsProjection history statuses document := by
  obtain ⟨ordered, layered, built⟩ := bind_ok.mp built
  obtain ⟨unique, members⟩ := Layers.order_ok strKey strKey_injective wellRead.distinct layered
  have hashed : ∀ node ∈ history.nodes, node.change.hash = node.hash := by
    intro node held
    rw [wellRead.read node held]
    rfl
  have found : ∀ hash ∈ ordered, ∃ node ∈ history.nodes, node.hash = hash ∧
      statuses.isAdmitted hash = true ∧
      (history.nodes.find? fun node => node.hash = hash).map ChangeNode.change =
        some node.change := by
    intro hash held
    obtain ⟨present, admitted⟩ := mem_admittedHashes.mp ((members hash).mp held)
    obtain ⟨node, inHistory, rfl⟩ := mem_hashes.mp present
    exact ⟨node, inHistory, rfl, admitted, by rw [find_node wellRead.distinct inHistory]; rfl⟩
  have names : (ordered.filterMap fun hash =>
      (history.nodes.find? fun node => node.hash = hash).map ChangeNode.change).map Change.hash =
        ordered := by
    apply map_hash_filterMap
    intro hash held
    obtain ⟨node, inHistory, rfl, _, located⟩ := found hash held
    exact ⟨node.change, located, hashed node inHistory⟩
  have content : ∀ change, change ∈ (ordered.filterMap fun hash =>
      (history.nodes.find? fun node => node.hash = hash).map ChangeNode.change) ↔
        ∃ node ∈ history.nodes, node.change = change ∧ statuses.isAdmitted node.hash = true := by
    intro change
    rw [List.mem_filterMap]
    constructor
    · rintro ⟨hash, held, located⟩
      obtain ⟨node, inHistory, rfl, admitted, located'⟩ := found hash held
      exact ⟨node, inHistory, Option.mem_unique located' located, admitted⟩
    · rintro ⟨node, inHistory, rfl, admitted⟩
      have present : node.hash ∈ history.hashes := List.mem_map_of_mem inHistory
      refine ⟨node.hash, (members _).mpr (mem_admittedHashes.mpr ⟨present, admitted⟩), ?_⟩
      rw [find_node wellRead.distinct inHistory]
      rfl
  rw [← names] at unique
  intro change
  rw [lawful.built _ document unique ?_ (okOr_ok.mp built), content]
  -- the admitted changes are closed, so Automerge applies all of them
  intro change inBuild dep needs
  obtain ⟨node, inHistory, rfl, admitted⟩ := (content change).mp inBuild
  have depends : dep ∈ node.dependencies := by
    rw [wellRead.read node inHistory]
    exact needs
  have admitted' := closed node inHistory admitted dep depends
  have inOrder : dep ∈ ordered := by
    rw [members, mem_admittedHashes]
    exact ⟨(narrows.keys dep).mp (Option.isSome_of_any admitted'), admitted'⟩
  obtain ⟨other, inHistory', rfl, admitted'', _⟩ := found dep inOrder
  exact ⟨other.change, (content _).mpr ⟨other, inHistory', rfl, admitted''⟩,
    hashed other inHistory'⟩

/-- The document as it was given holds exactly the changes, when nothing is
pending and all of them are admitted. -/
theorem isProjection_of_allAdmitted (lawful : A.Lawful)
    (read : readHistory P A input basis = .ok history) (noPending : input.pendingChangeBytes = [])
    (narrows : Narrows history upper statuses) (all : allAdmitted statuses = true) :
    IsProjection history statuses history.document := by
  obtain ⟨_, _, _, _, _, _, nodes⟩ := readHistory_ok lawful read
  intro change
  rw [nodes noPending]
  constructor
  · intro held
    have inHistory : changeNode P change ∈ history.nodes := by
      rw [nodes noPending]
      exact List.mem_map_of_mem held
    exact ⟨changeNode P change, List.mem_map_of_mem held, rfl,
      allAdmitted_iff.mp all _ ((narrows.keys _).mpr (List.mem_map_of_mem inHistory))⟩
  · rintro ⟨_, held, rfl, _⟩
    obtain ⟨change, inDocument, rfl⟩ := List.mem_map.mp held
    exact inDocument

theorem mem_decisions {verified : List IncomingWorkspaceChangeAuthorization} {bytes : List UInt8}
    {decision : CausalAdmissionDecision} :
    decision ∈ (admissionPlan history.nodes statuses verified bytes).decisions ↔
      decision.hash ∈ history.hashes ∧ statuses.lookup decision.hash = some decision.status := by
  simp only [admissionPlan, mem_sortBy, List.mem_filterMap, Option.map_eq_some_iff, mem_hashes]
  constructor
  · rintro ⟨node, held, status, found, rfl⟩
    exact ⟨⟨node, held, rfl⟩, found⟩
  · rintro ⟨⟨node, held, same⟩, found⟩
    exact ⟨node, held, decision.status, same ▸ found, by rw [same]⟩

variable (checks history evidence plan) in
/-- A plan made from statuses that are closed, with their projection. -/
structure Planned (statuses : Statuses) : Prop where
  narrows : Narrows history (resolve checks history evidence).statuses statuses
  closed : AdmissionClosed history statuses
  decisions : ∃ verified bytes,
    plan.decisions = (admissionPlan history.nodes statuses verified bytes).decisions
  document : ∃ document, A.load plan.authorizedDocument = some document ∧
    IsProjection history statuses document

variable (checks history evidence) in
/-- The statuses before the projection is looked at. -/
abbrev clearStatuses : Statuses :=
  statusesWithoutConflicts checks history (resolve checks history evidence)

theorem planAdmission_ok (lawful : A.Lawful) (read : readHistory P A input basis = .ok history)
    (root : RootBasis history)
    (planned : planAdmission checks history (input.pendingChangeBytes ≠ []) evidence = .ok plan) :
    ∃ statuses, Planned checks history evidence plan statuses ∧ ∀ hash,
      statuses.isAdmitted hash = true →
        (clearStatuses checks history evidence).isAdmitted hash = true := by
  have wellRead := wellRead_of_readHistory lawful read
  obtain ⟨resolved, _⟩ := @resolve_spec _ _ checks history evidence wellRead.distinct
  have narrows := narrows_statusesWithoutConflicts resolved
  unfold planAdmission at planned
  dsimp only at planned
  split at planned
  · next whole =>
    rw [Bool.and_eq_true, Bool.and_eq_true] at whole
    obtain ⟨⟨noPending, all⟩, _⟩ := whole
    rw [← Except.ok.inj planned]
    refine ⟨_, ⟨narrows, narrows.closed_of_allAdmitted root resolved all, ⟨_, _, rfl⟩,
      history.document, wellRead.loaded, ?_⟩, fun _ => id⟩
    exact isProjection_of_allAdmitted lawful read (by simpa using noPending) narrows all
  · obtain ⟨authorized, projected, planned⟩ := bind_ok.mp planned
    obtain ⟨document, rebuilt, same⟩ := bind_ok.mp planned
    rw [← Except.ok.inj same]
    have quarantined := @Narrows.quarantine _ _ history _ _
      "Automation move conflicts with a concurrent authorized status change"
      (conflictingAutomation checks (resolve checks history evidence)
        (clearStatuses checks history evidence) authorized)
      narrows fun hash held => resolved.noted_known (.inr (.inr (mem_entries_map held)))
    obtain ⟨kept, closed⟩ := cascade_spec root resolved quarantined
    have clear := fun hash role found =>
      (Statuses.lookup_quarantine_admitted.mp (kept.admitted hash role found)).2
    refine ⟨_, ⟨quarantined.trans kept, closed, ⟨_, _, rfl⟩, ?_⟩, fun hash still =>
      isAdmitted_iff.mpr ((isAdmitted_iff.mp still).imp (clear hash))⟩
    obtain ⟨copy, loaded, content⟩ := lawful.saved document
    refine ⟨copy, loaded, fun change => (content change).trans ?_⟩
    unfold finalProjection at rebuilt
    split at rebuilt
    · next all =>
      -- nothing left the projection, so the first one stands
      obtain rfl := Except.ok.inj rebuilt
      have before : allAdmitted (clearStatuses checks history evidence) = true := by
        rw [allAdmitted_iff]
        intro hash known
        have still := allAdmitted_iff.mp all hash
          ((kept.keys hash).mpr ((narrows.keys hash).mp known))
        exact isAdmitted_iff.mpr ((isAdmitted_iff.mp still).imp (clear hash))
      unfold firstProjection at projected
      split at projected
      · next whole =>
        rw [okOr_ok, wellRead.loaded] at projected
        rw [Bool.and_eq_true] at whole
        obtain rfl := Option.some.inj projected
        exact isProjection_of_allAdmitted lawful read (by simpa using whole.1) kept all change
      · rw [buildAuthorizedProjection_ok lawful wellRead narrows
          (narrows.closed_of_allAdmitted root resolved before) projected change]
        apply exists_congr
        intro node
        apply and_congr_right
        intro held
        have present : node.hash ∈ history.hashes := List.mem_map_of_mem held
        rw [allAdmitted_iff.mp before _ ((narrows.keys _).mpr present),
          allAdmitted_iff.mp all _ ((kept.keys _).mpr present)]
    · exact buildAuthorizedProjection_ok lawful wellRead kept closed rebuilt change

variable (plan hash) in
/-- The plan admits a change. -/
def CausalAdmissionPlan.Admits : Prop :=
  ∃ role, ⟨hash, .admitted role⟩ ∈ plan.decisions

theorem Planned.mem_decisions (planned : Planned checks history evidence plan statuses)
    {status : CausalAdmissionStatus} :
    ⟨hash, status⟩ ∈ plan.decisions ↔ statuses.lookup hash = some status := by
  obtain ⟨_, _, same⟩ := planned.decisions
  rw [same, MetaMesh.mem_decisions, and_iff_right_iff_imp]
  intro found
  have known : statuses.lookup hash = some status := found
  exact (planned.narrows.keys hash).mp (by simp [known])

theorem Planned.admits_iff (planned : Planned checks history evidence plan statuses) :
    plan.Admits hash ↔ statuses.isAdmitted hash = true := by
  rw [isAdmitted_iff]
  exact exists_congr fun role => planned.mem_decisions

/-- What a successful evaluation went through. -/
theorem evaluated_ok (lawful : A.Lawful)
    (evaluated : evaluateCausalAdmissionInner P checks input basis = .ok plan) :
    ∃ history context evidence statuses, readHistory P A input basis = .ok history ∧
      fromSnapshotCausal P A input.snapshot = .ok context ∧
      readEvidence P checks history context input.records = .ok evidence ∧
      RootBasis history ∧ Planned checks history evidence plan statuses ∧ ∀ hash,
        statuses.isAdmitted hash = true →
          (clearStatuses checks history evidence).isAdmitted hash = true := by
  obtain ⟨history, read, evaluated⟩ := bind_ok.mp evaluated
  obtain ⟨context, validated, evaluated⟩ := bind_ok.mp evaluated
  obtain ⟨evidence, gathered, evaluated⟩ := bind_ok.mp evaluated
  obtain ⟨_, checked, evaluated⟩ := bind_ok.mp evaluated
  have distinct := (wellRead_of_readHistory lawful read).distinct
  have root : RootBasis history := fun node held isBasis =>
    checkHistoryBasis_ok distinct checked held isBasis
  obtain ⟨statuses, planned, clear⟩ := planAdmission_ok lawful read root evaluated
  exact ⟨history, context, evidence, statuses, read, validated, gathered, root, planned, clear⟩

/-- The admitted changes, with the basis, are closed under dependencies, and the
authorized document holds exactly them. -/
theorem admission_closed (lawful : A.Lawful)
    (evaluated : evaluateCausalAdmissionInner P checks input basis = .ok plan) :
    ∃ history, readHistory P A input basis = .ok history ∧
      (∀ node ∈ history.nodes, plan.Admits node.hash →
        ∀ dep ∈ node.dependencies, plan.Admits dep ∨ some dep = basis) ∧
      ∃ document, A.load plan.authorizedDocument = some document ∧
        ∀ change, change ∈ A.changes document ↔ ∃ node ∈ history.nodes,
          node.change = change ∧ (some node.hash = basis ∨ plan.Admits node.hash) := by
  obtain ⟨history, _, _, statuses, read, _, _, root, planned, _⟩ :=
    evaluated_ok lawful evaluated
  obtain ⟨_, _, trusted, _⟩ := readHistory_ok lawful read
  refine ⟨history, read, fun node held admits dep needs => Or.inl ?_, ?_⟩
  · rw [planned.admits_iff] at admits ⊢
    exact planned.closed node held admits dep needs
  · obtain ⟨document, loaded, content⟩ := planned.document
    refine ⟨document, loaded, fun change => ?_⟩
    rw [content change]
    apply exists_congr
    intro node
    apply and_congr_right
    intro held
    apply and_congr_right
    intro _
    rw [planned.admits_iff]
    constructor
    · exact Or.inr
    · rintro (isBasis | admitted)
      · have found := planned.narrows.basis node held (trusted.symm ▸ isBasis)
        exact isAdmitted_iff.mpr ⟨_, found⟩
      · exact admitted

namespace Sample

def rootChange : Change Unit := ⟨"root", [], none, ()⟩
def editChange : Change Unit := ⟨"edit", ["root"], none, ()⟩

/-- The history of a root and one edit, and what is left without the edit. -/
def edits : Automerge Unit := journal [[], [rootChange], [rootChange, editChange]]

theorem edits_lawful : edits.Lawful :=
  journal_lawful (by decide) (fun hash => if hash = "root" then 0 else 1) (by decide)

/-- Only the root is signed for. -/
def unsignedEdit : CausalAdmissionInput where
  records := [signedChanges 0 ["root"] none]
  snapshot := workspace [2]
  pendingChangeBytes := []
  nowMs := 0

end Sample

open Sample

set_option maxRecDepth 100000 in
/-- The unsigned edit is left out of the authorized document. -/
theorem admission_closed_sample :
    evaluateCausalAdmissionInner primitives (profileScope edits)
        unsignedEdit none =
      .ok ⟨[⟨"edit", .quarantined "No verified signed authorization covers this change"⟩,
        ⟨"root", .admitted .owner⟩], [signedChanges 0 ["root"] none], [1]⟩ ∧
      ∃ history, readHistory primitives edits unsignedEdit none = .ok history ∧
        ∃ document, edits.load [1] = some document ∧
          ∀ change, change ∈ edits.changes document ↔ ∃ node ∈ history.nodes,
            node.change = change ∧ (some node.hash = none ∨
              (⟨[⟨"edit", .quarantined "No verified signed authorization covers this change"⟩,
                ⟨"root", .admitted .owner⟩], [signedChanges 0 ["root"] none], [1]⟩ :
                  CausalAdmissionPlan).Admits node.hash) := by
  refine (and_iff_left_of_imp fun evaluated => ?_).mpr (by decide)
  obtain ⟨history, read, _, content⟩ := admission_closed edits_lawful evaluated
  exact ⟨history, read, content⟩

/-- The admitted changes come in the order of the layers that scanning all of them again
and again finds, and only a circle among them is refused. -/
theorem ordered_in_layers {E : Type} (nodes : List (ChangeNode E)) (admitted : Finset String)
    (distinct : (nodes.map ChangeNode.hash).Nodup)
    (known : ∀ hash ∈ admitted, ∃ node ∈ nodes, node.hash = hash) :
    (∀ ordered, orderedAdmittedHashes nodes admitted = .ok ordered →
      ordered.Nodup ∧ (∀ hash, hash ∈ ordered ↔ hash ∈ admitted) ∧
      (∀ node ∈ nodes, node.hash ∈ admitted → ∀ dep ∈ node.dependencies, dep ∈ admitted →
        ordered.idxOf dep < ordered.idxOf node.hash) ∧
      ∀ n, admitted.card ≤ n →
        (Layers.scan ChangeNode.hash ChangeNode.dependencies admitted strKey strKey_injective
          nodes)^[n] [] = ordered) ∧
    ∀ e, orderedAdmittedHashes nodes admitted = .error e ↔
      e = "Authorized workspace change dependencies are cyclic" ∧
        Layers.Cyclic ChangeNode.hash ChangeNode.dependencies admitted nodes := by
  refine ⟨fun ordered returned => ?_, fun e => Layers.order_error strKey _ distinct known⟩
  obtain ⟨unique, members⟩ := Layers.order_ok strKey strKey_injective distinct returned
  refine ⟨unique, members, ?_, fun n => Layers.order_scan strKey _ distinct returned⟩
  intro node held member dep needs inside
  exact Layers.order_rises strKey _ distinct returned ⟨member, inside, node, held, rfl, needs⟩

/-- The root comes first, and the edit does not wait for itself. -/
theorem edits_in_layers :
    orderedAdmittedHashes [changeNode primitives editChange, changeNode primitives rootChange]
        {"edit", "root"} = .ok ["root", "edit"] ∧
      ¬ Layers.Cyclic ChangeNode.hash ChangeNode.dependencies {"edit", "root"}
        [changeNode primitives editChange, changeNode primitives rootChange] := by
  refine (and_iff_left_of_imp fun ordered loop => ?_).mpr (by decide)
  have refused := ((ordered_in_layers _ {"edit", "root"} (by decide) (by decide)).2 _).mpr
    ⟨rfl, loop⟩
  cases refused.symm.trans ordered

end MetaMesh
