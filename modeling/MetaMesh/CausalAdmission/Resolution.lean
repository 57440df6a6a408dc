import Mathlib.Algebra.Order.BigOperators.Group.List
import Mathlib.Algebra.Order.Group.Nat
import MetaMesh.CausalAdmission.Closure

/-!
# What the first loop decides

`Resolved` says how a change is filed; here is what follows when the loop ends.  The
admitted changes are exactly those whose dependencies are admitted and whose own verdict
admits them (`admitted_of_deps`), and they do not depend on each other in a circle
(`Ranked`).
-/

namespace MetaMesh

open Fallible

open Statuses (isAdmitted_iff)

variable {E : Type} {A : Automerge E} {checks : ScopeChecks A} {evidence : Evidence}
  {history : CausalHistory A} {r : Resolution checks}

section Filing

variable {next : Resolution checks} {node other : ChangeNode E}

section

variable (distinct : history.hashes.Nodup)

include distinct

/-! ## No circles -/

/-- The admitted changes do not depend on each other in a circle. -/
def Ranked (history : CausalHistory A) (statuses : Statuses) : Prop :=
  ∃ rank : String → Nat, ∀ node ∈ history.nodes, statuses.isAdmitted node.hash = true →
    ∀ dep ∈ node.dependencies, rank dep < rank node.hash

theorem Ranked.start (root : RootBasis history) : Ranked history (initialStatuses history) := by
  refine ⟨fun _ => 0, fun node held admitted dep needs => ?_⟩
  obtain ⟨role, found⟩ := isAdmitted_iff.mp admitted
  obtain ⟨other, held', same, status⟩ := (lookup_initialStatuses distinct).mp found
  obtain rfl := List.inj_on_of_nodup_map distinct held' held same
  unfold initialStatus at status
  split at status
  · next isBasis =>
    rw [root other held isBasis] at needs
    cases needs
  · cases status

theorem Ranked.step (root : RootBasis history) (held : node ∈ history.nodes)
    (resolved : Resolved history evidence r)
    (stepped : resolveNode checks history evidence r node = some next)
    (ranked : Ranked history r.statuses) : Ranked history next.statuses := by
  obtain ⟨open', verdict, decides, rfl⟩ := resolveNode_eq_some.mp stepped
  obtain ⟨rank, rises⟩ := ranked
  have notAdmitted : r.statuses.isAdmitted node.hash = false := by
    rw [Statuses.isAdmitted, open']
    rfl
  -- no admitted change depends on the one that is being judged
  have apart : ∀ other ∈ history.nodes, r.statuses.isAdmitted other.hash = true →
      ∀ dep ∈ other.dependencies, dep ≠ node.hash := by
    rintro other held' admitted _ needs rfl
    by_cases isBasis : some other.hash = history.trustedBasisHash
    · rw [root other held' isBasis] at needs
      cases needs
    · obtain ⟨role, found⟩ := isAdmitted_iff.mp admitted
      have depAdmitted := (resolved.judged held' isBasis found).1 _ needs
      rw [notAdmitted] at depAdmitted
      cases depAdmitted
  refine ⟨fun hash => if hash = node.hash then (node.dependencies.map rank).sum + 1 else rank hash,
    fun other held' admitted dep needs => ?_⟩
  dsimp only
  by_cases same : other.hash = node.hash
  · obtain rfl := List.inj_on_of_nodup_map distinct held' held same
    rw [Statuses.isAdmitted, lookup_withVerdict, if_pos rfl] at admitted
    cases decides with
    | missing
    | outside => cases admitted
    | judged _ deps =>
      have other' : dep ≠ other.hash := by
        rintro rfl
        rw [deps _ needs] at notAdmitted
        cases notAdmitted
      rw [if_neg other', if_pos rfl]
      exact Nat.lt_succ_of_le (List.le_sum_of_mem (List.mem_map_of_mem needs))
  · rw [Statuses.isAdmitted, lookup_withVerdict, if_neg same] at admitted
    rw [if_neg same, if_neg (apart other held' admitted dep needs)]
    exact rises other held' admitted dep needs

/-! ## The end of the loop -/

/-- What holds when the loop ends. -/
structure Settled (history : CausalHistory A) (evidence : Evidence) (r : Resolution checks) :
    Prop where
  resolved : Resolved history evidence r
  ranked : Ranked history r.statuses
  quiet : ∀ node ∈ history.nodes, resolveNode checks history evidence r node = none

theorem resolve_settled (root : RootBasis history) :
    Settled history evidence (resolve checks history evidence) := by
  have ends : (Resolved history evidence (resolve checks history evidence) ∧
      Ranked history (resolve checks history evidence).statuses) ∧
      ∀ node ∈ history.nodes,
        resolveNode checks history evidence (resolve checks history evidence) node = none := by
    refine settle_pass (fun r => Resolved history evidence r ∧ Ranked history r.statuses)
      (fun r => (unresolvedHashes history r).card) ?_
      ⟨Resolved.start distinct, Ranked.start distinct root⟩ (card_unresolved_start history)
    rintro r node held next ⟨resolved, ranked⟩ stepped
    obtain ⟨kept, fewer⟩ := resolved.step distinct held stepped
    exact ⟨⟨kept, ranked.step distinct root held resolved stepped⟩, fewer⟩
  obtain ⟨⟨resolved, ranked⟩, quiet⟩ := ends
  exact ⟨resolved, ranked, quiet⟩

end

section

variable (settled : Settled history evidence r) (held : node ∈ history.nodes)

include settled held

/-- A change is admitted once its dependencies are, if its own verdict admits it. -/
theorem Settled.admitted_of_deps
    (deps : ∀ dep ∈ node.dependencies, r.statuses.isAdmitted dep = true)
    (own : (ownVerdict checks history evidence node).status.isAdmitted = true) :
    r.statuses.isAdmitted node.hash = true := by
  have whole : ∀ dep ∈ node.dependencies, dep ∈ history.hashes := fun dep needs =>
    (settled.resolved.keys dep).mp (Option.isSome_of_any (deps dep needs))
  rcases settled.resolved.filed node held with ⟨status, _⟩ | ⟨_, verdict, decides, status, _⟩
  · unfold initialStatus at status
    split at status
    · exact isAdmitted_iff.mpr ⟨_, status⟩
    · -- the loop would have gone on
      have quiet := settled.quiet node held
      rw [resolveNode_eq_some.mpr ⟨status, _, .judged whole deps, rfl⟩] at quiet
      cases quiet
  · cases decides with
    | missing lacks =>
      obtain ⟨dep, needs, absent⟩ := lacks
      exact absurd (whole dep needs) absent
    | outside _ excluded =>
      obtain ⟨dep, needs, outside⟩ := excluded
      exact absurd outside (not_excluded_of_isAdmitted (deps dep needs))
    | judged => rw [Statuses.isAdmitted, status]; exact own

end

end Filing

/-! ## Conflicts -/

section Conflicts

variable {hash : String}

theorem mem_filter_entries {α : Type} {t : Table String α} {p : (_ : String) × α → Bool} :
    hash ∈ (t.entries.filter p).map (fun entry => entry.1) ↔
      ∃ a, t.lookup hash = some a ∧ p ⟨hash, a⟩ = true := by
  rw [List.mem_map]
  constructor
  · rintro ⟨⟨hash, a⟩, held, rfl⟩
    obtain ⟨inEntries, passes⟩ := List.mem_filter.mp held
    exact ⟨a, AList.mem_lookup_iff.mpr inEntries, passes⟩
  · rintro ⟨a, found, passes⟩
    exact ⟨⟨hash, a⟩, List.mem_filter.mpr ⟨AList.mem_lookup_iff.mp found, passes⟩, rfl⟩

theorem mem_conflictingCreations :
    hash ∈ conflictingCreations checks history r ↔
      ∃ creation, r.applicationSourceCreations.lookup hash = some creation ∧
        ∃ id ∈ creation.1, id ∈ checks.applicationSourceConflicts history.document := by
  unfold conflictingCreations
  rw [mem_filter_entries]
  refine exists_congr fun creation => and_congr_right fun found => ?_
  have some' : r.applicationSourceCreations ≠ ∅ := by
    intro empty
    rw [empty] at found
    cases found
  rw [if_neg some', List.any_eq_true]
  simp

theorem mem_conflictingRebindings :
    hash ∈ conflictingRebindings checks r ↔ ∃ map, r.entitiesMapRebindings.lookup hash = some map ∧
        ∃ other creation, r.applicationSourceCreations.lookup other = some creation ∧
          creation.2 = some map := by
  unfold conflictingRebindings
  rw [mem_filter_entries]
  refine exists_congr fun map => and_congr_right fun _ => ?_
  rw [List.any_eq_true]
  constructor
  · rintro ⟨creation, held, same⟩
    obtain ⟨other, found⟩ := Table.mem_values.mp held
    exact ⟨other, creation, found, of_decide_eq_true same⟩
  · rintro ⟨other, creation, found, same⟩
    exact ⟨creation, Table.mem_values.mpr ⟨other, found⟩, decide_eq_true same⟩

theorem isAdmitted_statusesWithoutConflicts :
    (statusesWithoutConflicts checks history r).isAdmitted hash = true ↔
      r.statuses.isAdmitted hash = true ∧ hash ∉ conflictingCreations checks history r ∧
        hash ∉ conflictingRebindings checks r := by
  unfold statusesWithoutConflicts
  rw [isAdmitted_iff, isAdmitted_iff]
  simp only [Statuses.lookup_quarantine_admitted, lookup_closeUnresolved_admitted]
  constructor
  · rintro ⟨role, second, first, found⟩
    exact ⟨⟨role, found⟩, first, second⟩
  · rintro ⟨⟨role, found⟩, first, second⟩
    exact ⟨role, second, first, found⟩

end Conflicts

/-! ## The same history under other evidence -/

section Upheld

variable {P : Primitives} {more : Evidence} {plan : CausalAdmissionPlan} {statuses : Statuses}

/-- A closed set of admitted changes stays admitted in the cascade. -/
theorem cascade_keeps {keep : String → Prop}
    (closed : ∀ node ∈ history.nodes, keep node.hash → ∀ dep ∈ node.dependencies, keep dep)
    (admitted : ∀ hash, keep hash → statuses.isAdmitted hash = true) {hash : String}
    (kept : keep hash) : (cascade history.nodes statuses).isAdmitted hash = true := by
  have step : ∀ (statuses next : Statuses), ∀ node ∈ history.nodes,
      (∀ hash, keep hash → statuses.isAdmitted hash = true) →
      excludeNode statuses node = some next →
      ∀ hash, keep hash → next.isAdmitted hash = true := by
    intro statuses next node held admitted stepped hash kept
    obtain ⟨_, ⟨dep, needs, status, found, outside⟩, rfl⟩ := excludeNode_eq_some stepped
    have apart : hash ≠ node.hash := by
      rintro rfl
      have depAdmitted := admitted dep (closed node held kept dep needs)
      rw [Statuses.isAdmitted, found, Option.any_some, outside] at depAdmitted
      cases depAdmitted
    rw [Statuses.isAdmitted, Table.lookup_insert_ite, if_neg apart]
    exact admitted hash kept
  exact settle_invariant (fun statuses => ∀ hash, keep hash → statuses.isAdmitted hash = true)
    (fun statuses node held next admitted stepped =>
      step statuses next node held admitted stepped) admitted hash kept

/-- Automerge applies any of the changes of a history. -/
def Applies (A : Automerge E) (nodes : List (ChangeNode E)) : Prop :=
  ∀ changes : List (Change E), (∀ change ∈ changes, ∃ node ∈ nodes, node.change = change) →
    (changes.map Change.hash).Nodup → ∃ document, A.build changes = some document

theorem exists_buildAuthorizedProjection (wellRead : WellRead P history)
    (applies : Applies A history.nodes) (ranked : Ranked history statuses) :
    ∃ document, buildAuthorizedProjection A history.nodes statuses = .ok document := by
  obtain ⟨rank, rises⟩ := ranked
  have members : ∀ hash ∈ admittedHashes history.nodes statuses,
      ∃ node ∈ history.nodes, node.hash = hash :=
    fun hash held => mem_hashes.mp (mem_admittedHashes.mp held).1
  have acyclic : ¬ Layers.Cyclic ChangeNode.hash ChangeNode.dependencies
      (admittedHashes history.nodes statuses) history.nodes := by
    apply Layers.acyclic_of_rank rank
    rintro _ dep ⟨admitted, _, node, held, rfl, needs⟩
    exact rises node held (mem_admittedHashes.mp admitted).2 dep needs
  obtain ⟨ordered, layered⟩ := Layers.order_total strKey strKey_injective wellRead.distinct
    "Authorized workspace change dependencies are cyclic" members acyclic
  obtain ⟨unique, inside⟩ := Layers.order_ok strKey strKey_injective wellRead.distinct layered
  have found : ∀ hash ∈ ordered, ∃ change,
      (history.nodes.find? fun node => node.hash = hash).map ChangeNode.change = some change ∧
        change.hash = hash := by
    intro hash held
    obtain ⟨node, inHistory, rfl⟩ := members hash ((inside hash).mp held)
    refine ⟨node.change, by rw [find_node wellRead.distinct inHistory]; rfl, ?_⟩
    rw [wellRead.read node inHistory]
    rfl
  obtain ⟨document, built⟩ := applies (ordered.filterMap fun hash =>
      (history.nodes.find? fun node => node.hash = hash).map ChangeNode.change) (by
    intro change held
    obtain ⟨hash, _, located⟩ := List.mem_filterMap.mp held
    obtain ⟨node, first, same⟩ := Option.map_eq_some_iff.mp located
    exact ⟨node, List.mem_of_find?_eq_some first, same⟩) (by
    rw [map_hash_filterMap found]
    exact unique)
  exact ⟨document, bind_ok.mpr ⟨ordered, layered, okOr_ok.mpr built⟩⟩

/-- The verdicts under other evidence uphold a plan: what it admits is admitted and does
what it did, nothing is moved by an automation, and where an admitted change replaced the
entities map, no change outside the plan creates sources. -/
structure Upholds (checks : ScopeChecks A) (history : CausalHistory A) (evidence more : Evidence)
    (plan : CausalAdmissionPlan) : Prop where
  admitted : ∀ node ∈ history.nodes, plan.Admits node.hash →
    (ownVerdict checks history more node).status.isAdmitted = true ∧
      (ownVerdict checks history more node).creation =
        (ownVerdict checks history evidence node).creation ∧
      (ownVerdict checks history more node).rebinding =
        (ownVerdict checks history evidence node).rebinding
  unmoved : ∀ node ∈ history.nodes, (ownVerdict checks history more node).effect = none
  apart : ∀ node ∈ history.nodes, ∀ other ∈ history.nodes, plan.Admits node.hash →
    (ownVerdict checks history evidence node).rebinding ≠ none → ¬ plan.Admits other.hash →
    (ownVerdict checks history more other).creation = none

section

variable (upholds : Upholds checks history evidence more plan) (root : RootBasis history)
  (planned : Planned checks history evidence plan statuses)

include upholds root planned

theorem Upholds.resolve_admits (distinct : history.hashes.Nodup) {hash : String}
    (admits : plan.Admits hash) :
    (resolve checks history more).statuses.isAdmitted hash = true := by
  obtain ⟨rank, rises⟩ := (@resolve_settled _ _ checks evidence history distinct root).ranked
  have settled := @resolve_settled _ _ checks more history distinct root
  -- along the dependencies, which rank lower
  have climb : ∀ n hash, rank hash < n → plan.Admits hash →
      (resolve checks history more).statuses.isAdmitted hash = true := by
    intro n
    induction n with
    | zero => omega
    | succ n ih =>
      intro hash below admits
      have admitted := planned.admits_iff.mp admits
      obtain ⟨role, found⟩ := isAdmitted_iff.mp admitted
      obtain ⟨node, held, rfl⟩ := mem_hashes.mp ((planned.narrows.keys hash).mp (by simp [found]))
      have before : (resolve checks history evidence).statuses.isAdmitted node.hash = true :=
        isAdmitted_iff.mpr ⟨role, planned.narrows.admitted _ _ found⟩
      refine settled.admitted_of_deps held (fun dep needs => ?_)
        (upholds.admitted node held admits).1
      have lower := rises node held before dep needs
      exact ih dep (by omega) (planned.admits_iff.mpr (planned.closed node held admitted dep needs))
  exact climb _ hash (Nat.lt_succ_self _) admits

/-- What the plan admits has no conflict under the other evidence either. -/
theorem Upholds.admits_without_conflicts (distinct : history.hashes.Nodup)
    (noBasis : history.trustedBasisHash = none) (clear : ∀ hash, plan.Admits hash →
      (clearStatuses checks history evidence).isAdmitted hash = true) {hash : String}
    (admits : plan.Admits hash) : (clearStatuses checks history more).isAdmitted hash = true := by
  have settled := @resolve_settled _ _ checks evidence history distinct root
  have settled' := @resolve_settled _ _ checks more history distinct root
  have notBasis : ∀ hash : String, some hash ≠ history.trustedBasisHash := by
    rw [noBasis]
    exact Option.some_ne_none
  -- what is noted about an admitted change is the same
  have same : ∀ hash, plan.Admits hash →
      (resolve checks history more).applicationSourceCreations.lookup hash =
          (resolve checks history evidence).applicationSourceCreations.lookup hash ∧
        (resolve checks history more).entitiesMapRebindings.lookup hash =
          (resolve checks history evidence).entitiesMapRebindings.lookup hash := by
    intro hash admits
    have before := (isAdmitted_statusesWithoutConflicts.mp (clear hash admits)).1
    obtain ⟨node, held, rfl⟩ := mem_hashes.mp
      ((settled.resolved.keys hash).mp (Option.isSome_of_any before))
    obtain ⟨_, creation, rebinding⟩ := upholds.admitted node held admits
    obtain ⟨_, found⟩ := isAdmitted_iff.mp before
    obtain ⟨_, found'⟩ :=
      isAdmitted_iff.mp (upholds.resolve_admits root planned distinct admits)
    have notes := (settled.resolved.judged held (notBasis _) found).2.2
    have notes' := (settled'.resolved.judged held (notBasis _) found').2.2
    simp only [Resolution.notes, Verdict.notes, Prod.mk.injEq] at notes notes'
    rw [notes.1, notes.2.1, notes'.1, notes'.2.1]
    exact ⟨creation, rebinding⟩
  obtain ⟨before, noCreation, noRebinding⟩ :=
    isAdmitted_statusesWithoutConflicts.mp (clear hash admits)
  refine isAdmitted_statusesWithoutConflicts.mpr
    ⟨upholds.resolve_admits root planned distinct admits, ?_, ?_⟩
  · rw [mem_conflictingCreations, (same hash admits).1, ← mem_conflictingCreations]
    exact noCreation
  · rw [mem_conflictingRebindings, (same hash admits).2]
    rintro ⟨map, bound, other, creation, created, inMap⟩
    obtain ⟨node, held, rfl, _, notes'⟩ := settled'.resolved.noted other (.inl (by simp [created]))
    by_cases admitted : plan.Admits node.hash
    · refine noRebinding (mem_conflictingRebindings.mpr
        ⟨map, bound, node.hash, creation, ?_, inMap⟩)
      rw [← (same node.hash admitted).1]
      exact created
    · obtain ⟨own, held', rfl⟩ := mem_hashes.mp
        ((settled.resolved.keys hash).mp (Option.isSome_of_any before))
      obtain ⟨_, found⟩ := isAdmitted_iff.mp before
      have notes := (settled.resolved.judged held' (notBasis _) found).2.2
      simp only [Resolution.notes, Verdict.notes, Prod.mk.injEq, bound, created] at notes notes'
      have rebinds : (ownVerdict checks history evidence own).rebinding ≠ none := by
        rw [← notes.2.1]
        exact Option.some_ne_none _
      have none := upholds.apart own held' node held admits rebinds admitted
      rw [← notes'.1] at none
      cases none

/-- Evidence that upholds a plan leads to a plan that admits as much. -/
theorem Upholds.exists_plan (wellRead : WellRead P history)
    (noBasis : history.trustedBasisHash = none) (applies : Applies A history.nodes)
    (unopposed : ∀ hash, plan.Admits hash →
      (clearStatuses checks history evidence).isAdmitted hash = true) (hasPendingBytes : Bool) :
    ∃ plan', planAdmission checks history hasPendingBytes more = .ok plan' ∧
      ∀ hash, plan.Admits hash → plan'.Admits hash := by
  have settled := @resolve_settled _ _ checks more history wellRead.distinct root
  have narrows := narrows_statusesWithoutConflicts settled.resolved
  have clear : ∀ hash, plan.Admits hash →
      (clearStatuses checks history more).isAdmitted hash = true :=
    fun hash => upholds.admits_without_conflicts root planned wellRead.distinct noBasis unopposed
  have present : ∀ hash, plan.Admits hash → hash ∈ history.hashes := fun hash admits =>
    (narrows.keys hash).mp (Option.isSome_of_any (clear hash admits))
  have builds : ∀ {final}, Narrows history (resolve checks history more).statuses final →
      ∃ document, buildAuthorizedProjection A history.nodes final = .ok document := by
    intro final inside
    obtain ⟨rank, rises⟩ := settled.ranked
    refine exists_buildAuthorizedProjection wellRead applies ⟨rank, fun node held admitted => ?_⟩
    obtain ⟨role, found⟩ := isAdmitted_iff.mp admitted
    exact rises node held (isAdmitted_iff.mpr ⟨role, inside.admitted _ _ found⟩)
  have admits_of : ∀ {final verified bytes},
      (∀ hash, plan.Admits hash → Statuses.isAdmitted final hash = true) → ∀ hash,
        plan.Admits hash → (admissionPlan history.nodes final verified bytes).Admits hash := by
    intro final verified bytes admitted hash admits
    obtain ⟨role, found⟩ := isAdmitted_iff.mp (admitted hash admits)
    exact ⟨role, mem_decisions.mpr ⟨present hash admits, found⟩⟩
  unfold planAdmission
  dsimp only
  split
  · exact ⟨_, rfl, admits_of clear⟩
  · obtain ⟨authorized, projected⟩ : ∃ authorized, firstProjection history hasPendingBytes
        (clearStatuses checks history more) = .ok authorized := by
      unfold firstProjection
      split
      · exact ⟨history.document, okOr_ok.mpr wellRead.loaded⟩
      · exact builds narrows
    have unmoved : conflictingAutomation checks (resolve checks history more)
        (clearStatuses checks history more) authorized = [] := by
      refine List.eq_nil_iff_forall_not_mem.mpr fun hash held => ?_
      obtain ⟨effect, found, _⟩ := mem_filter_entries.mp held
      obtain ⟨node, inHistory, rfl, _, notes⟩ :=
        settled.resolved.noted hash (.inr (.inr (by simp [found])))
      simp only [Resolution.notes, Verdict.notes, Prod.mk.injEq, found,
        upholds.unmoved node inHistory] at notes
      cases notes.2.2
    have kept := cascade_spec root settled.resolved narrows
    obtain ⟨document, rebuilt⟩ : ∃ document, finalProjection history authorized
        (cascade history.nodes (clearStatuses checks history more)) = .ok document := by
      unfold finalProjection
      split
      · exact ⟨authorized, rfl⟩
      · exact builds (narrows.trans kept.1)
    refine ⟨_, bind_ok.mpr ⟨authorized, projected, bind_ok.mpr ⟨document, ?_, rfl⟩⟩,
      admits_of fun hash admits => ?_⟩
    · rw [unmoved]
      exact rebuilt
    · rw [unmoved]
      refine cascade_keeps (fun node held admits dep needs => ?_) clear admits
      rw [planned.admits_iff] at admits ⊢
      exact planned.closed node held admits dep needs

end

end Upheld

end MetaMesh
