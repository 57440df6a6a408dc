import MetaMesh.CausalAdmission.Hydrated
import MetaMesh.CausalAdmission.Evidence

/-!
# Automation on a board

`automation_transition_allowed` of `causal_admission.rs`: what an automation may do to a
board in one change.  It may edit or create one card, which other cards of the columns
concerned make room for by their ranks, and under a second version grant append one
source record to that card.

`automation_confined` states what an accepted transition leaves alone.
`automation_creates_card` shows the one effect that is more than an edit.
-/

namespace MetaMesh

open Fallible

variable {V : Type} [Hydrated V]

/-! ## Reading entities -/

def isArchived (value : Option V) : Bool :=
  (scalarString value).isSome

def placementParent (m : HydratedMap V) : Option String :=
  ((getValue m "placement").bind map?).bind fun placement =>
    scalarString (getValue placement "parentId")

/-- A card: a text and a map of values. -/
def isItemMap (m : HydratedMap V) : Bool :=
  (scalarString (getValue m "body")).isSome && ((getValue m "values").bind map?).isSome

/-- Another entity is placed in this one; sources do not count. -/
def entityHasChild (entities : HydratedMap V) (id : String) : Bool :=
  entities.values.any fun entity => (map? entity.value).any fun m =>
    scalarString (getValue m "kind") ≠ some "application_source" && placementParent m = some id

def rankOnlyItem (before after : V) : Bool :=
  match map? before, map? after with
  | some before, some after =>
    isItemMap before && isItemMap after && placementParent before = placementParent after &&
      match (getValue before "placement").bind map?, (getValue after "placement").bind map? with
      | some left, some right =>
        sameMap (eraseAll ["placement"] before) (eraseAll ["placement"] after) &&
          sameMap (eraseAll ["rank"] left) (eraseAll ["rank"] right) &&
          !sameEntry (left.lookup "rank") (right.lookup "rank")
      | _, _ => false
  | _, _ => false

def applicationSourcePrefix : String := "application-source:"

def isSourceId (id : String) : Bool :=
  applicationSourcePrefix.toList.isPrefixOf id.toList

/-! ## The transition -/

section Transition

variable (P : Primitives)

/-- The column and the time of a workflow record, which is a map or its JSON text. -/
def automationWorkflowFields (value : V) : Option (String × String) := do
  let fields ← match map? value with
    | some m => do
        guard (m.keys.length = 2)
        some (← scalarString (getValue m "columnId"), ← scalarString (getValue m "changedAt"))
    | none => do
        let parsed ← (scalarString (some value)).bind P.parseJson
        match parsed with
        | .object fields => do
            guard (fields.length = 2)
            some (← (fields.lookup "columnId").bind Value.asStr?,
              ← (fields.lookup "changedAt").bind Value.asStr?)
        | _ => none
  guard (fields.1 ≠ "" ∧ fields.2 ≠ "")
  some fields

def checkAutomationSourceAppend (source : V) (cardId : String) (existingCard : Bool)
    (beforeEntities : HydratedMap V) : Except String Unit := do
  let source ← okOr (map? source) "Automation source is invalid"
  refuse (placementParent source ≠ some cardId)
    "Automation source must belong to its one affected card"
  let encoded ← okOr (scalarString (getValue source "data")) "Automation source data is missing"
  let data ← okOr (P.parseJson encoded) "Automation source data is invalid"
  let observation ← okOr (data.get? "observation") "Automation source observation is missing"
  let phase := (observation.get? "phase").bind Value.asStr?
  if existingCard = false ∧ phase = some "original" then .ok ()
  else if existingCard = true ∧ phase = some "refresh" then do
    let original ← okOr ((observation.get? "originalRecordId").bind Value.asStr?)
      "Automation refresh reference is missing"
    refuse (applicationSourcePrefix ++ original ∉ beforeEntities)
      "Automation requires an original with a new card or a refresh of a prior original"
  else .error "Automation requires an original with a new card or a refresh of a prior original"

variable (boardId : String) (archiveId : Option String) (entities : HydratedMap V)

/-- Some column of the board that is neither its archive nor archived. -/
def isBoardColumn (id : String) : Bool :=
  ((getValue entities id).bind map?).any fun m =>
    scalarString (getValue m "kind") = some "column" &&
      ((getValue m "placement").bind map?).any (fun placement =>
        scalarString (getValue placement "parentId") = some boardId) &&
      archiveId ≠ some id && !isArchived (getValue m "archivedAt")

def approvedColumns (columns : AutomationGrantColumns) : List String :=
  [columns.lead, columns.interview, columns.rejected] ++ columns.applied.toList

def checkColumn (id : String) : Except String Unit := do
  let column ← okOr (getValue entities id) "Automation column binding is missing"
  let m ← okOr (map? column) "Automation column binding is invalid"
  let placement ← okOr ((getValue m "placement").bind map?) "Automation column placement is invalid"
  refuse (isBoardColumn boardId archiveId entities id = false ∨ archiveId = some id ∨
    isArchived (getValue m "archivedAt") = true ∨ scalarString (getValue m "kind") ≠ some "column" ∨
    scalarString (getValue placement "parentId") ≠ some boardId)
    "Automation column is outside the approved board"

def checkField (fieldId : String) : Except String Unit := do
  let field ← okOr (getValue entities fieldId) "Automation field binding is missing"
  let m ← okOr (map? field) "Automation field binding is invalid"
  let placement ← okOr ((getValue m "placement").bind map?) "Automation field placement is invalid"
  refuse (scalarString (getValue m "kind") ≠ some "field" ∨
    scalarString (getValue placement "parentId") ≠ some boardId)
    "Automation field is outside the approved board"

variable (scope : AutomationGrantScope)

/-- The board with its approved columns and fields; returns its archive. -/
def checkBoard (entities : HydratedMap V) : Except String (Option String) := do
  let board ← okOr (getValue entities scope.boardId) "Automation board is missing"
  let m ← okOr (map? board) "Automation board is invalid"
  refuse (scalarString (getValue m "kind") ≠ some "board" ∨
    isArchived (getValue m "archivedAt") = true) "Automation board is invalid"
  let archiveId := scalarString (getValue m "archiveColumnId")
  (approvedColumns scope.columns).forM (checkColumn scope.boardId archiveId entities)
  scope.fieldIds.forM (checkField scope.boardId entities)
  .ok archiveId

/-- What changed, sorted: cards, cards that only changed rank, and a new source. -/
structure AutomationChanges (V : Type) where
  items : List (String × Option V × Option V)
  rankSiblings : List (V × V)
  sourceAppend : Option V

/-- Files the change of one entity. -/
def noteChange (before after : HydratedMap V) (seen : AutomationChanges V) (id : String) :
    Except String (AutomationChanges V) :=
  let left := getValue before id
  let right := getValue after id
  if sameValue left right = true then .ok seen
  else if isSourceId id = true then do
    refuse (scope.version ≠ 2 ∨ left.isSome = true ∨ seen.sourceAppend.isSome = true)
      "Automation source append requires v2 and one new immutable record"
    let source ← okOr right "Automation cannot delete application sources"
    .ok { seen with sourceAppend := some source }
  else
    match left, right with
    | some l, some r =>
      if rankOnlyItem l r = true then
        .ok { seen with rankSiblings := seen.rankSiblings ++ [(l, r)] }
      else .ok { seen with items := seen.items ++ [(id, left, right)] }
    | _, _ => .ok { seen with items := seen.items ++ [(id, left, right)] }

def automationChanges (before after : HydratedMap V) : Except String (AutomationChanges V) :=
  (sortedSet strKey strKey_injective (before.keys ++ after.keys).toFinset).foldlM
    (noteChange scope before after) ⟨[], [], none⟩

/-- The card a source alone belongs to stands in for the one that changed. -/
def candidateCards (before after : HydratedMap V) (changes : AutomationChanges V) :
    Except String (List (String × Option V × Option V)) :=
  match changes.items, changes.sourceAppend with
  | [], some source => do
      let cardId ← okOr ((map? source).bind placementParent) "Automation source card is missing"
      .ok [(cardId, getValue before cardId, getValue after cardId)]
  | items, _ => .ok items

/-- The only card that changes. -/
def affectedCard (before after : HydratedMap V) (changes : AutomationChanges V) :
    Except String (String × Option V × Option V) := do
  match ← candidateCards before after changes with
  | [item] => .ok item
  | _ => .error "Automation change must affect one job card"

/-- The fields of a card that its own checks look at. -/
def cardFields : List String := ["updatedAt", "lastActivityAt", "workflow", "values", "placement"]

def checkValues (before after : HydratedMap V) (allowedFields : List String) : Except String Unit :=
  match (getValue before "values").bind map?, (getValue after "values").bind map? with
  | some left, some right =>
    (left.keys ++ right.keys).forM fun key =>
      refuse (sameValue (getValue left key) (getValue right key) = false ∧ key ∉ allowedFields)
        "Automation changed an unapproved item field"
  | _, _ => refuse (sameValue (getValue before "values") (getValue after "values") = false)
      "Automation item values are invalid"

def checkPlacement (before after : HydratedMap V) : Except String Unit :=
  match (getValue before "placement").bind map?, (getValue after "placement").bind map? with
  | some left, some right =>
    refuse (sameMap (eraseAll ["rank", "parentId"] left) (eraseAll ["rank", "parentId"] right) =
      false) "Automation changed item placement metadata"
  | _, _ => refuse (sameValue (getValue before "placement") (getValue after "placement") = false)
      "Automation item placement is invalid"

/-- Only `cardFields` change, and values only where approved. -/
def checkItemDelta (before after : HydratedMap V) (allowedFields : List String) :
    Except String Unit := do
  refuse (sameMap (eraseAll cardFields before) (eraseAll cardFields after) = false)
    "Automation changed job card content outside approved fields"
  checkValues before after allowedFields
  checkPlacement before after

/-- The workflow record names the card's column. -/
def checkWorkflow (after : HydratedMap V) (parent : String) : Except String Unit :=
  (getValue after "workflow").toList.forM fun workflow => do
    let fields ← okOr (automationWorkflowFields P workflow) "Automation workflow is invalid"
    refuse (fields.1 ≠ parent ∨ fields.2 = "") "Automation workflow does not match card placement"

def checkWorkflowChange (before after : HydratedMap V) (oldParent afterParent : String) :
    Except String Unit :=
  if sameValue (getValue before "workflow") (getValue after "workflow") = true then .ok ()
  else do
    refuse (oldParent = afterParent) "Automation cannot change workflow without moving the card"
    checkWorkflow P after afterParent

/-- An edited card; returns the column it was in. -/
def checkEditedCard (archiveId : Option String) (beforeEntities afterEntities : HydratedMap V)
    (itemId : String) (beforeItem : V) (after : HydratedMap V) (afterParent : String)
    (appends : Bool) : Except String String := do
  let before ← okOr (map? beforeItem) "Automation item base is invalid"
  let oldParent ← okOr (placementParent before) "Automation item base placement is invalid"
  refuse (isItemMap before = false ∨ entityHasChild beforeEntities itemId = true ∨
    isArchived (getValue before "archivedAt") = true ∨
    isArchived (getValue after "archivedAt") = true ∨ archiveId = some oldParent ∨
    isBoardColumn scope.boardId archiveId afterEntities oldParent = false)
    "Automation can change only active leaf cards on the approved board"
  refuse (oldParent ≠ afterParent ∧ afterParent ≠ scope.columns.interview ∧
    afterParent ≠ scope.columns.rejected ∧ scope.columns.applied ≠ some afterParent)
    "Automation can move cards only to approved application columns"
  checkItemDelta before after scope.fieldIds
  refuse (oldParent = afterParent ∧
    sameValue (getValue before "values") (getValue after "values") = true ∧ appends = false)
    "Automation change has no approved card effect"
  checkWorkflowChange P before after oldParent afterParent
  .ok oldParent

def permittedKeys : List String :=
  ["id", "title", "body", "values", "placement", "archivedAt", "createdAt", "updatedAt",
    "lastActivityAt", "workflow", "lifecycle"]

/-- A new card; the column it came from counts as the lead column. -/
def checkNewCard (after : HydratedMap V) (afterParent : String) : Except String String := do
  refuse (afterParent ≠ scope.columns.lead ∧ scope.columns.applied ≠ some afterParent)
    "Automation can create cards only in Lead or an explicitly approved Applied column"
  refuse (isArchived (getValue after "archivedAt") = true) "Automation can create only active cards"
  refuse (∃ key ∈ after.keys, key ∉ permittedKeys) "Automation item contains unexpected properties"
  let values ← okOr (getValue after "values") "Automation item values are missing"
  let values ← okOr (map? values) "Automation item values are invalid"
  refuse (∃ field ∈ values.keys, field ∉ scope.fieldIds) "Automation item uses an unapproved field"
  checkWorkflow P after afterParent
  .ok scope.columns.lead

/-- The checks of the one card; returns the column it came from. -/
def checkCard (archiveId : Option String) (beforeEntities afterEntities : HydratedMap V)
    (itemId : String) (beforeItem : Option V) (after : HydratedMap V) (afterParent : String)
    (appends : Bool) : Except String String :=
  match beforeItem with
  | some beforeItem =>
    checkEditedCard P scope archiveId beforeEntities afterEntities itemId beforeItem after
      afterParent appends
  | none => checkNewCard P scope after afterParent

def checkSibling (sourceParent afterParent : String) (sibling : V × V) : Except String Unit := do
  let parent ← okOr ((map? sibling.1).bind placementParent)
    "Automation sibling placement is invalid"
  refuse ((parent ≠ sourceParent ∧ parent ≠ afterParent) ∨
    isBoardColumn boardId archiveId entities parent = false)
    "Automation rank changes exceed the affected board columns"

/-- The transition of the entities, once the rest of the root is known to be the same. -/
def checkEntities (before after : HydratedMap V) : Except String AutomationEffect := do
  let archiveId ← checkBoard scope after
  let changes ← automationChanges scope before after
  let (itemId, beforeItem, afterItem) ← affectedCard before after changes
  let afterItem ← okOr afterItem "Automation cannot delete job cards"
  let afterMap ← okOr (map? afterItem) "Automation item is invalid"
  refuse (isItemMap afterMap = false ∨ entityHasChild after itemId = true)
    "Automation can change only leaf job cards"
  refuse (scalarString (getValue afterMap "id") ≠ some itemId)
    "Automation item ID does not match its entity key"
  changes.sourceAppend.toList.forM fun source =>
    checkAutomationSourceAppend P source itemId beforeItem.isSome before
  let afterParent ← okOr (placementParent afterMap) "Automation item placement is invalid"
  let sourceParent ← checkCard P scope archiveId before after itemId beforeItem afterMap afterParent
    changes.sourceAppend.isSome
  changes.rankSiblings.forM (checkSibling scope.boardId archiveId after sourceParent afterParent)
  .ok ⟨itemId, beforeItem.isSome && sourceParent ≠ afterParent⟩

/-- Only entities change, and those as the grant allows. -/
def automationTransitionAllowed (before after : V) (scope : AutomationGrantScope) :
    Except String AutomationEffect :=
  match map? before, map? after with
  | some leftRoot, some rightRoot =>
    match (getValue leftRoot "entities").bind map?, (getValue rightRoot "entities").bind map? with
    | some left, some right => do
        refuse (sameMap (eraseAll ["entities"] leftRoot) (eraseAll ["entities"] rightRoot) =
          false) "Automation cannot change workspace settings or schema"
        checkEntities P scope left right
    | _, _ => .error "Automation entity map is missing"
  | _, _ => .error "Automation workspace root is invalid"

end Transition

/-! ## What a transition may touch -/

def entityMap (entities : HydratedMap V) (id : String) : Option (HydratedMap V) :=
  (getValue entities id).bind map?

variable (P : Primitives) (scope : AutomationGrantScope)

/-- The archive column of the board a grant is for. -/
def boardArchive (entities : HydratedMap V) : Option String :=
  (entityMap entities scope.boardId).bind fun m => scalarString (getValue m "archiveColumnId")

variable (columns : List String) (before after : HydratedMap V) (id : String)

/-- The column a card was in, which for a new card is the lead column, and the one it is
in now. -/
def affectedColumns : List String :=
  ((entityMap before id).elim (some scope.columns.lead) placementParent).toList ++
    ((entityMap after id).bind placementParent).toList

/-- A workflow record of a card, if it has one, names the column that the card is in. -/
def WorkflowNames (new : HydratedMap V) : Prop :=
  ∀ workflow, getValue new "workflow" = some workflow →
    ∃ column changedAt, automationWorkflowFields P workflow = some (column, changedAt) ∧
      changedAt ≠ "" ∧ placementParent new = some column

/-- The card was there, an unarchived leaf; only granted fields, its place and its
activity changed, and its workflow record only as it moved. -/
structure EditsCard (old new : HydratedMap V) : Prop where
  was : entityMap before id = some old
  item : isItemMap old = true
  leaf : entityHasChild before id = false
  active : isArchived (getValue old "archivedAt") = false
  content : SameExcept cardFields old new
  values : ∃ left right, (getValue old "values").bind map? = some left ∧
    (getValue new "values").bind map? = some right ∧
    ∀ field, field ∉ scope.fieldIds → sameValue (getValue left field) (getValue right field) = true
  placement : ∃ left right, (getValue old "placement").bind map? = some left ∧
    (getValue new "placement").bind map? = some right ∧ SameExcept ["rank", "parentId"] left right
  column : placementParent new = placementParent old ∨
    ∃ c ∈ [scope.columns.interview, scope.columns.rejected] ++ scope.columns.applied.toList,
      placementParent new = some c
  workflow : sameValue (getValue old "workflow") (getValue new "workflow") = true ∨
    placementParent new ≠ placementParent old ∧ WorkflowNames P new

/-- The card is new, in a column for new cards, with no field that was not granted. -/
structure CreatesCard (new : HydratedMap V) : Prop where
  fresh : getValue before id = none
  keys : ∀ key ∈ new.keys, key ∈ permittedKeys
  values : ∃ fields, (getValue new "values").bind map? = some fields ∧
    ∀ field ∈ fields.keys, field ∈ scope.fieldIds
  column : ∃ c ∈ [scope.columns.lead] ++ scope.columns.applied.toList,
    placementParent new = some c
  workflow : WorkflowNames P new

/-- A card of one of these columns, of which nothing but the rank changed. -/
def ChangesRank : Prop :=
  ∃ old new left right, entityMap before id = some old ∧ entityMap after id = some new ∧
    isItemMap old = true ∧ SameExcept ["placement"] old new ∧
    (getValue old "placement").bind map? = some left ∧
    (getValue new "placement").bind map? = some right ∧ SameExcept ["rank"] left right ∧
    ∃ c ∈ columns, placementParent old = some c ∧ placementParent new = some c

/-- A source record that was not there. -/
def AppendsSource : Prop :=
  isSourceId id = true ∧ getValue before id = none ∧ (getValue after id).isSome = true

/-- The entities changed at one leaf card, at the ranks of cards in its columns, and by at
most one source. -/
structure Confined : Prop where
  card : ∃ new, entityMap after id = some new ∧ isItemMap new = true ∧
    entityHasChild after id = false ∧ isArchived (getValue new "archivedAt") = false ∧
    scalarString (getValue new "id") = some id ∧
    ((∃ old, EditsCard P scope before id old new) ∨ CreatesCard P scope before id new)
  columns : ∀ c ∈ affectedColumns scope before after id,
    isBoardColumn scope.boardId (boardArchive scope after) after c = true
  others : ∀ other, other ≠ id → sameValue (getValue before other) (getValue after other) = true ∨
    ChangesRank (affectedColumns scope before after id) before after other ∨
    scope.version = 2 ∧ AppendsSource before after other
  oneSource : ∀ a b, AppendsSource before after a → AppendsSource before after b → a = b
  kept : ∀ other, (getValue before other).isSome = true → (getValue after other).isSome = true

/-! ### Reading the checks back -/

theorem not_refused {b : Bool} (passed : ¬ b = false) : b = true :=
  Bool.not_eq_false b ▸ passed

variable {archiveId : Option String} {entities : HydratedMap V} {boardId : String}
  {columns before after id}

theorem checkColumn_isBoardColumn (passed : checkColumn boardId archiveId entities id = .ok ()) :
    isBoardColumn boardId archiveId entities id = true := by
  obtain ⟨_, _, passed⟩ := bind_ok.mp passed
  obtain ⟨_, _, passed⟩ := bind_ok.mp passed
  obtain ⟨_, _, passed⟩ := bind_ok.mp passed
  exact not_refused fun missing => refuse_ok.mp passed (.inl missing)

variable {P scope} {m old new left right : HydratedMap V}

theorem checkBoard_sound (passed : checkBoard scope entities = .ok archiveId) :
    archiveId = boardArchive scope entities ∧ ∀ c ∈ approvedColumns scope.columns,
      isBoardColumn scope.boardId archiveId entities c = true := by
  obtain ⟨board, found, passed⟩ := bind_ok.mp passed
  obtain ⟨m, isMap, passed⟩ := bind_ok.mp passed
  obtain ⟨_, passed⟩ := refuse_bind_ok.mp passed
  obtain ⟨⟨⟩, columns, passed⟩ := bind_ok.mp passed
  obtain ⟨⟨⟩, _, passed⟩ := bind_ok.mp passed
  obtain rfl := Except.ok.inj passed
  have archive : boardArchive scope entities = scalarString (getValue m "archiveColumnId") := by
    unfold boardArchive entityMap
    rw [okOr_ok.mp found, Option.bind_some, okOr_ok.mp isMap, Option.bind_some]
  rw [archive]
  exact ⟨rfl, fun c approved => checkColumn_isBoardColumn (forM_ok.mp columns c approved)⟩

theorem exists_placement {parent : String} (placed : placementParent m = some parent) :
    ∃ placement, (getValue m "placement").bind map? = some placement := by
  obtain ⟨placement, found, _⟩ := Option.bind_eq_some_iff.mp placed
  exact ⟨placement, found⟩

theorem exists_values (item : isItemMap m = true) :
    ∃ values, (getValue m "values").bind map? = some values :=
  Option.isSome_iff_exists.mp (Bool.and_eq_true_iff.mp item).2

/-- Nothing but the rank differs. -/
theorem rankOnlyItem_sound {before after : V} (ranked : rankOnlyItem before after = true) :
    ∃ old new left right, map? before = some old ∧ map? after = some new ∧ isItemMap old = true ∧
      placementParent old = placementParent new ∧ SameExcept ["placement"] old new ∧
      (getValue old "placement").bind map? = some left ∧
      (getValue new "placement").bind map? = some right ∧ SameExcept ["rank"] left right := by
  unfold rankOnlyItem at ranked
  split at ranked
  · next old new isOld isNew =>
    rw [Bool.and_eq_true, Bool.and_eq_true, Bool.and_eq_true] at ranked
    obtain ⟨⟨⟨item, _⟩, parents⟩, ranked⟩ := ranked
    split at ranked
    · next left right isLeft isRight =>
      rw [Bool.and_eq_true, Bool.and_eq_true] at ranked
      exact ⟨old, new, left, right, isOld, isNew, item, of_decide_eq_true parents,
        sameMap_eraseAll.mp ranked.1.1, isLeft, isRight, sameMap_eraseAll.mp ranked.1.2⟩
    · cases ranked
  · cases ranked

theorem checkValues_sound {allowed : List String}
    (isLeft : (getValue old "values").bind map? = some left)
    (isRight : (getValue new "values").bind map? = some right)
    (passed : checkValues old new allowed = .ok ()) {field : String} (refused : field ∉ allowed) :
    sameValue (getValue left field) (getValue right field) = true := by
  unfold checkValues at passed
  rw [isLeft, isRight] at passed
  by_cases held : field ∈ left.keys ++ right.keys
  · have checked := refuse_ok.mp (forM_ok.mp passed field held)
    exact not_refused fun differs => checked ⟨differs, refused⟩
  · rw [List.mem_append, not_or] at held
    unfold getValue
    rw [AList.lookup_eq_none.mpr held.1, AList.lookup_eq_none.mpr held.2]
    rfl

theorem checkPlacement_sound (isLeft : (getValue old "placement").bind map? = some left)
    (isRight : (getValue new "placement").bind map? = some right)
    (passed : checkPlacement old new = .ok ()) : SameExcept ["rank", "parentId"] left right := by
  unfold checkPlacement at passed
  rw [isLeft, isRight] at passed
  exact sameMap_eraseAll.mp (not_refused (refuse_ok.mp passed))

/-! ### Sorting the changes -/

variable (scope before after) in
/-- What the loop over the entities has recorded of those it has seen. -/
structure Noted (seen : List String) (changes : AutomationChanges V) : Prop where
  sorted : ∀ id ∈ seen, sameValue (getValue before id) (getValue after id) = true ∨
    scope.version = 2 ∧ AppendsSource before after id ∨
    (∃ l r, getValue before id = some l ∧ getValue after id = some r ∧
      rankOnlyItem l r = true ∧ (l, r) ∈ changes.rankSiblings) ∨
    (id, getValue before id, getValue after id) ∈ changes.items
  items : ∀ item ∈ changes.items, item = (item.1, getValue before item.1, getValue after item.1)
  noSource : changes.sourceAppend = none → ∀ id ∈ seen, ¬ AppendsSource before after id
  oneSource : ∀ a ∈ seen, ∀ b ∈ seen, AppendsSource before after a →
    AppendsSource before after b → a = b

theorem not_appends_of_same (same : sameValue (getValue before id) (getValue after id) = true) :
    ¬ AppendsSource before after id := by
  rintro ⟨_, fresh, there⟩
  rw [← isSome_of_sameValue same, fresh] at there
  cases there

variable {changes : AutomationChanges V} {next : AutomationChanges V} {seen : List String}

theorem noteChange_cases (noted : noteChange scope before after changes id = .ok next) :
    (sameValue (getValue before id) (getValue after id) = true ∧ next = changes) ∨
    ((scope.version = 2 ∧ AppendsSource before after id ∧ changes.sourceAppend = none) ∧
      ∃ source, next = { changes with sourceAppend := some source }) ∨
    (isSourceId id = false ∧ ∃ l r, getValue before id = some l ∧ getValue after id = some r ∧
      rankOnlyItem l r = true ∧
      next = { changes with rankSiblings := changes.rankSiblings ++ [(l, r)] }) ∨
    (isSourceId id = false ∧ next = { changes with
      items := changes.items ++ [(id, getValue before id, getValue after id)] }) := by
  unfold noteChange at noted
  by_cases same : sameValue (getValue before id) (getValue after id) = true
  · rw [if_pos same] at noted
    exact .inl ⟨same, (Except.ok.inj noted).symm⟩
  · rw [if_neg same] at noted
    by_cases source : isSourceId id = true
    · rw [if_pos source] at noted
      obtain ⟨accepted, noted⟩ := refuse_bind_ok.mp noted
      obtain ⟨value, there, noted⟩ := bind_ok.mp noted
      rw [not_or, not_or, not_not, Bool.not_eq_true, Option.isSome_eq_false_iff,
        Bool.not_eq_true, Option.isSome_eq_false_iff] at accepted
      obtain ⟨version, fresh, first⟩ := accepted
      refine .inr (.inl ⟨⟨version, ⟨source, Option.isNone_iff_eq_none.mp fresh, ?_⟩,
        Option.isNone_iff_eq_none.mp first⟩, value, (Except.ok.inj noted).symm⟩)
      rw [okOr_ok.mp there]
      rfl
    · rw [if_neg source] at noted
      rw [Bool.not_eq_true] at source
      refine .inr (.inr ?_)
      split at noted
      · next l r isLeft isRight =>
        split at noted
        · next ranked =>
          exact .inl ⟨source, l, r, isLeft, isRight, ranked, (Except.ok.inj noted).symm⟩
        · exact .inr ⟨source, (Except.ok.inj noted).symm⟩
      · exact .inr ⟨source, (Except.ok.inj noted).symm⟩

theorem Noted.step (noted : Noted scope before after seen changes)
    (stepped : noteChange scope before after changes id = .ok next) :
    Noted scope before after (seen ++ [id]) next := by
  -- entities that are no new source leave the two facts about sources as they were
  have quiet : ¬ AppendsSource before after id → next.sourceAppend = changes.sourceAppend →
      (next.sourceAppend = none → ∀ a ∈ seen ++ [id], ¬ AppendsSource before after a) ∧
      ∀ a ∈ seen ++ [id], ∀ b ∈ seen ++ [id], AppendsSource before after a →
        AppendsSource before after b → a = b := by
    intro none same
    have earlier : ∀ a ∈ seen ++ [id], AppendsSource before after a → a ∈ seen := by
      intro a held appends
      rcases List.mem_append.mp held with early | last
      · exact early
      · exact absurd (List.mem_singleton.mp last ▸ appends) none
    refine ⟨fun empty a held appends =>
      noted.noSource (same ▸ empty) a (earlier a held appends) appends, ?_⟩
    intro a heldA b heldB appendsA appendsB
    exact noted.oneSource a (earlier a heldA appendsA) b (earlier b heldB appendsB)
      appendsA appendsB
  rcases noteChange_cases stepped with ⟨same, rfl⟩ | ⟨⟨version, appends, first⟩, source, rfl⟩ |
    ⟨other, l, r, isLeft, isRight, ranked, rfl⟩ | ⟨other, rfl⟩
  · obtain ⟨noSource, oneSource⟩ := quiet (not_appends_of_same same) rfl
    refine ⟨?_, noted.items, noSource, oneSource⟩
    rw [List.forall_mem_append, List.forall_mem_singleton]
    exact ⟨noted.sorted, .inl same⟩
  · have alone : ∀ a ∈ seen ++ [id], AppendsSource before after a → a = id := by
      intro a held appendsA
      rcases List.mem_append.mp held with early | last
      · exact absurd appendsA (noted.noSource first a early)
      · exact List.mem_singleton.mp last
    refine ⟨?_, noted.items, nofun, ?_⟩
    · rw [List.forall_mem_append, List.forall_mem_singleton]
      exact ⟨noted.sorted, .inr (.inl ⟨version, appends⟩)⟩
    · intro a heldA b heldB appendsA appendsB
      rw [alone a heldA appendsA, alone b heldB appendsB]
  · obtain ⟨noSource, oneSource⟩ := quiet (fun appends => by simp [appends.1] at other) rfl
    refine ⟨?_, noted.items, noSource, oneSource⟩
    rw [List.forall_mem_append, List.forall_mem_singleton]
    refine ⟨fun a early => ?_, .inr (.inr (.inl ⟨l, r, isLeft, isRight, ranked, by simp⟩))⟩
    refine (noted.sorted a early).imp_right (Or.imp_right (Or.imp_left ?_))
    rintro ⟨l', r', isLeft', isRight', ranked', held⟩
    exact ⟨l', r', isLeft', isRight', ranked', List.mem_append_left _ held⟩
  · obtain ⟨noSource, oneSource⟩ := quiet (fun appends => by simp [appends.1] at other) rfl
    refine ⟨?_, ?_, noSource, oneSource⟩
    · rw [List.forall_mem_append, List.forall_mem_singleton]
      refine ⟨fun a early => ?_, .inr (.inr (.inr (by simp)))⟩
      exact (noted.sorted a early).imp_right (Or.imp_right (Or.imp_right (List.mem_append_left _)))
    · rw [List.forall_mem_append, List.forall_mem_singleton]
      exact ⟨noted.items, rfl⟩

theorem automationChanges_noted (ran : automationChanges scope before after = .ok changes) :
    Noted scope before after
      (sortedSet strKey strKey_injective (before.keys ++ after.keys).toFinset) changes := by
  refine foldlM_invariant ran (Noted scope before after) ⟨nofun, nofun, nofun, nofun⟩ ?_
  intro seen id rest changes next _ noted stepped
  exact noted.step stepped

/-- An entity on neither side is no entity that changed. -/
theorem mem_ids_of_differs (differs : ¬ sameValue (getValue before id) (getValue after id) = true) :
    id ∈ sortedSet strKey strKey_injective (before.keys ++ after.keys).toFinset := by
  rw [mem_sortedSet, List.mem_toFinset]
  by_contra outside
  rw [List.mem_append, not_or] at outside
  refine differs ?_
  unfold getValue
  rw [AList.lookup_eq_none.mpr outside.1, AList.lookup_eq_none.mpr outside.2]
  rfl

/-- The one card is read from both documents, and no other item changed. -/
theorem affectedCard_sound {card : String × Option V × Option V}
    (noted : Noted scope before after seen changes)
    (found : affectedCard before after changes = .ok card) :
    card = (card.1, getValue before card.1, getValue after card.1) ∧
      ∀ item ∈ changes.items, item = card := by
  obtain ⟨items, candidates, found⟩ := bind_ok.mp found
  have single : items = [card] := by
    split at found
    · exact Except.ok.inj found ▸ rfl
    · cases found
  subst single
  unfold candidateCards at candidates
  split at candidates
  · next source none _ =>
    obtain ⟨cardId, _, candidates⟩ := bind_ok.mp candidates
    obtain rfl := List.singleton_inj.mp (Except.ok.inj candidates)
    exact ⟨rfl, by simp [none]⟩
  · have same : changes.items = [card] := Except.ok.inj candidates
    rw [same]
    exact ⟨noted.items card (by simp [same]), by simp⟩

/-! ### The card -/

section Card

variable {P : Primitives} {scope : AutomationGrantScope} {archiveId : Option String}
  {before after : HydratedMap V} {id : String} {new : HydratedMap V}
  {afterParent sourceParent : String}
  {appends : Bool}

variable (P scope archiveId before after id new afterParent sourceParent) in
/-- What the checks of the one card establish: what was done to it, and that the columns it
came from and went to are on the board. -/
structure CardChecked : Prop where
  effect : (∃ old, EditsCard P scope before id old new) ∨ CreatesCard P scope before id new
  active : isArchived (getValue new "archivedAt") = false
  source : (entityMap before id).elim (some scope.columns.lead) placementParent = some sourceParent
  sourceColumn : isBoardColumn scope.boardId archiveId after sourceParent = true
  column : isBoardColumn scope.boardId archiveId after afterParent = true

variable (placed : placementParent new = some afterParent)
  (approved : ∀ c ∈ approvedColumns scope.columns,
    isBoardColumn scope.boardId archiveId after c = true)

include placed in
theorem checkWorkflow_sound (passed : checkWorkflow P new afterParent = .ok ()) :
    WorkflowNames P new := by
  intro workflow present
  have checked := forM_ok.mp passed workflow (Option.mem_toList.mpr present)
  obtain ⟨⟨column, changedAt⟩, read, matched⟩ := bind_ok.mp checked
  have agrees := refuse_ok.mp matched
  rw [not_or, not_not] at agrees
  exact ⟨column, changedAt, okOr_ok.mp read, agrees.2, placed.trans (congrArg some agrees.1.symm)⟩

include placed approved

theorem checkEditedCard_sound {item : V} (was : getValue before id = some item)
    (isItem : isItemMap new = true)
    (passed : checkEditedCard P scope archiveId before after id item new afterParent appends =
      .ok sourceParent) :
    CardChecked P scope archiveId before after id new afterParent sourceParent := by
  obtain ⟨old, isMap, passed⟩ := bind_ok.mp passed
  obtain ⟨oldParent, wasPlaced, passed⟩ := bind_ok.mp passed
  obtain ⟨leafCard, passed⟩ := refuse_bind_ok.mp passed
  obtain ⟨moves, passed⟩ := refuse_bind_ok.mp passed
  obtain ⟨⟨⟩, delta, passed⟩ := bind_ok.mp passed
  obtain ⟨_, passed⟩ := refuse_bind_ok.mp passed
  obtain ⟨⟨⟩, workflow, passed⟩ := bind_ok.mp passed
  obtain rfl := Except.ok.inj passed
  rw [okOr_ok] at isMap wasPlaced
  obtain ⟨content, delta⟩ := refuse_bind_ok.mp delta
  obtain ⟨⟨⟩, values, placement⟩ := bind_ok.mp delta
  simp only [not_or, Bool.not_eq_true, Bool.not_eq_false] at leafCard
  obtain ⟨wasItem, leaf, active, activeNow, _, onBoard⟩ := leafCard
  have found : entityMap before id = some old := by
    unfold entityMap
    rw [was, Option.bind_some, isMap]
  have moved : afterParent = oldParent ∨
      afterParent ∈ [scope.columns.interview, scope.columns.rejected] ++
        scope.columns.applied.toList := by
    by_contra outside
    rw [not_or] at outside
    refine moves ⟨Ne.symm outside.1, ?_⟩
    simpa [not_or, eq_comm] using outside.2
  refine ⟨.inl ⟨old, found, wasItem, leaf, active,
    sameMap_eraseAll.mp (not_refused content), ?_, ?_, ?_, ?_⟩, activeNow, ?_, onBoard, ?_⟩
  · obtain ⟨left, isLeft⟩ := exists_values wasItem
    obtain ⟨right, isRight⟩ := exists_values isItem
    exact ⟨left, right, isLeft, isRight, fun field refused =>
      checkValues_sound isLeft isRight values refused⟩
  · obtain ⟨left, isLeft⟩ := exists_placement wasPlaced
    obtain ⟨right, isRight⟩ := exists_placement placed
    exact ⟨left, right, isLeft, isRight, checkPlacement_sound isLeft isRight placement⟩
  · rcases moved with rfl | granted
    · exact .inl (placed.trans wasPlaced.symm)
    · exact .inr ⟨afterParent, granted, placed⟩
  · unfold checkWorkflowChange at workflow
    split at workflow
    · next same => exact .inl same
    · obtain ⟨apart, named⟩ := refuse_bind_ok.mp workflow
      refine .inr ⟨?_, checkWorkflow_sound placed named⟩
      rw [placed, wasPlaced]
      exact fun same => apart (Option.some.inj same).symm
  · rw [found]
    exact wasPlaced
  · rcases moved with rfl | granted
    · exact onBoard
    · exact approved afterParent (List.mem_cons_of_mem _ granted)

theorem checkNewCard_sound (fresh : getValue before id = none)
    (passed : checkNewCard P scope new afterParent = .ok sourceParent) :
    CardChecked P scope archiveId before after id new afterParent sourceParent := by
  obtain ⟨column, passed⟩ := refuse_bind_ok.mp passed
  obtain ⟨active, passed⟩ := refuse_bind_ok.mp passed
  obtain ⟨keys, passed⟩ := refuse_bind_ok.mp passed
  obtain ⟨value, isValue, passed⟩ := bind_ok.mp passed
  obtain ⟨fields, isMap, passed⟩ := bind_ok.mp passed
  obtain ⟨granted, passed⟩ := refuse_bind_ok.mp passed
  obtain ⟨⟨⟩, workflow, passed⟩ := bind_ok.mp passed
  obtain rfl := Except.ok.inj passed
  rw [okOr_ok] at isValue isMap
  have into : afterParent ∈ [scope.columns.lead] ++ scope.columns.applied.toList := by
    by_contra outside
    refine column ?_
    simpa [not_or, eq_comm] using outside
  refine ⟨.inr ⟨fresh, ?_, ⟨fields, ?_, ?_⟩, ⟨afterParent, into, placed⟩,
    checkWorkflow_sound placed workflow⟩, Bool.not_eq_true _ ▸ active, ?_, ?_, ?_⟩
  · intro key held
    by_contra refused
    exact keys ⟨key, held, refused⟩
  · rw [isValue, Option.bind_some, isMap]
  · intro field held
    by_contra refused
    exact granted ⟨field, held, refused⟩
  · unfold entityMap
    rw [fresh]
    rfl
  · exact approved _ (by simp [approvedColumns])
  · refine approved afterParent ?_
    simp only [approvedColumns, List.mem_append, List.mem_cons, List.not_mem_nil, or_false]
      at into ⊢
    exact into.imp .inl fun applied => applied

theorem checkCard_sound (isItem : isItemMap new = true)
    (passed : checkCard P scope archiveId before after id (getValue before id) new afterParent
      appends = .ok sourceParent) :
    CardChecked P scope archiveId before after id new afterParent sourceParent := by
  unfold checkCard at passed
  split at passed
  · next item was => exact checkEditedCard_sound placed approved was isItem passed
  · next fresh => exact checkNewCard_sound placed approved fresh passed

end Card

theorem checkSibling_sound {sourceParent afterParent : String} {sibling : V × V}
    (passed : checkSibling boardId archiveId entities sourceParent afterParent sibling = .ok ()) :
    ∃ parent ∈ [sourceParent, afterParent],
      (map? sibling.1).bind placementParent = some parent := by
  obtain ⟨parent, placed, passed⟩ := bind_ok.mp passed
  refine ⟨parent, ?_, okOr_ok.mp placed⟩
  by_contra outside
  refine refuse_ok.mp passed (.inl ?_)
  simpa using outside

theorem ChangesRank.of_rankOnlyItem {l r : V} (isLeft : getValue before id = some l)
    (isRight : getValue after id = some r) (ranked : rankOnlyItem l r = true)
    (parent : ∃ c ∈ columns, (map? l).bind placementParent = some c) :
    ChangesRank columns before after id := by
  obtain ⟨old, new, left, right, isOld, isNew, item, parents, content, wasPlaced, placed, ranks⟩ :=
    rankOnlyItem_sound ranked
  obtain ⟨c, held, column⟩ := parent
  rw [isOld, Option.bind_some] at column
  refine ⟨old, new, left, right, ?_, ?_, item, content, wasPlaced, placed, ranks, c, held, column,
    parents ▸ column⟩
  · unfold entityMap
    rw [isLeft, Option.bind_some, isOld]
  · unfold entityMap
    rw [isRight, Option.bind_some, isNew]

theorem ChangesRank.kept (ranks : ChangesRank columns before after id) :
    (getValue after id).isSome = true := by
  obtain ⟨_, new, _, _, _, isNew, _⟩ := ranks
  obtain ⟨value, found, _⟩ := Option.bind_eq_some_iff.mp isNew
  rw [found]
  rfl

/-! ### The whole transition -/

theorem checkEntities_confined {effect : AutomationEffect}
    (accepted : checkEntities P scope before after = .ok effect) :
    Confined P scope before after effect.itemId := by
  obtain ⟨archiveId, board, accepted⟩ := bind_ok.mp accepted
  obtain ⟨rfl, approved⟩ := checkBoard_sound board
  obtain ⟨changes, ran, accepted⟩ := bind_ok.mp accepted
  have noted := automationChanges_noted ran
  obtain ⟨⟨id, beforeItem, afterItem⟩, found, accepted⟩ := bind_ok.mp accepted
  obtain ⟨isCard, onlyCard⟩ := affectedCard_sound noted found
  obtain ⟨rfl, rfl⟩ : beforeItem = getValue before id ∧ afterItem = getValue after id := by
    simpa using isCard
  obtain ⟨item, there, accepted⟩ := bind_ok.mp accepted
  obtain ⟨new, isMap, accepted⟩ := bind_ok.mp accepted
  obtain ⟨leafCard, accepted⟩ := refuse_bind_ok.mp accepted
  obtain ⟨keyed, accepted⟩ := refuse_bind_ok.mp accepted
  obtain ⟨⟨⟩, _, accepted⟩ := bind_ok.mp accepted
  obtain ⟨afterParent, placed, accepted⟩ := bind_ok.mp accepted
  obtain ⟨sourceParent, card, accepted⟩ := bind_ok.mp accepted
  obtain ⟨⟨⟩, siblings, accepted⟩ := bind_ok.mp accepted
  obtain rfl := Except.ok.inj accepted
  rw [okOr_ok] at there isMap placed
  rw [not_or, Bool.not_eq_false, Bool.not_eq_true] at leafCard
  have isNew : entityMap after id = some new := by
    unfold entityMap
    rw [there, Option.bind_some, isMap]
  have checked := checkCard_sound placed approved leafCard.1 card
  have columns : affectedColumns scope before after id = [sourceParent, afterParent] := by
    unfold affectedColumns
    rw [checked.source, isNew, Option.bind_some, placed]
    rfl
  have others : ∀ other, other ≠ id →
      sameValue (getValue before other) (getValue after other) = true ∨
      ChangesRank (affectedColumns scope before after id) before after other ∨
      scope.version = 2 ∧ AppendsSource before after other := by
    intro other apart
    by_cases same : sameValue (getValue before other) (getValue after other) = true
    · exact .inl same
    rcases noted.sorted other (mem_ids_of_differs same) with equal | appends |
      ⟨l, r, isLeft, isRight, ranked, held⟩ | changed
    · exact .inl equal
    · exact .inr (.inr appends)
    · rw [columns]
      exact .inr (.inl (.of_rankOnlyItem isLeft isRight ranked
        (checkSibling_sound (forM_ok.mp siblings (l, r) held))))
    · exact absurd (congrArg Prod.fst (onlyCard _ changed)) apart
  refine ⟨⟨new, isNew, leafCard.1, leafCard.2, checked.active, not_not.mp keyed, checked.effect⟩,
    ?_, others, ?_, ?_⟩
  · intro c affected
    simp only [columns, List.mem_cons, List.not_mem_nil, or_false] at affected
    rcases affected with rfl | rfl
    · exact checked.sourceColumn
    · exact checked.column
  · intro a b appendsA appendsB
    exact noted.oneSource a (mem_ids_of_differs fun same => not_appends_of_same same appendsA)
      b (mem_ids_of_differs fun same => not_appends_of_same same appendsB) appendsA appendsB
  · intro other existed
    by_cases here : other = id
    · rw [here, there]
      rfl
    · rcases others other here with same | ranks | ⟨_, _, fresh, _⟩
      · rw [← isSome_of_sameValue same]
        exact existed
      · exact ranks.kept
      · rw [fresh] at existed
        cases existed

/-- An accepted transition changes one leaf card, ranks in its columns and at most one new
source, and nothing else of the document. -/
theorem automation_confined {before after : V} {scope : AutomationGrantScope}
    {effect : AutomationEffect}
    (accepted : automationTransitionAllowed P before after scope = .ok effect) :
    ∃ leftRoot rightRoot left right, map? before = some leftRoot ∧ map? after = some rightRoot ∧
      entityMap leftRoot "entities" = some left ∧ entityMap rightRoot "entities" = some right ∧
      SameExcept ["entities"] leftRoot rightRoot ∧ Confined P scope left right effect.itemId := by
  unfold automationTransitionAllowed at accepted
  split at accepted
  · next leftRoot rightRoot isLeft isRight =>
    split at accepted
    · next left right entitiesL entitiesR =>
      obtain ⟨settings, accepted⟩ := refuse_bind_ok.mp accepted
      exact ⟨leftRoot, rightRoot, left, right, isLeft, isRight, entitiesL, entitiesR,
        sameMap_eraseAll.mp (not_refused settings), checkEntities_confined accepted⟩
    · cases accepted
  · cases accepted

/-! ## A board -/

namespace Sample

/-- JSON as hydrated values; no entry is in conflict. -/
instance : Hydrated Value where
  same a b := a.toVec = b.toVec
  map?
    | .object fields => some (fields.map fun field => ⟨field.1, field.2, false⟩).toAList
    | _ => none
  string? := Value.asStr?

/-- An entity of a kind, placed in another. -/
def placedEntity (kind parent : String) : Value :=
  .object [("kind", .string kind), ("placement", .object [("parentId", .string parent)])]

def card (id parent rank salary : String) : Value :=
  .object [("id", .string id), ("title", .string "Job"), ("body", .string ""),
    ("values", .object [("salary", .string salary)]),
    ("placement", .object [("parentId", .string parent), ("rank", .string rank)])]

def refreshText : String := "refresh"

def refreshData : Value :=
  .object [("observation", .object [("phase", .string "refresh"),
    ("originalRecordId", .string "first")])]

def refreshes : Primitives :=
  { primitives with parseJson := fun text => if text = refreshText then some refreshData else none }

def sourceOf (cardId : String) : Value :=
  .object [("kind", .string "application_source"), ("data", .string refreshText),
    ("placement", .object [("parentId", .string cardId)])]

def boardWith (entities : List (String × Value)) : Value :=
  .object [("title", .string "Search"), ("entities", .object
    ([("board", .object [("kind", .string "board")]), ("lead", placedEntity "column" "board"),
      ("interview", placedEntity "column" "board"), ("rejected", placedEntity "column" "board"),
      ("salary", placedEntity "field" "board")] ++ entities))]

def boardScope : AutomationGrantScope :=
  ⟨2, "board", ⟨"lead", none, "interview", "rejected"⟩, ["salary"], 0⟩

def boardBefore : Value :=
  boardWith [("job", card "job" "lead" "0/1" "10"), ("other", card "other" "interview" "0/1" "20"),
    ("application-source:first", sourceOf "job")]

/-- The card moves to the interviews and another makes room; a source is added. -/
def boardAfter : Value :=
  boardWith [("job", card "job" "interview" "0/1" "11"),
    ("other", card "other" "interview" "1/1" "20"), ("application-source:first", sourceOf "job"),
    ("application-source:second", sourceOf "job")]

def entitiesOf (document : Value) : HydratedMap Value :=
  ((map? document).bind fun root => entityMap root "entities").getD ∅

end Sample

open Sample

/-- A card moves and changes its salary. -/
theorem automation_confined_sample :
    ∃ leftRoot rightRoot left right, map? boardBefore = some leftRoot ∧
      map? boardAfter = some rightRoot ∧ entityMap leftRoot "entities" = some left ∧
      entityMap rightRoot "entities" = some right ∧ SameExcept ["entities"] leftRoot rightRoot ∧
      Confined refreshes boardScope left right "job" := by
  have accepted : automationTransitionAllowed refreshes boardBefore boardAfter
      boardScope = .ok ⟨"job", true⟩ := by
    decide
  exact automation_confined accepted

/-- A card that was not there is accepted, with a title no grant speaks of. -/
theorem automation_creates_card :
    automationTransitionAllowed primitives (boardWith [])
        (boardWith [("job", card "job" "lead" "0/1" "10")]) boardScope = .ok ⟨"job", false⟩ ∧
    entityMap (entitiesOf (boardWith [])) "job" = none ∧
    ((entityMap (entitiesOf (boardWith
        [("job", card "job" "lead" "0/1" "10")])) "job").bind fun m =>
      scalarString (getValue m "title")) = some "Job" := by
  decide

end MetaMesh
