import MetaMesh.Browser.ProfileHistory

/-!
# Merging profile states

Two accepted states that agree where they overlap merge to what both hold, in order
(`mergeIdentityProfileState_eq`).  A merge therefore depends on the members of its inputs
alone, and the laws of a join follow from those of unions.

A dependency of an operation stands in the state the operation came from, so causality
needs no new evidence for a union.  What a union can break are the limits, which
`Bounded.part` derives from those of any state that holds all of it.
-/

namespace MetaMesh.Browser

open Fallible Causality

variable {P : Primitives} {B : Platform} {identity : PublicIdentity}
  {certificates : List DeviceCertificate} {state : IdentityProfileState}

/-! ## Parts of a state within its limits -/

instance : Canonical LegacyObservation := by
  refine .ofFields (fun _ => rfl) (fun _ _ => rfl) (by simp [LegacyObservation.fields])
    (by simp [LegacyObservation.fields]) ?_
  rintro ⟨⟩ ⟨⟩ same
  simpa [LegacyObservation.fields] using same

/-- A state with no more than a state within the limits is within them. -/
theorem Bounded.part {all : IdentityProfileState} (bounded : Bounded identity all)
    (version : state.version = 1) (person : state.personId = identity.personId)
    (operations : state.operations.Subperm all.operations)
    (legacy : state.legacy.Subperm all.legacy) : Bounded identity state := by
  have sameVersion : state.version = all.version := version.trans bounded.version.symm
  have samePerson : state.personId = all.personId := person.trans bounded.person.symm
  refine ⟨version, person, samePerson ▸ bounded.shape, le_trans ?_ bounded.bytes,
    le_trans operations.length_le bounded.operations, le_trans legacy.length_le bounded.legacy⟩
  have operationsText : (toValue state.operations).toVec.length ≤
      (toValue all.operations).toVec.length :=
    length_toVec_array_le (operations.map Canonical.toValue_injective)
  have legacyText : (toValue state.legacy).toVec.length ≤ (toValue all.legacy).toVec.length :=
    length_toVec_array_le (legacy.map Canonical.toValue_injective)
  show (Value.object state.fields).toVec.length ≤ (Value.object all.fields).toVec.length
  rw [length_toVec_object, length_toVec_object]
  simp only [IdentityProfileState.fields, List.map_cons, List.map_nil, List.sum_cons,
    List.sum_nil, List.length_cons, List.length_nil, sameVersion, samePerson]
  omega

/-! ## States that agree -/

/-- No device and counter, service origin or observation id stands for two things. -/
structure Agree (left right : IdentityProfileState) : Prop where
  operations : ∀ a ∈ left.operations, ∀ b ∈ right.operations,
    a.signed.payload.deviceId = b.signed.payload.deviceId →
    a.signed.payload.counter = b.signed.payload.counter → a = b
  pins : ∀ a ∈ left.operations, ∀ b ∈ right.operations, ∀ p q, servicePin a = some p →
    servicePin b = some q → p.origin = q.origin → p = q
  legacy : ∀ a ∈ left.legacy, ∀ b ∈ right.legacy, a.id = b.id → a = b

variable {left right : IdentityProfileState}

theorem Agree.operationId_eq (agree : Agree left right) {a b : IdentityProfileOperation}
    (heldA : a ∈ left.operations) (heldB : b ∈ right.operations)
    (same : operationId a = operationId b) : a = b := by
  obtain ⟨actor, counter⟩ := operationId_inj.mp same
  exact agree.operations a heldA b heldB actor counter

variable (left right)

/-- What two states hold. -/
def join : IdentityProfileState :=
  ⟨1, left.personId, left.operations ++ right.operations, left.legacy ++ right.legacy⟩

/-- Two states hold the same. -/
def SameMembers : Prop :=
  (∀ o, o ∈ left.operations ↔ o ∈ right.operations) ∧ ∀ o, o ∈ left.legacy ↔ o ∈ right.legacy

variable {left right}

theorem sameMembers_inOrder (agree : Agree left left) : SameMembers (inOrder left) left := by
  refine ⟨fun o => mem_inOrder_operations fun _ heldA _ heldB => agree.operationId_eq heldA heldB,
    fun o => ?_⟩
  unfold inOrder legacyById
  simp only [Table.mem_orderedValues, Table.lookup_insertAll_iff agree.legacy]
  exact ⟨fun ⟨_, held, _⟩ => held, fun held => ⟨_, held, rfl⟩⟩

/-- States that agree pairwise. -/
def Compatible (states : List IdentityProfileState) : Prop :=
  ∀ s ∈ states, ∀ t ∈ states, Agree s t

/-- States that fit together into the limits of one. -/
def FitTogether (identity : PublicIdentity) (states : List IdentityProfileState) : Prop :=
  ∃ all, Bounded identity all ∧ ∀ s ∈ states,
    (∀ o ∈ s.operations, o ∈ all.operations) ∧ ∀ o ∈ s.legacy, o ∈ all.legacy

/-- All that the state holds is held by one of the states. -/
def ComesFrom (states : List IdentityProfileState) (state : IdentityProfileState) : Prop :=
  (∀ o ∈ state.operations, ∃ s ∈ states, o ∈ s.operations) ∧
    ∀ o ∈ state.legacy, ∃ s ∈ states, o ∈ s.legacy

variable {states : List IdentityProfileState}

theorem Compatible.agree (compatible : Compatible states) (fromL : ComesFrom states left)
    (fromR : ComesFrom states right) : Agree left right := by
  refine ⟨?_, ?_, ?_⟩
  · intro a heldA b heldB
    obtain ⟨s, inS, fromS⟩ := fromL.1 a heldA
    obtain ⟨t, inT, fromT⟩ := fromR.1 b heldB
    exact (compatible s inS t inT).operations a fromS b fromT
  · intro a heldA b heldB
    obtain ⟨s, inS, fromS⟩ := fromL.1 a heldA
    obtain ⟨t, inT, fromT⟩ := fromR.1 b heldB
    exact (compatible s inS t inT).pins a fromS b fromT
  · intro a heldA b heldB
    obtain ⟨s, inS, fromS⟩ := fromL.2 a heldA
    obtain ⟨t, inT, fromT⟩ := fromR.2 b heldB
    exact (compatible s inS t inT).legacy a fromS b fromT

theorem ComesFrom.congr (origin : ComesFrom states right) (same : SameMembers left right) :
    ComesFrom states left :=
  ⟨fun o held => origin.1 o ((same.1 o).mp held), fun o held => origin.2 o ((same.2 o).mp held)⟩

/-- A state depends, once it is in order, on its members. -/
theorem Compatible.inOrder_eq (compatible : Compatible states) (fromL : ComesFrom states left)
    (fromR : ComesFrom states right) (person : left.personId = right.personId)
    (same : SameMembers left right) : inOrder left = inOrder right := by
  have agreeL := compatible.agree fromL fromL
  have agreeR := compatible.agree fromR fromR
  unfold inOrder legacyById
  congr 1
  · refine Table.orderedValues_congr unitKey_injective fun k => Option.ext fun o => ?_
    rw [Table.lookup_insertAll_iff fun a heldA b heldB => agreeL.operationId_eq heldA heldB,
      Table.lookup_insertAll_iff fun a heldA b heldB => agreeR.operationId_eq heldA heldB,
      same.1]
  · refine Table.orderedValues_congr unitKey_injective fun k => Option.ext fun o => ?_
    rw [Table.lookup_insertAll_iff agreeL.legacy, Table.lookup_insertAll_iff agreeR.legacy, same.2]

theorem FitTogether.bounded (fit : FitTogether identity states) (origin : ComesFrom states state)
    (version : state.version = 1) (person : state.personId = identity.personId)
    (once : state.operations.Nodup) (onceL : state.legacy.Nodup) : Bounded identity state := by
  obtain ⟨all, bounded, inside⟩ := fit
  refine bounded.part version person (once.subperm ?_) (onceL.subperm ?_)
  · intro o held
    obtain ⟨s, member, holds⟩ := origin.1 o held
    exact (inside s member).1 o holds
  · intro o held
    obtain ⟨s, member, holds⟩ := origin.2 o held
    exact (inside s member).2 o holds

/-! ## Unions -/

/-- What two accepted states hold is accepted within the limits. -/
theorem Accepted.union {both : IdentityProfileState}
    (acceptedL : Accepted P B identity certificates left)
    (acceptedR : Accepted P B identity certificates right) (agree : Agree left right)
    (apart : Agree both both) (bounded : Bounded identity both)
    (members : SameMembers both (join left right)) : Accepted P B identity certificates both := by
  have operations := fun o => (members.1 o).trans List.mem_append
  have legacy := fun o => (members.2 o).trans List.mem_append
  have either : ∀ {p : IdentityProfileOperation → Prop}, (∀ o ∈ left.operations, p o) →
      (∀ o ∈ right.operations, p o) → ∀ o ∈ both.operations, p o := by
    intro p inLeft inRight o held
    exact ((operations o).mp held).elim (inLeft o) (inRight o)
  have events : { o | o ∈ both.operations } =
      { o | o ∈ left.operations } ∪ { o | o ∈ right.operations } :=
    Set.ext operations
  -- an observation that was found is found among more of them
  have found : ∀ {s}, Accepted P B identity certificates s → (∀ o ∈ s.legacy, o ∈ both.legacy) →
      ∀ o ∈ s.operations, ∀ id ∈ o.signed.payload.supersedesLegacy, ∃ observation,
        (legacyById both).lookup id = some observation ∧
          observation.field = o.signed.payload.field := by
    intro s accepted inside o held id member
    obtain ⟨observation, looked, field⟩ := accepted.superseded o held id member
    have keyed := (Table.KeyedBy.empty LegacyObservation.id).insertAll s.legacy
      id observation looked
    have held : observation ∈ s.legacy := by
      rcases Table.lookup_insertAll_mem looked with none | held
      · simp at none
      · exact held
    exact ⟨observation, (Table.lookup_insertAll_iff apart.legacy).mpr
      ⟨inside observation held, keyed⟩, field⟩
  refine ⟨bounded, either acceptedL.parsed acceptedR.parsed,
    either acceptedL.verified acceptedR.verified,
    fun a heldA b heldB => apart.operationId_eq heldA heldB, ?_, ?_, apart.pins, ?_⟩
  · intro o held
    exact ((legacy o).mp held).elim (acceptedL.observed o) (acceptedR.observed o)
  · rw [events]
    exact acceptedL.causal.union acceptedR.causal agree.operations
  · exact either (found acceptedL fun o held => (legacy o).mpr (.inl held))
      (found acceptedR fun o held => (legacy o).mpr (.inr held))

theorem nodup_values {T : Type} {key : T → String} {table : Table String T}
    (keyed : Table.KeyedBy key table) : table.values.Nodup :=
  ((Table.orderedValues_perm unitKey table).map key).nodup_iff.mp (keyed.nodup unitKey) |>.of_map

section Merging

variable {states : List IdentityProfileState} {left right : IdentityProfileState}

theorem comesFrom_join (fromL : ComesFrom states left) (fromR : ComesFrom states right) :
    ComesFrom states (join left right) :=
  ⟨fun o held => (List.mem_append.mp held).elim (fromL.1 o) (fromR.1 o),
    fun o held => (List.mem_append.mp held).elim (fromL.2 o) (fromR.2 o)⟩

theorem nodup_inOrder : (inOrder left).operations.Nodup ∧ (inOrder left).legacy.Nodup :=
  ⟨(Table.KeyedBy.nodup ((Table.KeyedBy.empty operationId).insertAll left.operations)
      unitKey).of_map,
    (Table.KeyedBy.nodup ((Table.KeyedBy.empty LegacyObservation.id).insertAll left.legacy)
      unitKey).of_map⟩

/-- A merge is the union of its inputs, in order. -/
theorem mergeIdentityProfileState_eq (compatible : Compatible states)
    (fit : FitTogether identity states) (fromL : ComesFrom states left)
    (fromR : ComesFrom states right) (acceptedL : Accepted P B identity certificates left)
    (acceptedR : Accepted P B identity certificates right) :
    mergeIdentityProfileState P B left right identity certificates =
        .ok (inOrder (join left right)) ∧
      Accepted P B identity certificates (inOrder (join left right)) := by
  have fromBoth := comesFrom_join fromL fromR
  have agreeL := compatible.agree fromL fromL
  have agreeR := compatible.agree fromR fromR
  have agreeBoth := compatible.agree fromBoth fromBoth
  obtain ⟨operationsL, legacyL⟩ := sameMembers_inOrder agreeL
  obtain ⟨operationsR, legacyR⟩ := sameMembers_inOrder agreeR
  -- whatever holds the same as both is accepted
  have union : ∀ both : IdentityProfileState, SameMembers both (join left right) →
      both.version = 1 → both.personId = identity.personId → both.operations.Nodup →
      both.legacy.Nodup → Accepted P B identity certificates both := by
    intro both same version person once onceL
    have origin := fromBoth.congr same
    exact acceptedL.union acceptedR (compatible.agree fromL fromR) (compatible.agree origin origin)
      (fit.bounded origin version person once onceL) same
  -- the operations of the left state, filed, and those of the right state after them
  let first := Table.insertAll operationId (inOrder left).operations
    (∅ : Table String IdentityProfileOperation)
  have keyed : Table.KeyedBy operationId first := (Table.KeyedBy.empty _).insertAll _
  have inFirst : ∀ o, o ∈ first.values ↔ o ∈ left.operations := by
    intro o
    rw [Table.mem_values_insertAll, operationsL]
    intro a heldA b heldB
    exact agreeL.operationId_eq ((operationsL a).mp heldA) ((operationsL b).mp heldB)
  have one : ∀ a ∈ (inOrder right).operations, ∀ b,
      b ∈ first.values ∨ b ∈ (inOrder right).operations →
        operationId a = operationId b → a = b := by
    intro a heldA b heldB
    rw [operationsR] at heldA
    rw [inFirst, operationsR] at heldB
    exact agreeBoth.operationId_eq (List.mem_append_right _ heldA) (List.mem_append.mpr heldB)
  let operations := first.insertAll operationId (inOrder right).operations
  let legacy := Table.insertAll LegacyObservation.id
    ((inOrder left).legacy ++ (inOrder right).legacy)
    (∅ : Table String LegacyObservation)
  let both : IdentityProfileState := ⟨1, identity.personId, operations.values, legacy.values⟩
  have keyedL : Table.KeyedBy LegacyObservation.id legacy := (Table.KeyedBy.empty _).insertAll _
  have members : SameMembers both (join left right) := by
    have held : ∀ o, o ∈ (inOrder left).legacy ++ (inOrder right).legacy ↔
        o ∈ (join left right).legacy := by
      intro o
      rw [List.mem_append, legacyL, legacyR]
      exact List.mem_append.symm
    refine ⟨fun o => ?_, fun o => ?_⟩
    · rw [show both.operations = operations.values from rfl, keyed.mem_values_insertAll one,
        inFirst,
        operationsR]
      exact List.mem_append.symm
    · rw [show both.legacy = legacy.values from rfl, Table.mem_values_insertAll, held]
      intro a heldA b heldB
      exact agreeBoth.legacy a ((held a).mp heldA) b ((held b).mp heldB)
  have same : inOrder both = inOrder (join left right) :=
    compatible.inOrder_eq (fromBoth.congr members) fromBoth acceptedL.bounded.person.symm members
  refine ⟨bind_ok.mpr ⟨inOrder left, readIdentityProfileState_ok.mpr ⟨acceptedL, rfl⟩,
    bind_ok.mpr ⟨inOrder right, readIdentityProfileState_ok.mpr ⟨acceptedR, rfl⟩,
      bind_ok.mpr ⟨operations, (foldlM_addAgreed keyed).mpr ⟨one, rfl⟩,
        readIdentityProfileState_ok.mpr ⟨union both members rfl rfl
          (nodup_values (keyed.insertAll _)) (nodup_values keyedL), same⟩⟩⟩⟩, ?_⟩
  exact union _ (sameMembers_inOrder agreeBoth) rfl acceptedL.bounded.person nodup_inOrder.1
    nodup_inOrder.2

section

variable (compatible : Compatible states) (fromL : ComesFrom states left)
include compatible fromL

theorem comesFrom_inOrder : ComesFrom states (inOrder left) :=
  fromL.congr (sameMembers_inOrder (compatible.agree fromL fromL))

theorem inOrder_inOrder : inOrder (inOrder left) = inOrder left :=
  compatible.inOrder_eq (comesFrom_inOrder compatible fromL) fromL rfl
    (sameMembers_inOrder (compatible.agree fromL fromL))

theorem inOrder_join_self : inOrder (join left left) = inOrder left :=
  compatible.inOrder_eq (comesFrom_join fromL fromL) fromL rfl
    ⟨fun _ => List.mem_append.trans or_self_iff, fun _ => List.mem_append.trans or_self_iff⟩

variable (fromR : ComesFrom states right)
include fromR

theorem mem_inOrder_join :
    (∀ o, o ∈ (inOrder (join left right)).operations ↔ o ∈ left.operations ∨ o ∈ right.operations) ∧
      ∀ o, o ∈ (inOrder (join left right)).legacy ↔ o ∈ left.legacy ∨ o ∈ right.legacy := by
  have both := comesFrom_join fromL fromR
  obtain ⟨operations, legacy⟩ := sameMembers_inOrder (compatible.agree both both)
  exact ⟨fun o => (operations o).trans List.mem_append, fun o => (legacy o).trans List.mem_append⟩

theorem inOrder_join_assoc {middle : IdentityProfileState} (fromM : ComesFrom states middle) :
    inOrder (join (inOrder (join left middle)) right) =
      inOrder (join left (inOrder (join middle right))) := by
  have mergedFrom := comesFrom_inOrder compatible (comesFrom_join fromL fromM)
  have restFrom := comesFrom_inOrder compatible (comesFrom_join fromM fromR)
  obtain ⟨operations, legacy⟩ := mem_inOrder_join compatible fromL fromM
  obtain ⟨operations', legacy'⟩ := mem_inOrder_join compatible fromM fromR
  refine compatible.inOrder_eq (comesFrom_join mergedFrom fromR) (comesFrom_join fromL restFrom) rfl
    ⟨fun o => List.mem_append.trans (Iff.trans ?_ List.mem_append.symm),
      fun o => List.mem_append.trans (Iff.trans ?_ List.mem_append.symm)⟩
  · rw [operations, operations', or_assoc]
  · rw [legacy, legacy', or_assoc]

end

end Merging

/-- Accepted states that agree pairwise and fit together into the limits merge to their
union, which is accepted as it is.  Merging is commutative, associative and idempotent. -/
theorem profile_states_converge (P : Primitives) (B : Platform) (identity : PublicIdentity)
    (certificates : List DeviceCertificate) (left middle right : IdentityProfileState)
    (accepted : ∀ s ∈ [left, middle, right], ∃ r,
      readIdentityProfileState P B s identity certificates = .ok r)
    (compatible : Compatible [left, middle, right])
    (fit : FitTogether identity [left, middle, right]) :
    ∃ merged, mergeIdentityProfileState P B left middle identity certificates = .ok merged ∧
      readIdentityProfileState P B merged identity certificates = .ok merged ∧
      (∀ o, o ∈ merged.operations ↔ o ∈ left.operations ∨ o ∈ middle.operations) ∧
      (∀ o, o ∈ merged.legacy ↔ o ∈ left.legacy ∨ o ∈ middle.legacy) ∧
      mergeIdentityProfileState P B middle left identity certificates = .ok merged ∧
      (∃ rest all, mergeIdentityProfileState P B middle right identity certificates = .ok rest ∧
        mergeIdentityProfileState P B merged right identity certificates = .ok all ∧
        mergeIdentityProfileState P B left rest identity certificates = .ok all) ∧
      mergeIdentityProfileState P B merged merged identity certificates = .ok merged ∧
      mergeIdentityProfileState P B left left identity certificates =
        readIdentityProfileState P B left identity certificates := by
  have held : ∀ s ∈ [left, middle, right], Accepted P B identity certificates s := by
    intro s member
    obtain ⟨r, ran⟩ := accepted s member
    exact (readIdentityProfileState_ok.mp ran).1
  have origin : ∀ s ∈ [left, middle, right], ComesFrom [left, middle, right] s :=
    fun s member => ⟨fun o heldO => ⟨s, member, heldO⟩, fun o heldO => ⟨s, member, heldO⟩⟩
  have fromL := origin left (by simp)
  have fromM := origin middle (by simp)
  have fromR := origin right (by simp)
  have acceptedL := held left (by simp)
  have acceptedM := held middle (by simp)
  have acceptedR := held right (by simp)
  have merges := fun {left right} => @mergeIdentityProfileState_eq P B identity certificates _ left
    right compatible fit
  -- what a merge returns comes from the same states
  have fromLM := comesFrom_join fromL fromM
  have mergedFrom := comesFrom_inOrder compatible fromLM
  have restFrom := comesFrom_inOrder compatible (comesFrom_join fromM fromR)
  obtain ⟨merged, acceptedLM⟩ := merges fromL fromM acceptedL acceptedM
  obtain ⟨rest, acceptedMR⟩ := merges fromM fromR acceptedM acceptedR
  obtain ⟨operations, legacy⟩ := mem_inOrder_join compatible fromL fromM
  have swapped : inOrder (join middle left) = inOrder (join left middle) :=
    compatible.inOrder_eq (comesFrom_join fromM fromL) fromLM
      (acceptedM.bounded.person.trans acceptedL.bounded.person.symm)
      ⟨fun _ => List.perm_append_comm.mem_iff, fun _ => List.perm_append_comm.mem_iff⟩
  have again : inOrder (join (inOrder (join left middle)) (inOrder (join left middle))) =
      inOrder (join left middle) :=
    (inOrder_join_self compatible mergedFrom).trans (inOrder_inOrder compatible fromLM)
  refine ⟨inOrder (join left middle), merged, ?_, operations, legacy, ?_,
    ⟨inOrder (join middle right), _, rest, (merges mergedFrom fromR acceptedLM acceptedR).1, ?_⟩,
    ?_, ?_⟩
  · exact readIdentityProfileState_ok.mpr ⟨acceptedLM, inOrder_inOrder compatible fromLM⟩
  · rw [(merges fromM fromL acceptedM acceptedL).1, swapped]
  · rw [(merges fromL restFrom acceptedL acceptedMR).1,
      inOrder_join_assoc compatible fromL fromR fromM]
  · rw [(merges mergedFrom mergedFrom acceptedLM acceptedLM).1, again]
  · rw [(merges fromL fromL acceptedL acceptedL).1, inOrder_join_self compatible fromL]
    exact (readIdentityProfileState_ok.mpr ⟨acceptedL, rfl⟩).symm

/-! ## States to evaluate with -/

namespace Sample

open MetaMesh.Sample

def browser : Platform := ⟨id, fun _ => none, some, fun _ => none⟩

/-- An operation on the name of person 0. -/
def named (device : Nat) (counter : Int) (context : List (String × Int)) (name : String)
    (supersedes : List String) : IdentityProfileOperation :=
  ⟨⟨⟨"identity-profile-update", 1, keyId 0, keyId device, counter, Record.ofList context, .name,
    .text name, supersedes⟩, keyId device, letters 86 device⟩, [certificate 0 device]⟩

def observed (name : String) : LegacyObservation :=
  ⟨((legacyId primitives .name (.text name)).toOption).getD "", .name, .text name⟩

def profile (operations : List IdentityProfileOperation) (legacy : List LegacyObservation) :
    IdentityProfileState :=
  ⟨1, keyId 0, operations, legacy⟩

/-- Device `device` of person 0, with its own certificate only. -/
def localProfile (device : Nat) : LocalProfile :=
  ⟨person 0, ⟨keyId device, letters 43 device, ""⟩, certificate 0 device,
    fun _ => .ok (letters 86 device)⟩

/-- Three replicas: two devices have written, one of them twice. -/
def replicas : List IdentityProfileState :=
  [profile [named 1 1 [] "Ada" []] [], profile [named 2 1 [] "Eve" []] [observed "Old"],
    profile [named 1 2 [(keyId 1, 1)] "Ida" [], named 1 1 [] "Ada" []] []]

def whole : IdentityProfileState :=
  profile [named 1 1 [] "Ada" [], named 2 1 [] "Eve" [], named 1 2 [(keyId 1, 1)] "Ida" []]
    [observed "Old"]

end Sample

open MetaMesh.Sample Sample

set_option maxRecDepth 100000 in
theorem profile_states_converge_sample :
    ∃ merged, mergeIdentityProfileState primitives browser (profile [named 1 1 [] "Ada" []] [])
        (profile [named 2 1 [] "Eve" []] [observed "Old"]) (person 0) [] = .ok merged ∧
      named 1 1 [] "Ada" [] ∈ merged.operations ∧ named 2 1 [] "Eve" [] ∈ merged.operations := by
  have read : ∀ s ∈ replicas,
      (readIdentityProfileState primitives browser s (person 0) []).isOk = true := by decide
  have comes : ∀ s ∈ replicas, ComesFrom [whole] s := by
    have inside : ∀ s ∈ replicas, (∀ o ∈ s.operations, o ∈ whole.operations) ∧
        ∀ o ∈ s.legacy, o ∈ whole.legacy := by decide
    intro s member
    exact ⟨fun o held => ⟨whole, by simp, (inside s member).1 o held⟩,
      fun o held => ⟨whole, by simp, (inside s member).2 o held⟩⟩
  have agree : Agree whole whole := by
    have pins : ∀ a ∈ whole.operations, servicePin a = none := by decide
    refine ⟨by decide, ?_, by decide⟩
    intro a heldA b heldB p q pinned
    rw [pins a heldA] at pinned
    cases pinned
  have compatible : Compatible [whole] := by
    simpa [Compatible] using agree
  have fit : FitTogether (person 0) replicas := by
    refine ⟨whole, ⟨rfl, rfl, by decide, by decide, by decide, by decide⟩, ?_⟩
    intro s member
    simpa [ComesFrom] using comes s member
  obtain ⟨merged, ran, _, members, _⟩ := profile_states_converge primitives browser (person 0) []
    _ _ _ (fun s member => isOk_iff.mp (read s member))
    (fun s inS t inT => compatible.agree (comes s inS) (comes t inT)) fit
  exact ⟨merged, ran, (members _).mpr (.inl (by simp [profile])),
    (members _).mpr (.inr (by simp [profile]))⟩

end MetaMesh.Browser
