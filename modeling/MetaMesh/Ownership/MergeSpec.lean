import MetaMesh.Ownership.Merge

/-!
# What the steps of an ownership merge do

One lemma for each function of `Ownership/Merge.lean`: the fields read from an
unverified record are those of the record it parses to, a conflict is a pair of
contradicting transfers, the next transition is decided by the transfers at the
next epoch, and the late history is filed as a whole.
-/

namespace MetaMesh

open Fallible

/-! ## Fields -/

section Fields

variable (r : WorkspaceOwnershipTransfer)

@[simp] theorem transferSigner?_toValue :
    transferSigner? (toValue r) = some r.payload.fromOwnerPersonId := rfl

@[simp] theorem transferEpoch?_toValue : transferEpoch? (toValue r) = some r.payload.epoch := rfl

@[simp] theorem recordSignature?_toValue : recordSignature? (toValue r) = some r.signature := rfl

@[simp] theorem parseTransfer_toValue : parseTransfer (toValue r) = .ok r := by
  simp [parseTransfer, okOr]

end Fields

variable {records : List WorkspaceOwnershipTransfer}

/-- The records that values parse to. -/
abbrev Parses (raws : List Value) (parsed : List WorkspaceOwnershipTransfer) : Prop :=
  List.Forall₂ (fun raw record => parseTransfer raw = .ok record) raws parsed

/-- Records that were written parse to themselves. -/
theorem forall₂_parseTransfer {parsed : List WorkspaceOwnershipTransfer} :
    Parses (records.map toValue) parsed ↔ parsed = records := by
  induction records generalizing parsed with
  | nil => simp
  | cons r records ih =>
    rw [List.map_cons, Parses, List.forall₂_cons_left_iff]
    constructor
    · rintro ⟨b, rest, head, tail, rfl⟩
      rw [parseTransfer_toValue] at head
      rw [← Except.ok.inj head, ih.mp tail]
    · rintro rfl
      exact ⟨r, records, parseTransfer_toValue r, ih.mpr rfl, rfl⟩

variable {v : Value}

/-- A field read by name from an object is the field of the struct it parses to. -/
theorem fromField_structField {T : Type} [Deserialize T] {inner : Value} {names : List String}
    {name : String} (object : v.get? name = some inner) :
    fromField (v.structField names name) = (fromValue inner : Option T) := by
  cases v with
  | object fields =>
    simp only [Value.get?] at object
    simp [Value.structField, fromField, object]
  | _ => simp [Value.get?] at object

theorem fields_of_fromValue {T : Type} [Deserialize T] {e : SignedEnvelope T}
    (parsed : fromValue v = some e) :
    fromField (v.structField ["payload", "signerKeyId", "signature"] "payload") = some e.payload ∧
      fromField (v.structField ["payload", "signerKeyId", "signature"] "signature") =
        some e.signature := by
  simp only [fromValue, Option.bind_eq_bind, Option.bind_eq_some_iff, Option.some.injEq] at parsed
  obtain ⟨payload, readPayload, _, _, signature, readSignature, rfl⟩ := parsed
  exact ⟨readPayload, readSignature⟩

theorem fields_of_ofValue {p : WorkspaceOwnershipTransferPayload}
    (parsed : WorkspaceOwnershipTransferPayload.ofValue v = some p) :
    (∃ names, fromField (v.structField names "fromOwnerPersonId") = some p.fromOwnerPersonId) ∧
      ∃ names, fromField (v.structField names "epoch") = some p.epoch := by
  simp only [WorkspaceOwnershipTransferPayload.ofValue, Option.bind_eq_bind,
    Option.bind_eq_some_iff, Option.some.injEq] at parsed
  obtain ⟨_, _, _, _, _, _, signer, readSigner, _, _, _, _, _, _, _, _, _, _, _, _, epoch,
    readEpoch, _, _, rfl⟩ := parsed
  exact ⟨⟨_, readSigner⟩, ⟨_, readEpoch⟩⟩

section Parsed

variable {raw : Value} {r : WorkspaceOwnershipTransfer} (parsed : parseTransfer raw = .ok r)
include parsed

theorem signature_of_parse {signature : String} (field : recordSignature? raw = some signature) :
    r.signature = signature := by
  obtain ⟨inner, found, text⟩ := Option.bind_eq_some_iff.mp field
  have read := (fields_of_fromValue (okOr_ok.mp parsed)).2
  rw [fromField_structField found] at read
  exact Option.mem_unique read text

/-- The payload of a record whose payload fields are read by name. -/
theorem payload_of_parse {name : String} {inner : Value}
    (field : raw.pointer? ["payload", name] = some inner) :
    ∃ payload, raw.get? "payload" = some payload ∧
      WorkspaceOwnershipTransferPayload.ofValue payload = some r.payload ∧
      payload.get? name = some inner := by
  simp only [Value.pointer?, Option.bind_eq_some_iff] at field
  obtain ⟨payload, found, _, named, same⟩ := field
  have read := (fields_of_fromValue (okOr_ok.mp parsed)).1
  rw [fromField_structField found] at read
  exact ⟨payload, found, read, by rw [named, same]⟩

theorem epoch_of_parse {epoch : Nat} (field : transferEpoch? raw = some epoch) :
    r.payload.epoch = epoch := by
  obtain ⟨inner, found, number⟩ := Option.bind_eq_some_iff.mp field
  obtain ⟨payload, _, read, named⟩ := payload_of_parse parsed found
  obtain ⟨_, names, readEpoch⟩ := fields_of_ofValue read
  rw [fromField_structField named] at readEpoch
  exact Option.mem_unique readEpoch number

end Parsed

/-! ## Conflicts -/

theorem hasConflictingOwnershipTransfers_iff {records : List Value} :
    hasConflictingOwnershipTransfers records = true ↔
      ∃ a ∈ records.filterMap transferEdge?, ∃ b ∈ records.filterMap transferEdge?,
        a.1 = b.1 ∧ a.2 ≠ b.2 := by
  unfold hasConflictingOwnershipTransfers
  generalize records.filterMap transferEdge? = edges
  rw [List.any_eq_true]
  constructor
  · rintro ⟨⟨key, group⟩, entry, several⟩
    have found := AList.mem_lookup_iff.mpr entry
    rw [Option.mem_def, Table.lookup_groupBy] at found
    split at found
    · cases found
    · simp only [Option.some.injEq] at found
      subst found
      simp only [decide_eq_true_eq, Finset.one_lt_card, List.mem_toFinset, List.mem_map,
        List.mem_filter] at several
      obtain ⟨_, ⟨a, ⟨inA, keyA⟩, rfl⟩, _, ⟨b, ⟨inB, keyB⟩, rfl⟩, apart⟩ := several
      exact ⟨a, inA, b, inB, keyA.trans keyB.symm, apart⟩
  · rintro ⟨a, inA, b, inB, key, apart⟩
    refine ⟨⟨a.1, edges.filter (·.1 = a.1)⟩, ?_, ?_⟩
    · rw [← AList.mem_lookup_iff, Option.mem_def, Table.lookup_groupBy, if_neg]
      exact List.ne_nil_of_mem (List.mem_filter.mpr ⟨inA, by simp⟩)
    · simp only [decide_eq_true_eq, Finset.one_lt_card, List.mem_toFinset, List.mem_map,
        List.mem_filter]
      exact ⟨a.2, ⟨a, ⟨inA, rfl⟩, rfl⟩, b.2, ⟨b, ⟨inB, key.symm⟩, rfl⟩, apart⟩

variable {r : WorkspaceOwnershipTransfer}

/-- What a transfer adds to the conflict table: nothing when a name is missing
or its epoch is out of range. -/
theorem transferEdge?_toValue (fromNamed : r.payload.fromOwnerPersonId ≠ "")
    (toNamed : r.payload.toOwnerPersonId ≠ "") (safe : r.payload.epoch ≤ maxSafeInteger) :
    transferEdge? (toValue r) =
      some ((r.payload.epoch, r.payload.fromOwnerPersonId), r.payload.toOwnerPersonId) := by
  have payload : (toValue r).get? "payload" = some (.object r.payload.fields) := rfl
  have epoch : ((Value.object r.payload.fields).get? "epoch").bind Value.asU64? =
      some r.payload.epoch := rfl
  have fromOwner : ((Value.object r.payload.fields).get? "fromOwnerPersonId").bind Value.asStr? =
      some r.payload.fromOwnerPersonId := rfl
  have toOwner : ((Value.object r.payload.fields).get? "toOwnerPersonId").bind Value.asStr? =
      some r.payload.toOwnerPersonId := rfl
  simp [transferEdge?, payload, epoch, fromOwner, toOwner, Option.filter, fromNamed, toNamed, safe]

/-! ## The next transition -/

theorem nextTransferEpoch_eq_some {records : List Value} {owner : String} {epoch n : Nat} :
    nextTransferEpoch records owner epoch = some n ↔
      (epoch < n ∧ ∃ v ∈ records, transferSigner? v = some owner ∧ transferEpoch? v = some n) ∧
        ∀ v ∈ records, ∀ m, transferSigner? v = some owner → transferEpoch? v = some m →
          epoch < m → n ≤ m := by
  unfold nextTransferEpoch
  rw [List.min?_eq_some_iff]
  simp only [List.mem_filter, List.mem_filterMap, decide_eq_true_eq]
  constructor
  · rintro ⟨⟨⟨v, ⟨held, signer⟩, at'⟩, above⟩, least⟩
    exact ⟨⟨above, v, held, signer, at'⟩, fun w held' m signer' at'' later =>
      least m ⟨⟨w, ⟨held', signer'⟩, at''⟩, later⟩⟩
  · rintro ⟨⟨above, v, held, signer, at'⟩, least⟩
    refine ⟨⟨⟨v, ⟨held, signer⟩, at'⟩, above⟩, ?_⟩
    rintro m ⟨⟨w, ⟨held', signer'⟩, at''⟩, later⟩
    exact least w held' m signer' at'' later

section Next

variable {P : Primitives} {records : List Value} {workspaceId : String}
  {owner : WorkspaceAuthority} {epoch : Nat} {revoked : Finset String} {nowMs : Int}
  {transition : VerifiedOwnershipTransition}

/-- The transition that the parsed transfers at the next epoch decide. -/
def decidedBy (parsed : List WorkspaceOwnershipTransfer) : VerifiedOwnershipTransition :=
  let candidates := sortBy (fun record => strKey record.signature) parsed
  let conflicted : Bool :=
    1 < (candidates.map fun record => record.payload.toOwnerPersonId).toFinset.card
  ⟨candidates, if conflicted then none else candidates.head?, conflicted⟩

theorem nextVerifiedOwnershipTransition_ok :
    nextVerifiedOwnershipTransition P records workspaceId owner epoch revoked nowMs =
        .ok transition ↔
      records.length ≤ 512 ∧ workspaceId ≠ "" ∧
        match nextTransferEpoch records owner.personId epoch with
        | none => transition = ⟨[], none, false⟩
        | some n => ∃ parsed, Parses (transfersAt records owner.personId n) parsed ∧
            (∀ record ∈ parsed,
              checkProposal P workspaceId owner epoch revoked nowMs record = .ok ()) ∧
            transition = decidedBy parsed := by
  unfold nextVerifiedOwnershipTransition
  rw [refuse_bind_ok]
  simp only [not_or, not_lt]
  rw [and_assoc]
  refine and_congr_right fun _ => and_congr_right fun _ => ?_
  cases nextTransferEpoch records owner.personId epoch with
  | none => simp [eq_comm]
  | some n =>
    simp only [bind_ok, mapM_ok, foldlM_checked_ok, Except.ok.injEq]
    refine exists_congr fun parsed => and_congr_right fun _ => ?_
    rw [Table.foldl_insert_empty]
    simp only [mem_sortBy, decidedBy]
    constructor
    · rintro ⟨successors, ⟨checked, rfl⟩, rfl⟩
      exact ⟨checked, rfl⟩
    · rintro ⟨checked, rfl⟩
      exact ⟨_, ⟨checked, rfl⟩, rfl⟩

end Next

/-! ## The known records -/

/-- The key of a record in the table of known records. -/
def signatureKey (raw : Value) : String :=
  (recordSignature? raw).getD ""

@[simp] theorem signatureKey_toValue (r : WorkspaceOwnershipTransfer) :
    signatureKey (toValue r) = r.signature := rfl

/-- A record comes in only with a signature. -/
def isSigned (raw : Value) : Bool :=
  signatureKey raw ≠ ""

theorem fileIncoming_eq (known : Table String Value) (raw : Value) :
    fileIncoming known raw =
      if isSigned raw then known.insert (signatureKey raw) raw else known := by
  unfold fileIncoming isSigned signatureKey
  cases recordSignature? raw with
  | none => simp
  | some signature => by_cases empty : signature = "" <;> simp [empty]

/-- The records that `knownTransfers` files. -/
def OwnershipMergeInput.filed (input : OwnershipMergeInput) : List Value :=
  input.current.map toValue ++ input.incoming.filter isSigned

theorem knownTransfers_eq (input : OwnershipMergeInput) :
    knownTransfers input = (∅ : Table String Value).insertAll signatureKey input.filed := by
  have incoming : ∀ (items : List Value) (t : Table String Value),
      items.foldl fileIncoming t = t.insertAll signatureKey (items.filter isSigned) := by
    intro items
    induction items with
    | nil => exact fun _ => rfl
    | cons raw items ih =>
      intro t
      rw [List.foldl_cons, List.filter_cons, ih, fileIncoming_eq]
      by_cases signed : isSigned raw = true <;> simp [signed, Table.insertAll]
  unfold knownTransfers
  rw [incoming]
  unfold Table.insertAll OwnershipMergeInput.filed
  rw [List.foldl_append, List.foldl_map]
  rfl

theorem knownValues_nodup (input : OwnershipMergeInput) :
    ((knownValues input).map signatureKey).Nodup := by
  rw [knownValues, knownTransfers_eq]
  exact ((Table.KeyedBy.empty _).insertAll _).nodup strKey

variable {input : OwnershipMergeInput} {accepted : TransferTable}

theorem mem_knownValues_of_apart {v : Value}
    (apart : ∀ v ∈ input.filed, ∀ w ∈ input.filed, signatureKey v = signatureKey w → v = w) :
    v ∈ knownValues input ↔ v ∈ input.filed := by
  rw [knownValues, Table.mem_orderedValues, ← Table.mem_values, knownTransfers_eq]
  exact Table.mem_values_insertAll apart

/-- A known record is of the catalog or came in. -/
theorem mem_of_known {raw : Value} (known : raw ∈ knownValues input) :
    (∃ r ∈ input.current, raw = toValue r) ∨ raw ∈ input.incoming ∧ isSigned raw = true := by
  obtain ⟨key, found⟩ := Table.mem_orderedValues.mp known
  rw [knownTransfers_eq] at found
  rcases Table.lookup_insertAll_mem found with held | held
  · simp at held
  · rw [OwnershipMergeInput.filed, List.mem_append, List.mem_map, List.mem_filter] at held
    exact held.imp_left fun ⟨r, inCurrent, same⟩ => ⟨r, inCurrent, same.symm⟩

theorem recordSignature?_of_known {raw : Value} (known : raw ∈ knownValues input) :
    recordSignature? raw = some (signatureKey raw) := by
  rcases mem_of_known known with ⟨r, _, rfl⟩ | ⟨_, signed⟩
  · rfl
  · revert signed
    unfold isSigned signatureKey
    cases recordSignature? raw with
    | none => simp
    | some signature => simp

/-! ## The late history -/

section Late

variable {P : Primitives} {input : OwnershipMergeInput} {accepted after : TransferTable}

variable (input accepted) in
/-- A record that the late history takes in. -/
def isLate (raw : Value) : Bool :=
  (accepted.lookup (signatureKey raw)).isNone ∧
    (transferEpoch? raw).getD 0 ≤ input.ownerEpoch ∧ (lateAuthority? input raw).isSome

variable (P input) in
/-- The late record that `raw` is verified to be. -/
def FiledAs (raw : Value) (record : WorkspaceOwnershipTransfer) : Prop :=
  ∃ authority, lateAuthority? input raw = some authority ∧
    verifyLateTransfer P input authority raw = .ok record

theorem FiledAs.parsed {raw : Value} {record : WorkspaceOwnershipTransfer}
    (filed : FiledAs P input raw record) : parseTransfer raw = .ok record := by
  obtain ⟨authority, _, verified⟩ := filed
  obtain ⟨_, parsed, verified⟩ := bind_ok.mp verified
  obtain ⟨_, _, same⟩ := bind_ok.mp verified
  rwa [← Except.ok.inj same]

theorem fileLateTransfer_ok {raw : Value} :
    fileLateTransfer P input accepted raw = .ok after ↔ if isLate input accepted raw then
        ∃ record, FiledAs P input raw record ∧ after = accepted.insert record.signature record
      else after = accepted := by
  unfold fileLateTransfer isLate signatureKey
  cases accepted.lookup ((recordSignature? raw).getD "") with
  | some known => simpa using eq_comm
  | none =>
    by_cases early : input.ownerEpoch < (transferEpoch? raw).getD 0
    · simpa [early, Nat.not_le.mpr early] using eq_comm
    · cases found : lateAuthority? input raw with
      | none => simpa [early] using eq_comm
      | some authority =>
        simp only [Option.isSome_none, Bool.false_eq_true, if_false, early, bind_ok,
          Except.ok.injEq, FiledAs, found, Option.some.injEq, exists_eq_left']
        simp [Nat.le_of_not_lt early, eq_comm]

/-- The late history is filed as a whole: every record it takes in is verified
and stands under its signature. -/
theorem fileLateTransfers_ok {items : List Value} (distinct : (items.map signatureKey).Nodup)
    (signed : ∀ raw ∈ items, recordSignature? raw = some (signatureKey raw)) :
    items.foldlM (fileLateTransfer P input) accepted = .ok after ↔
      ∃ late, List.Forall₂ (FiledAs P input) (items.filter (isLate input accepted)) late ∧
        after = accepted.insertAll (fun record => record.signature) late := by
  induction items generalizing accepted with
  | nil => simp [pure, Except.pure, Table.insertAll, eq_comm]
  | cons raw items ih =>
    rw [List.map_cons, List.nodup_cons] at distinct
    rw [List.forall_mem_cons] at signed
    rw [List.foldlM_cons, bind_ok, List.filter_cons]
    have ih := fun accepted => @ih accepted distinct.2 signed.2
    by_cases late : isLate input accepted raw = true
    · simp only [fileLateTransfer_ok, if_pos late, ih]
      -- the record filed for `raw` does not stand in the way of the others
      have same : ∀ record, FiledAs P input raw record →
          items.filter (isLate input (accepted.insert record.signature record)) =
            items.filter (isLate input accepted) := by
        intro record filed
        refine List.filter_congr fun other held => ?_
        have apart : signatureKey other ≠ record.signature := by
          rw [signature_of_parse filed.parsed signed.1]
          exact fun same => distinct.1 (same ▸ List.mem_map_of_mem held)
        unfold isLate
        rw [Table.lookup_insert_ite, if_neg apart]
      constructor
      · rintro ⟨next, ⟨record, filed, rfl⟩, late, rest, rfl⟩
        exact ⟨record :: late, List.Forall₂.cons filed (same record filed ▸ rest), rfl⟩
      · rintro ⟨late, all, rfl⟩
        rw [List.forall₂_cons_left_iff] at all
        obtain ⟨record, rest, filed, tail, rfl⟩ := all
        exact ⟨_, ⟨record, filed, rfl⟩, rest, (same record filed).symm ▸ tail, rfl⟩
    · simp only [fileLateTransfer_ok, if_neg late, ih]
      simp

end Late

/-! ## The catalog -/

theorem mem_orderedTransfers : r ∈ orderedTransfers records ↔ r ∈ records :=
  mem_sortBy _

theorem orderedCatalog_perm (accepted : TransferTable) :
    (orderedCatalog accepted).Perm accepted.values :=
  (sortBy_perm _ _).trans (Table.orderedValues_perm strKey accepted)

theorem mem_orderedCatalog : r ∈ orderedCatalog accepted ↔ r ∈ accepted.values :=
  (orderedCatalog_perm accepted).mem_iff

theorem orderedCatalog_nodup (keyed : Table.KeyedBy (fun r => r.signature) accepted) :
    ((orderedCatalog accepted).map fun r => r.signature).Nodup :=
  ((sortBy_perm _ _).map _).nodup_iff.mpr (keyed.nodup strKey)

theorem planOwnershipMerge_ok {P : Primitives} {plan : OwnershipMergePlan} :
    planOwnershipMerge P input = .ok plan ↔ ∃ accepted state conflicted,
      (knownValues input).foldlM (fileLateTransfer P input) (catalogTable input.current) =
          .ok accepted ∧
        mergeOutcome P input accepted = .ok (state, conflicted) ∧
        plan = mergePlan input state conflicted := by
  unfold planOwnershipMerge
  simp only [bind_ok, Except.ok.injEq]
  constructor
  · rintro ⟨accepted, filed, ⟨state, conflicted⟩, walked, rfl⟩
    exact ⟨accepted, state, conflicted, filed, walked, rfl⟩
  · rintro ⟨accepted, state, conflicted, filed, walked, rfl⟩
    exact ⟨accepted, filed, (state, conflicted), walked, rfl⟩

end MetaMesh
