import MetaMesh.Identity
import MetaMesh.Lib.Machine

/-!
# Control transfers in parts

`ControlFrameReceiver` of `runtime.rs`.  A logical value above the frame limit is sent as
chunks.  The receiver collects the parts of one transfer at a time; whatever it is fed, it
gives up the transfer or completes it.

The frames are arbitrary, and so are the times at which they arrive.  `Underway` says where
the parts of the pending transfer come from: from the calls since the receiver last held
none.  `reassembly_integrity` is about every value that a run of calls returns.
-/

namespace MetaMesh

open Fallible Machine

def maxControlFrameBytes : Nat := 262144
def controlChunkBytes : Nat := 131072
def maxControlSnapshotBytes : Nat := 25165824
def maxTransferPages : Nat := 256
def maxTransferDeadlineMs : Nat := 600000

def divCeil (n unit : Nat) : Nat :=
  (n + unit - 1) / unit

/-- `str::strip_prefix`. -/
def stripPrefix (start s : String) : Option String :=
  if start.toList.isPrefixOf s.toList then some (String.ofList (s.toList.drop start.toList.length))
  else none

/-- One part of a long message. -/
structure ControlChunk where
  version : UInt8
  workspaceId : String
  transferId : String
  index : Nat
  totalBytes : Nat
  data : String
deriving DecidableEq, Repr

instance : Deserialize ControlChunk where
  fromValue v := do
    let field := fun name => v.structField
      ["version", "workspaceId", "transferId", "index", "totalBytes", "data"] name
    some ⟨← fromField (field "version"), ← fromField (field "workspaceId"),
      ← fromField (field "transferId"), ← fromField (field "index"),
      ← fromField (field "totalBytes"), ← fromField (field "data")⟩

/-- The instant at which a transfer began is in nanoseconds. -/
structure PendingControlTransfer where
  kind : String
  id : String
  totalBytes : Nat
  startedAt : Nat
  parts : Table Nat (List UInt8)

def PendingControlTransfer.put (pending : PendingControlTransfer) (index : Nat)
    (part : List UInt8) : PendingControlTransfer :=
  { pending with parts := pending.parts.insert index part }

/-- The receiver of a workspace, with what it has pending. -/
structure ControlFrameReceiver where
  workspaceId : String
  pending : Option PendingControlTransfer

def ControlChunk.expectedParts (chunk : ControlChunk) : Nat :=
  divCeil chunk.totalBytes controlChunkBytes

def ControlChunk.expectedSize (chunk : ControlChunk) : Nat :=
  if chunk.index + 1 = chunk.expectedParts then
    chunk.totalBytes - chunk.index * controlChunkBytes
  else controlChunkBytes

def validateChunk (chunk : ControlChunk) (workspaceId : String) : Except String Unit :=
  refuse (chunk.version ≠ 2 ∨ chunk.workspaceId ≠ workspaceId ∨ chunk.transferId = "" ∨
    chunk.totalBytes ≤ maxControlFrameBytes ∨ maxControlSnapshotBytes < chunk.totalBytes ∨
    chunk.expectedParts ≤ chunk.index ∨ maxTransferPages < chunk.expectedParts)
    "Invalid mesh control chunk"

namespace ControlFrameReceiver

def new (workspaceId : String) : ControlFrameReceiver :=
  ⟨workspaceId, none⟩

variable (receiver : ControlFrameReceiver)

def clearPending : ControlFrameReceiver :=
  { receiver with pending := none }

/-- The deadline of the pending transfer has passed.  Nothing has elapsed at an instant
before the start. -/
def isExpired (now : Nat) : Bool :=
  receiver.pending.any fun pending =>
    pending.startedAt ≤ now ∧ maxTransferDeadlineMs ≤ (now - pending.startedAt) / 1000000

def expirePendingTransferAt (now : Nat) : ControlFrameReceiver × Bool :=
  if receiver.isExpired now then (receiver.clearPending, true) else (receiver, false)

section Receive

variable (P : Primitives) (fromSlice : List UInt8 → Option Value)

/-- The chunk in a frame that says it is one, with its decoded part. -/
def readChunk (workspaceId : String) (value : Value) :
    Except String (ControlChunk × List UInt8) := do
  let chunk ← okOr (fromValue value : Option ControlChunk) "Invalid mesh control chunk"
  validateChunk chunk workspaceId
  let part ← okOr (P.base64Decode chunk.data) "Invalid mesh control chunk"
  refuse (part.length ≠ chunk.expectedSize) "Invalid mesh control chunk length"
  .ok (chunk, part)

/-- The value of a transfer of which `expectedParts` parts were taken. -/
def assemble (pending : PendingControlTransfer) (expectedParts : Nat) :
    Except String (List UInt8) := do
  let parts ← (List.range expectedParts).mapM fun index =>
    okOr (pending.parts.lookup index) "Incomplete mesh control transfer"
  let value := parts.flatten
  refuse (value.length ≠ pending.totalBytes) "Invalid mesh control snapshot length"
  refuse (∃ expectedDigest ∈ stripPrefix "owner-sha256-" pending.id,
    P.base64Encode (P.sha256 value) ≠ expectedDigest) "Owner workspace transfer digest mismatch"
  .ok value

/-- A chunk is filed under the transfer it belongs to, which it may begin. -/
def takeChunk (receiver : ControlFrameReceiver) (kind : String) (startedAt : Nat)
    (chunk : ControlChunk) (part : List UInt8) :
    ControlFrameReceiver × Except String (Option (List UInt8)) :=
  if receiver.pending.any fun pending =>
      pending.id ≠ chunk.transferId ∨ pending.totalBytes ≠ chunk.totalBytes then
    (receiver.clearPending, .error "Conflicting mesh control transfer")
  else
    let pending := receiver.pending.getD ⟨kind, chunk.transferId, chunk.totalBytes, startedAt, ∅⟩
    if chunk.index ∈ pending.parts then
      (receiver.clearPending, .error "Conflicting mesh control chunk")
    else
      let filled := pending.put chunk.index part
      if filled.parts.keys.length ≠ chunk.expectedParts then
        ({ receiver with pending := some filled }, .ok none)
      else (receiver.clearPending, (assemble P filled chunk.expectedParts).map some)

def isChunk (value : Value) : Bool :=
  (value.get? "version").bind Value.asU64? = some 2

/-- `now` is read when the deadline is checked, `startedAt` when a transfer begins. -/
def receiveKind (receiver : ControlFrameReceiver) (frame : List UInt8) (kind : String)
    (now startedAt : Nat) : ControlFrameReceiver × Except String (Option (List UInt8)) :=
  if receiver.isExpired now then
    (receiver.clearPending, .error "Mesh control transfer deadline exceeded")
  else if receiver.pending.any fun pending => pending.kind ≠ kind then
    (receiver.clearPending, .error "Conflicting mesh control transfer kind")
  else if maxControlFrameBytes < frame.length then
    (receiver, .error "Mesh control frame exceeds size limit")
  else
    match fromSlice frame with
    | none => (receiver, .error "Invalid mesh control frame")
    | some value =>
      if isChunk value then
        match readChunk P receiver.workspaceId value with
        | .error reason => (receiver, .error reason)
        | .ok (chunk, part) => takeChunk P receiver kind startedAt chunk part
      else if receiver.pending.isSome then
        (receiver.clearPending, .error "Incomplete mesh control snapshot")
      else (receiver, .ok (some frame))

def receive (frame : List UInt8) (now startedAt : Nat) :
    ControlFrameReceiver × Except String (Option (List UInt8)) :=
  receiveKind P fromSlice receiver frame "control" now startedAt

end Receive

end ControlFrameReceiver

/-! ## Runs -/

/-- The calls of the receiver. -/
inductive ControlCall
  | receiveKind (frame : List UInt8) (kind : String) (now startedAt : Nat)
  | clearPending
  | expirePendingTransferAt (now : Nat)
deriving DecidableEq, Repr

/-- What a call answers. -/
inductive ControlAnswer
  | received (result : Except String (Option (List UInt8)))
  | cleared
  | expired (isExpired : Bool)

abbrev ControlEvent := Event ControlFrameReceiver ControlCall ControlAnswer

/-- One part of a transfer, with all that tells the transfer. -/
structure TransferPart where
  kind : String
  id : String
  totalBytes : Nat
  index : Nat
  payload : List UInt8
deriving DecidableEq, Repr

/-- The parts a pending transfer holds. -/
def PendingControlTransfer.part (pending : PendingControlTransfer)
    (entry : (_ : Nat) × List UInt8) : TransferPart :=
  ⟨pending.kind, pending.id, pending.totalBytes, entry.1, entry.2⟩

section Runs

variable (P : Primitives) (fromSlice : List UInt8 → Option Value)

def controlStep (receiver : ControlFrameReceiver) :
    ControlCall → ControlFrameReceiver × ControlAnswer
  | .receiveKind frame kind now startedAt =>
    (receiver.receiveKind P fromSlice frame kind now startedAt).map id .received
  | .clearPending => (receiver.clearPending, .cleared)
  | .expirePendingTransferAt now => (receiver.expirePendingTransferAt now).map id .expired

variable (workspaceId : String)

/-- The chunk that a frame carries. -/
def frameChunk (frame : List UInt8) : Option (ControlChunk × List UInt8) :=
  (fromSlice frame).bind fun value =>
    if ControlFrameReceiver.isChunk value then
      (ControlFrameReceiver.readChunk P workspaceId value).toOption
    else none

/-- The part that a call handed over: its frame carries a chunk, and no error came back. -/
def takenPart (event : ControlEvent) : Option TransferPart :=
  match event.call, event.answer with
  | .receiveKind frame kind _ _, .received (.ok _) =>
    (frameChunk P fromSlice event.before.workspaceId frame).map fun taken =>
      ⟨kind, taken.1.transferId, taken.1.totalBytes, taken.1.index, taken.2⟩
  | _, _ => none

/-- The parts handed over by `during`, after `earlier`. -/
def takenParts (earlier during : List ControlCall) : List TransferPart :=
  (events (controlStep P fromSlice) (run (controlStep P fromSlice) (.new workspaceId) earlier)
    during).filterMap (takenPart P fromSlice)

/-- The transfer that is pending after `calls`. -/
def pendingAfter (calls : List ControlCall) : Option PendingControlTransfer :=
  (run (controlStep P fromSlice) (.new workspaceId) calls).pending

/-- `value` is the value of one transfer: it began with `during`, when nothing was pending,
nothing but this transfer was pending until `last` completed it, and nothing was returned
meanwhile.  The parts handed over are one of each index, and `value` joins them in order. -/
structure Reassembled (earlier during : List ControlCall) (last : ControlCall) (kind id : String)
    (totalBytes : Nat) (pieces : List (List UInt8)) (value : List UInt8) : Prop where
  fresh : pendingAfter P fromSlice workspaceId earlier = none
  alone : ∀ part, part <+: during → part ≠ [] → ∃ pending,
    pendingAfter P fromSlice workspaceId (earlier ++ part) = some pending ∧
      pending.kind = kind ∧ pending.id = id ∧ pending.totalBytes = totalBytes
  silent : ∀ event ∈ events (controlStep P fromSlice)
      (run (controlStep P fromSlice) (.new workspaceId) earlier) during,
    ∀ other, event.answer ≠ .received (.ok (some other))
  parts : (takenParts P fromSlice workspaceId earlier (during ++ [last])).Perm
    (pieces.mapIdx fun index payload => ⟨kind, id, totalBytes, index, payload⟩)
  count : pieces.length = divCeil totalBytes controlChunkBytes
  joined : value = pieces.flatten
  sized : value.length = totalBytes
  bounded : maxControlFrameBytes < totalBytes ∧ totalBytes ≤ maxControlSnapshotBytes

end Runs

/-! ## What a call can do -/

open ControlFrameReceiver (assemble readChunk takeChunk isChunk expirePendingTransferAt)

section Outcomes

variable {P : Primitives} {fromSlice : List UInt8 → Option Value}

/-- `pending` is the transfer that a chunk belongs to, already begun or empty. -/
structure Receives (receiver : ControlFrameReceiver) (kind : String) (chunk : ControlChunk)
    (pending : PendingControlTransfer) : Prop where
  begun : receiver.pending = some pending ∨ receiver.pending = none ∧ pending.parts = ∅
  kind : pending.kind = kind
  id : pending.id = chunk.transferId
  totalBytes : pending.totalBytes = chunk.totalBytes

variable (P fromSlice) in
/-- The ways a call ends. -/
inductive ControlOutcome (receiver : ControlFrameReceiver) (call : ControlCall) : Prop
  | keeps (answer : ControlAnswer)
      (ends : controlStep P fromSlice receiver call = (receiver, answer))
      (idle : ∀ result, answer ≠ .received (.ok result))
  | clears (answer : ControlAnswer)
      (ends : controlStep P fromSlice receiver call = (receiver.clearPending, answer))
      (idle : ∀ result, answer ≠ .received (.ok result))
  | passes (frame : List UInt8) (kind : String) (now startedAt : Nat)
      (isCall : call = .receiveKind frame kind now startedAt) (free : receiver.pending = none)
      (whole : frameChunk P fromSlice receiver.workspaceId frame = none)
      (ends : controlStep P fromSlice receiver call = (receiver, .received (.ok (some frame))))
  | takes (frame : List UInt8) (kind : String) (now startedAt : Nat) (chunk : ControlChunk)
      (part : List UInt8) (pending : PendingControlTransfer)
      (isCall : call = .receiveKind frame kind now startedAt)
      (carries : frameChunk P fromSlice receiver.workspaceId frame = some (chunk, part))
      (receives : Receives receiver kind chunk pending) (new : chunk.index ∉ pending.parts)
      (ends : controlStep P fromSlice receiver call =
        ({ receiver with pending := some (pending.put chunk.index part) }, .received (.ok none)))
  | completes (frame : List UInt8) (kind : String) (now startedAt : Nat) (chunk : ControlChunk)
      (part : List UInt8) (pending : PendingControlTransfer) (value : List UInt8)
      (isCall : call = .receiveKind frame kind now startedAt)
      (carries : frameChunk P fromSlice receiver.workspaceId frame = some (chunk, part))
      (receives : Receives receiver kind chunk pending) (new : chunk.index ∉ pending.parts)
      (full : (pending.put chunk.index part).parts.keys.length = chunk.expectedParts)
      (assembled : ControlFrameReceiver.assemble P (pending.put chunk.index part)
        chunk.expectedParts = .ok value)
      (ends : controlStep P fromSlice receiver call =
        (receiver.clearPending, .received (.ok (some value))))

variable {receiver : ControlFrameReceiver} {kind : String} {chunk : ControlChunk}
  {frame part : List UInt8}

/-- The transfer of a chunk is the pending one, or a new one. -/
theorem receives_pending (startedAt : Nat)
    (ofKind : ¬ receiver.pending.any fun pending => pending.kind ≠ kind)
    (agrees : ¬ receiver.pending.any fun pending =>
      pending.id ≠ chunk.transferId ∨ pending.totalBytes ≠ chunk.totalBytes) :
    Receives receiver kind chunk (receiver.pending.getD
      ⟨kind, chunk.transferId, chunk.totalBytes, startedAt, ∅⟩) := by
  cases held : receiver.pending with
  | none => exact ⟨.inr ⟨held, rfl⟩, rfl, rfl, rfl⟩
  | some pending =>
    simp only [held, Option.any_some, decide_eq_true_eq, not_or, not_not] at ofKind agrees
    exact ⟨.inl held, ofKind, agrees.1, agrees.2⟩

theorem outcome_takeChunk {now startedAt : Nat}
    (ofKind : ¬ receiver.pending.any fun pending => pending.kind ≠ kind)
    (carries : frameChunk P fromSlice receiver.workspaceId frame = some (chunk, part))
    (isTake : receiver.receiveKind P fromSlice frame kind now startedAt =
      receiver.takeChunk P kind startedAt chunk part) :
    ControlOutcome P fromSlice receiver (.receiveKind frame kind now startedAt) := by
  have isStep : controlStep P fromSlice receiver (.receiveKind frame kind now startedAt) =
      (receiver.takeChunk P kind startedAt chunk part).map id .received :=
    congrArg (Prod.map id ControlAnswer.received) isTake
  unfold takeChunk at isStep
  split at isStep
  · exact .clears _ isStep (by simp)
  · next agrees =>
    have receives := receives_pending startedAt ofKind agrees
    dsimp only at isStep
    split at isStep
    · exact .clears _ isStep (by simp)
    · next new =>
      split at isStep
      · exact .takes frame kind now startedAt chunk part _ rfl carries receives new isStep
      · next full =>
        cases assembled : assemble P _ chunk.expectedParts with
        | error reason =>
          rw [assembled] at isStep
          exact .clears _ isStep (by simp [Except.map])
        | ok value =>
          rw [assembled] at isStep
          exact .completes frame kind now startedAt chunk part _ value rfl carries receives
            new (not_not.mp full) assembled isStep

/-- A chunk that can be read is taken, unless the pending transfer is over. -/
theorem receiveKind_of_read {now startedAt : Nat} {value : Value}
    (live : receiver.isExpired now = false)
    (ofKind : (receiver.pending.any fun pending => pending.kind ≠ kind) = false)
    (small : frame.length ≤ maxControlFrameBytes) (parsed : fromSlice frame = some value)
    (isChunk : isChunk value = true)
    (read : readChunk P receiver.workspaceId value = .ok (chunk, part)) :
    receiver.receiveKind P fromSlice frame kind now startedAt =
      receiver.takeChunk P kind startedAt chunk part := by
  unfold ControlFrameReceiver.receiveKind
  rw [live, if_neg Bool.false_ne_true, ofKind, if_neg Bool.false_ne_true,
    if_neg (Nat.not_lt.mpr small), parsed]
  dsimp only
  rw [if_pos isChunk, read]

variable (P fromSlice) in
/-- Every call ends in one of the ways. -/
theorem controlStep_outcome (receiver : ControlFrameReceiver) (call : ControlCall) :
    ControlOutcome P fromSlice receiver call := by
  cases call with
  | clearPending => exact .clears .cleared rfl (by simp)
  | expirePendingTransferAt now =>
    by_cases expired : receiver.isExpired now
    · exact .clears (.expired true)
        (by simp [controlStep, expirePendingTransferAt, expired]) (by simp)
    · exact .keeps (.expired false)
        (by simp [controlStep, expirePendingTransferAt, expired]) (by simp)
  | receiveKind frame kind now startedAt =>
    have isReceive := ControlFrameReceiver.receiveKind.eq_def P fromSlice receiver frame kind now
      startedAt
    have ends {result} (is : receiver.receiveKind P fromSlice frame kind now startedAt = result) :
        controlStep P fromSlice receiver (.receiveKind frame kind now startedAt) =
          result.map id .received := is ▸ rfl
    split at isReceive
    · exact .clears _ (ends isReceive) (by simp)
    split at isReceive
    · exact .clears _ (ends isReceive) (by simp)
    next ofKind =>
    split at isReceive
    · exact .keeps _ (ends isReceive) (by simp)
    split at isReceive
    · exact .keeps _ (ends isReceive) (by simp)
    next value parsed =>
    split at isReceive
    · next isChunk =>
      split at isReceive
      · exact .keeps _ (ends isReceive) (by simp)
      · next chunk part read =>
        refine outcome_takeChunk ofKind ?_ isReceive
        simp [frameChunk, parsed, isChunk, read, Except.toOption]
    · next noChunk =>
      have whole : frameChunk P fromSlice receiver.workspaceId frame = none := by
        simp [frameChunk, parsed, noChunk]
      split at isReceive
      · exact .clears _ (ends isReceive) (by simp)
      · next free =>
        exact .passes frame kind now startedAt rfl (by simpa using free) whole
          (ends isReceive)

/-- A frame that carries a chunk was checked against the limits. -/
theorem frameChunk_sound {workspaceId : String}
    (carries : frameChunk P fromSlice workspaceId frame = some (chunk, part)) :
    maxControlFrameBytes < chunk.totalBytes ∧ chunk.totalBytes ≤ maxControlSnapshotBytes := by
  obtain ⟨value, _, read⟩ := Option.bind_eq_some_iff.mp carries
  split at read
  · cases result : readChunk P workspaceId value with
    | error reason => simp [result, Except.toOption] at read
    | ok taken =>
      obtain rfl : taken = (chunk, part) := by simpa [result, Except.toOption] using read
      obtain ⟨chunk', _, result⟩ := bind_ok.mp result
      obtain ⟨_, valid, result⟩ := bind_ok.mp result
      obtain ⟨part', _, result⟩ := bind_ok.mp result
      obtain ⟨_, result⟩ := refuse_bind_ok.mp result
      obtain ⟨rfl, rfl⟩ := Prod.mk.inj (Except.ok.inj result)
      have limits := refuse_ok.mp valid
      omega
  · cases read

/-- A value is assembled from one part of each index. -/
theorem assemble_sound {pending : PendingControlTransfer} {count : Nat} {value : List UInt8}
    (assembled : assemble P pending count = .ok value) :
    ∃ pieces : List (List UInt8), pieces.length = count ∧ value = pieces.flatten ∧
      value.length = pending.totalBytes ∧
      ∀ index piece, pieces[index]? = some piece → pending.parts.lookup index = some piece := by
  obtain ⟨pieces, read, assembled⟩ := bind_ok.mp assembled
  obtain ⟨sized, assembled⟩ := refuse_bind_ok.mp assembled
  obtain ⟨_, assembled⟩ := refuse_bind_ok.mp assembled
  obtain rfl := Except.ok.inj assembled
  have each := mapM_ok.mp read
  refine ⟨pieces, by simpa using each.length_eq.symm, rfl, not_not.mp sized, ?_⟩
  intro index piece found
  obtain ⟨within, rfl⟩ := List.getElem?_eq_some_iff.mp found
  have here := each.get (by simpa [each.length_eq] using within) within
  rw [List.get_eq_getElem, List.getElem_range] at here
  exact okOr_ok.mp here

end Outcomes

/-! ## Transfers -/

section Transfers

variable {P : Primitives} {fromSlice : List UInt8 → Option Value} {workspaceId : String}
  {earlier during calls : List ControlCall} {pending : PendingControlTransfer}

variable (P fromSlice workspaceId) in
/-- The pending transfer began after `earlier`, when nothing was pending, and `during` handed
over the parts it holds. -/
structure Underway (earlier during : List ControlCall) (pending : PendingControlTransfer) :
    Prop where
  fresh : pendingAfter P fromSlice workspaceId earlier = none
  alone : ∀ part, part <+: during → part ≠ [] → ∃ current,
    pendingAfter P fromSlice workspaceId (earlier ++ part) = some current ∧
      current.kind = pending.kind ∧ current.id = pending.id ∧
      current.totalBytes = pending.totalBytes
  silent : ∀ event ∈ events (controlStep P fromSlice)
      (run (controlStep P fromSlice) (.new workspaceId) earlier) during,
    ∀ other, event.answer ≠ .received (.ok (some other))
  parts : (takenParts P fromSlice workspaceId earlier during).Perm
    (pending.parts.entries.map pending.part)
  bounded : maxControlFrameBytes < pending.totalBytes ∧
    pending.totalBytes ≤ maxControlSnapshotBytes

/-- The state after one more call. -/
theorem pendingAfter_append_singleton (call : ControlCall) :
    pendingAfter P fromSlice workspaceId (calls ++ [call]) =
      (controlStep P fromSlice (run (controlStep P fromSlice) (.new workspaceId) calls)
        call).1.pending := by
  rw [pendingAfter, run_append, run_cons, run_nil]

theorem takenParts_append_singleton (call : ControlCall) :
    takenParts P fromSlice workspaceId earlier (during ++ [call]) =
      takenParts P fromSlice workspaceId earlier during ++
        (takenPart P fromSlice (eventAt (controlStep P fromSlice)
          (run (controlStep P fromSlice) (.new workspaceId) (earlier ++ during)) call)).toList := by
  unfold takenParts
  rw [events_append, List.filterMap_append, run_append]
  cases taken : takenPart P fromSlice (eventAt (controlStep P fromSlice)
      (run (controlStep P fromSlice) (run (controlStep P fromSlice) (.new workspaceId) earlier)
        during) call) <;> simp [taken]

variable {part frame : List UInt8} {answer : ControlAnswer}

/-- A part that is new goes to the parts held. -/
theorem entries_put {index : Nat} (new : index ∉ pending.parts) :
    (pending.put index part).parts.entries.map (pending.put index part).part =
      ⟨pending.kind, pending.id, pending.totalBytes, index, part⟩ ::
        pending.parts.entries.map pending.part := by
  simp only [PendingControlTransfer.put, AList.entries_insert_of_notMem new]
  rfl

/-- A call that neither clears the transfer nor returns a value leaves it underway. -/
theorem Underway.extend (underway : Underway P fromSlice workspaceId earlier during pending)
    (call : ControlCall) {next : PendingControlTransfer} {after : ControlFrameReceiver}
    (ends : controlStep P fromSlice
      (run (controlStep P fromSlice) (.new workspaceId) (earlier ++ during)) call = (after, answer))
    (held : after.pending = some next)
    (same : next.kind = pending.kind ∧ next.id = pending.id ∧
      next.totalBytes = pending.totalBytes) (quiet : ∀ other, answer ≠ .received (.ok (some other)))
    (takes : (pending.parts.entries.map pending.part ++ (takenPart P fromSlice
        ⟨run (controlStep P fromSlice) (.new workspaceId) (earlier ++ during), call,
          answer⟩).toList).Perm (next.parts.entries.map next.part)) :
    Underway P fromSlice workspaceId earlier (during ++ [call]) next := by
  have isEvent : eventAt (controlStep P fromSlice)
      (run (controlStep P fromSlice) (.new workspaceId) (earlier ++ during)) call =
      ⟨run (controlStep P fromSlice) (.new workspaceId) (earlier ++ during), call, answer⟩ := by
    rw [eventAt, ends]
  constructor
  · exact underway.fresh
  · intro part within some'
    rcases List.prefix_concat_iff.mp within with rfl | within
    · refine ⟨next, ?_, rfl, rfl, rfl⟩
      rw [← List.append_assoc, pendingAfter_append_singleton, ends]
      exact held
    · obtain ⟨current, isCurrent, kind, id, totalBytes⟩ := underway.alone part within some'
      exact ⟨current, isCurrent, kind.trans same.1.symm, id.trans same.2.1.symm,
        totalBytes.trans same.2.2.symm⟩
  · intro event member
    rw [events_append, List.mem_append, ← run_append] at member
    rcases member with earlier' | here
    · exact underway.silent event earlier'
    · rw [events_cons, events_nil, List.mem_singleton, isEvent] at here
      rw [here]
      exact quiet
  · rw [takenParts_append_singleton, isEvent]
    exact (underway.parts.append_right _).trans takes
  · rw [same.2.2]
    exact underway.bounded

variable {chunk : ControlChunk}

/-- The transfer of a chunk is underway, if only from here on. -/
theorem exists_underway_of_receives {kind : String}
    (held : ∀ pending, pendingAfter P fromSlice workspaceId calls = some pending →
      ∃ earlier during, calls = earlier ++ during ∧
        Underway P fromSlice workspaceId earlier during pending)
    (carries : frameChunk P fromSlice
      (run (controlStep P fromSlice) (.new workspaceId) calls).workspaceId frame =
        some (chunk, part))
    (receives : Receives (run (controlStep P fromSlice) (.new workspaceId) calls) kind chunk
      pending) :
    ∃ earlier during, calls = earlier ++ during ∧
      Underway P fromSlice workspaceId earlier during pending := by
  rcases receives.begun with begun | ⟨free, empty⟩
  · exact held pending begun
  · refine ⟨calls, [], (List.append_nil calls).symm, free, ?_, ?_, ?_, ?_⟩
    · intro part within some'
      exact absurd (List.prefix_nil.mp within) some'
    · intro event member
      cases member
    · rw [empty]
      exact List.Perm.refl _
    · rw [receives.totalBytes]
      exact frameChunk_sound carries

variable {receiver : ControlFrameReceiver}

theorem takenPart_of_idle {call : ControlCall} (idle : ∀ result, answer ≠ .received (.ok result)) :
    takenPart P fromSlice ⟨receiver, call, answer⟩ = none := by
  unfold takenPart
  split
  · next result _ isAnswer => exact absurd isAnswer (idle result)
  · rfl

theorem takenPart_of_carries {kind : String} {now startedAt : Nat} {result : Option (List UInt8)}
    (carries : frameChunk P fromSlice receiver.workspaceId frame = some (chunk, part))
    (receives : Receives receiver kind chunk pending) :
    takenPart P fromSlice
      ⟨receiver, .receiveKind frame kind now startedAt, .received (.ok result)⟩ =
      some ⟨pending.kind, pending.id, pending.totalBytes, chunk.index, part⟩ := by
  rw [receives.kind, receives.id, receives.totalBytes]
  simp [takenPart, carries]

/-- Whatever transfer is pending is underway. -/
theorem exists_underway (calls : List ControlCall) :
    ∀ pending, pendingAfter P fromSlice workspaceId calls = some pending →
      ∃ earlier during, calls = earlier ++ during ∧
        Underway P fromSlice workspaceId earlier during pending := by
  induction calls using List.reverseRecOn with
  | nil =>
    intro pending held
    cases held
  | append_singleton calls call ih =>
    intro pending held
    rw [pendingAfter_append_singleton] at held
    cases controlStep_outcome P fromSlice
        (run (controlStep P fromSlice) (.new workspaceId) calls) call with
    | keeps answer ends idle =>
      rw [ends] at held
      obtain ⟨earlier, during, rfl, underway⟩ := ih pending held
      refine ⟨earlier, during ++ [call], List.append_assoc _ _ _,
        underway.extend call ends held ⟨rfl, rfl, rfl⟩ (fun other => idle _) ?_⟩
      rw [takenPart_of_idle idle, Option.toList_none, List.append_nil]
    | clears answer ends idle =>
      rw [ends] at held
      cases held
    | passes frame kind now startedAt isCall free whole ends =>
      rw [ends] at held
      cases free.symm.trans held
    | takes frame kind now startedAt chunk part begun isCall carries receives new ends =>
      rw [ends] at held
      obtain rfl := Option.some.inj held
      obtain ⟨earlier, during, rfl, underway⟩ := exists_underway_of_receives ih carries receives
      refine ⟨earlier, during ++ [call], List.append_assoc _ _ _,
        underway.extend call ends rfl ⟨rfl, rfl, rfl⟩ (by simp) ?_⟩
      rw [isCall, takenPart_of_carries carries receives, entries_put new]
      exact List.perm_append_singleton _ _
    | completes frame kind now startedAt chunk part begun value isCall carries receives new full
        assembled ends =>
        rw [ends] at held
        cases held

/-- As many parts as there are pieces, each piece among them, are the pieces. -/
theorem parts_perm_pieces {pieces : List (List UInt8)}
    (count : pending.parts.keys.length = pieces.length)
    (found : ∀ index piece, pieces[index]? = some piece → pending.parts.lookup index = some piece) :
    (pending.parts.entries.map pending.part).Perm (pieces.mapIdx fun index payload =>
        ⟨pending.kind, pending.id, pending.totalBytes, index, payload⟩) := by
  have isMap : (pieces.mapIdx fun index payload =>
      (⟨pending.kind, pending.id, pending.totalBytes, index, payload⟩ : TransferPart)) =
      (pieces.mapIdx fun index payload => (⟨index, payload⟩ : (_ : Nat) × List UInt8)).map
        pending.part := by
    exact List.ext_getElem (by simp) (by simp [PendingControlTransfer.part])
  rw [isMap]
  refine List.Perm.map _ (List.Perm.symm ?_)
  have distinct : (pieces.mapIdx fun index payload =>
      (⟨index, payload⟩ : (_ : Nat) × List UInt8)).Nodup := by
    rw [List.nodup_iff_injective_getElem]
    intro first second same
    simp only [List.getElem_mapIdx, Sigma.mk.injEq] at same
    exact Fin.ext same.1
  refine (List.subperm_of_subset distinct ?_).perm_of_length_le ?_
  · intro entry member
    obtain ⟨index, within, rfl⟩ := List.mem_mapIdx.mp member
    exact AList.mem_lookup_iff.mp (found index _ (List.getElem?_eq_getElem within))
  · rw [List.length_mapIdx, ← count]
    exact Nat.le_of_eq (by simp [AList.keys, List.keys])

theorem workspaceId_run (calls : List ControlCall) :
    (run (controlStep P fromSlice) (.new workspaceId) calls).workspaceId = workspaceId := by
  suffices keeps : ∀ receiver call, receiver.workspaceId = workspaceId →
      (controlStep P fromSlice receiver call).1.workspaceId = workspaceId from
    run_keeps keeps rfl calls
  intro receiver call isId
  cases controlStep_outcome P fromSlice receiver call with
  | keeps answer ends idle => rw [ends]; exact isId
  | clears answer ends idle => rw [ends]; exact isId
  | passes _ _ _ _ _ _ _ ends => rw [ends]; exact isId
  | takes _ _ _ _ _ _ _ _ _ _ _ ends => rw [ends]; exact isId
  | completes _ _ _ _ _ _ _ _ _ _ _ _ _ _ ends => rw [ends]; exact isId

/-- A value that a run returns is the frame itself, or joins the parts of one transfer. -/
theorem reassembly_integrity {before : List ControlCall} {frame value : List UInt8}
    {kind : String} {now startedAt : Nat}
    (returned : ((run (controlStep P fromSlice) (.new workspaceId) before).receiveKind P fromSlice
      frame kind now startedAt).2 = .ok (some value)) :
    (value = frame ∧ frameChunk P fromSlice workspaceId frame = none ∧
      pendingAfter P fromSlice workspaceId before = none) ∨
    ∃ earlier during id totalBytes pieces, before = earlier ++ during ∧
      Reassembled P fromSlice workspaceId earlier during
        (.receiveKind frame kind now startedAt) kind id totalBytes pieces value := by
  have answered : (controlStep P fromSlice (run (controlStep P fromSlice) (.new workspaceId) before)
      (.receiveKind frame kind now startedAt)).2 = .received (.ok (some value)) :=
    congrArg ControlAnswer.received returned
  cases controlStep_outcome P fromSlice (run (controlStep P fromSlice) (.new workspaceId) before)
      (.receiveKind frame kind now startedAt) with
  | keeps answer ends idle
  | clears answer ends idle =>
    rw [ends] at answered
    exact absurd answered (idle _)
  | passes frame' kind' now' startedAt' isCall free whole ends =>
    rw [ends] at answered
    cases isCall
    cases answered
    rw [workspaceId_run] at whole
    exact .inl ⟨rfl, whole, free⟩
  | takes frame' kind' now' startedAt' chunk part pending isCall carries receives new ends =>
    rw [ends] at answered
    cases answered
  | completes frame' kind' now' startedAt' chunk part pending value' isCall carries receives new
      full assembled ends =>
      rw [ends] at answered
      cases isCall
      cases answered
      obtain ⟨earlier, during, rfl, underway⟩ :=
        exists_underway_of_receives (exists_underway before) carries receives
      obtain ⟨pieces, count, joined, sized, found⟩ := assemble_sound assembled
      have isEvent : eventAt (controlStep P fromSlice)
          (run (controlStep P fromSlice) (.new workspaceId) (earlier ++ during))
          (.receiveKind frame kind now startedAt) =
          ⟨run (controlStep P fromSlice) (.new workspaceId) (earlier ++ during),
            .receiveKind frame kind now startedAt, .received (.ok (some value))⟩ := by
        rw [eventAt, ends]
      refine .inr ⟨earlier, during, pending.id, pending.totalBytes, pieces, rfl, underway.fresh, ?_,
        underway.silent, ?_, ?_, joined, sized, underway.bounded⟩
      · intro part within some'
        rw [← receives.kind]
        exact underway.alone part within some'
      · rw [takenParts_append_singleton, isEvent, takenPart_of_carries carries receives,
          ← receives.kind]
        refine ((underway.parts.append_right _).trans (List.perm_append_singleton _ _)).trans ?_
        rw [← entries_put new]
        exact parts_perm_pieces (full.trans count.symm) found
      · rw [count, receives.totalBytes]
        rfl

end Transfers

namespace Sample

/-- The third part is one byte, the others are `full`. -/
def chunkPrimitives (full : List UInt8) : Primitives :=
  { primitives with base64Decode := fun data => some (if data = "one" then [7] else full) }

/-- The chunks of a value of one byte above the frame limit. -/
def chunk (index : Nat) : ControlChunk :=
  ⟨2, "workspace", "transfer", index, 262145, if index = 2 then "one" else "full"⟩

def chunkValue (index : Nat) : Value :=
  .object [("version", toValue 2), ("workspaceId", toValue "workspace"),
    ("transferId", toValue "transfer"), ("index", toValue index), ("totalBytes", toValue 262145),
    ("data", toValue (chunk index).data)]

def chunkFromSlice (frame : List UInt8) : Option Value :=
  frame.head?.map fun index => chunkValue index.toNat

def chunkCall (index : UInt8) : ControlCall :=
  .receiveKind [index] "control" 0 0

def chunkReceiver (parts : Table Nat (List UInt8)) : ControlFrameReceiver :=
  ⟨"workspace", some ⟨"control", "transfer", 262145, 0, parts⟩⟩

theorem chunkReceiver_live (parts : Table Nat (List UInt8)) :
    (chunkReceiver parts).isExpired 0 = false := by
  simp [ControlFrameReceiver.isExpired, chunkReceiver, maxTransferDeadlineMs]

section Chunks

variable {full : List UInt8} (sized : full.length = controlChunkBytes)
include sized

theorem chunk_read {index : Nat} (isFull : index < 2) :
    readChunk (chunkPrimitives full) "workspace" (chunkValue index) = .ok (chunk index, full) := by
  obtain rfl | rfl : index = 0 ∨ index = 1 := by omega
  · show (refuse (full.length ≠ 131072) _ >>= fun _ => .ok _) = _
    rw [sized]
    rfl
  · show (refuse (full.length ≠ 131072) _ >>= fun _ => .ok _) = _
    rw [sized]
    rfl

/-- The last part comes first. -/
theorem chunk_parts : run (controlStep (chunkPrimitives full) chunkFromSlice) (.new "workspace")
    [chunkCall 2, chunkCall 0] = chunkReceiver (AList.insert 0 full (AList.insert 2 [7] ∅)) := by
  have first : (controlStep (chunkPrimitives full) chunkFromSlice (.new "workspace")
      (chunkCall 2)).1 = chunkReceiver (AList.insert 2 [7] ∅) := rfl
  have second : (chunkReceiver (AList.insert 2 [7] ∅)).receiveKind (chunkPrimitives full)
      chunkFromSlice [0] "control" 0 0 = _ :=
    receiveKind_of_read (chunkReceiver_live _) rfl (by decide) rfl rfl
      (chunk_read sized Nat.zero_lt_two)
  rw [run_cons, run_cons, run_nil, first]
  exact congrArg Prod.fst second

theorem chunk_value : ((run (controlStep (chunkPrimitives full) chunkFromSlice) (.new "workspace")
    [chunkCall 2, chunkCall 0]).receiveKind (chunkPrimitives full) chunkFromSlice [1] "control"
      0 0).2 = .ok (some (full ++ (full ++ [7]))) := by
  have third : (chunkReceiver (AList.insert 0 full (AList.insert 2 [7] ∅))).receiveKind
      (chunkPrimitives full) chunkFromSlice [1] "control" 0 0 = _ :=
    receiveKind_of_read (chunkReceiver_live _) rfl (by decide) rfl rfl
      (chunk_read sized Nat.one_lt_two)
  rw [chunk_parts sized, third]
  have joined : assemble (chunkPrimitives full) ⟨"control", "transfer", 262145, 0,
      AList.insert 1 full (AList.insert 0 full (AList.insert 2 [7] ∅))⟩ 3 =
      .ok (full ++ (full ++ [7])) := by
    have read : ((List.range 3).mapM fun index => okOr ((AList.insert 1 full (AList.insert 0 full
        (AList.insert 2 [7] ∅)) : Table Nat (List UInt8)).lookup index)
        "Incomplete mesh control transfer") = .ok [full, full, [7]] := rfl
    have noDigest : stripPrefix "owner-sha256-" "transfer" = none := rfl
    rw [assemble, read]
    simp [refuse, sized, controlChunkBytes, noDigest]
  have expected : (chunk (UInt8.toNat 1)).expectedParts = 3 := by decide
  unfold takeChunk
  rw [expected]
  exact congrArg (Except.map some) joined

end Chunks

end Sample

open Sample

theorem reassembly_integrity_sample : ∃ earlier during id totalBytes pieces,
    [chunkCall 2, chunkCall 0] = earlier ++ during ∧
      Reassembled (chunkPrimitives (List.replicate controlChunkBytes 0))
        chunkFromSlice "workspace" earlier during (chunkCall 1) "control" id totalBytes
        pieces (List.replicate controlChunkBytes 0 ++
          (List.replicate controlChunkBytes 0 ++ [7])) := by
  have sized : (List.replicate controlChunkBytes (0 : UInt8)).length = controlChunkBytes :=
    List.length_replicate
  rcases reassembly_integrity (chunk_value sized) with
    ⟨_, _, free⟩ | reassembled
  · rw [pendingAfter, chunk_parts sized] at free
    cases free
  · exact reassembled

end MetaMesh
