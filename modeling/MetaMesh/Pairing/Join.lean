import MetaMesh.Pairing.Codec

/-!
# The workspace join handshake

`WorkspaceJoinHandshake` of `pairing.rs`: a guest asks to join, the host accepts or rejects,
and the guest acknowledges.  `JoinSystem` puts a host and a guest with one secret side by side;
each receives what the other sent, in any order and any number of times.

The stages of a handshake follow one after another (`JoinReached`).  The two sides agree on
the outcome exactly if the host says what it means: `join_agreement`.
-/

namespace MetaMesh

open Fallible

def maxWorkspaceJoinErrorBytes : Nat := 512

/-- The longest run of whole characters within a number of bytes. -/
def takeWithin : Nat → List Char → List Char
  | _, [] => []
  | limit, c :: cs => if c.utf8Size ≤ limit then c :: takeWithin (limit - c.utf8Size) cs else []

/-- The message up to the last character boundary within the limit. -/
def boundedJoinError (message : String) : String :=
  String.ofList (takeWithin maxWorkspaceJoinErrorBytes message.toList)

/-- The two sides of a join. -/
inductive WorkspaceJoinSide
  | host
  | guest
deriving DecidableEq, Repr

/-- What a side waits for. -/
inductive WorkspaceJoinPhase
  | readyRequest
  | awaitingRequest
  | awaitingResponse
  | awaitingAck
  | complete
deriving DecidableEq, Repr

/-- The host's answer, also as the guest reads it. -/
inductive WorkspaceJoinResponse
  | accepted (payload : List UInt8)
  | rejected (error : String)
deriving DecidableEq, Repr

/-- The guest's last word, as the host reads it. -/
inductive WorkspaceJoinAck
  | accepted (payload : List UInt8)
  | rejected (error : String)
deriving DecidableEq, Repr

/-- One side of a join. -/
structure WorkspaceJoinHandshake where
  secret : String
  side : WorkspaceJoinSide
  phase : WorkspaceJoinPhase
  response : Option WorkspaceJoinResponse
deriving DecidableEq, Repr

/-- What the host sends for a response. -/
def WorkspaceJoinResponse.payload : WorkspaceJoinResponse → List UInt8
  | accepted payload => payload
  | rejected error => errorText error

def isObject : Value → Bool
  | .object _ => true
  | _ => false

namespace WorkspaceJoinHandshake

/-- The guest is about to ask, and the host waits to be asked. -/
def new (secret : String) (side : WorkspaceJoinSide) : Except String WorkspaceJoinHandshake := do
  refuse (secret = "") "Pairing frame invalid"
  let phase := match side with
    | .host => WorkspaceJoinPhase.awaitingRequest
    | .guest => WorkspaceJoinPhase.readyRequest
  .ok ⟨secret, side, phase, none⟩

def host (secret : String) : Except String WorkspaceJoinHandshake := new secret .host

def guest (secret : String) : Except String WorkspaceJoinHandshake := new secret .guest

/-- Every call belongs to one side and one phase. -/
def require (handshake : WorkspaceJoinHandshake) (side : WorkspaceJoinSide)
    (phase : WorkspaceJoinPhase) : Except String Unit :=
  refuse (handshake.side ≠ side ∨ handshake.phase ≠ phase)
    "Workspace join handshake out of sequence"

section Calls

variable (json : PairingJson) (handshake : WorkspaceJoinHandshake)

/-- The payload is the text of an object. -/
def readObject (payload : List UInt8) (invalid : String) : Except String Value := do
  let value ← okOr (json.fromSlice payload) invalid
  refuse (isObject value = false) invalid
  .ok value

/-- The guest asks, with an object. -/
def sendRequest (payload : List UInt8) : Except String (WorkspaceJoinHandshake × List UInt8) := do
  handshake.require .guest .readyRequest
  let _ ← readObject json payload "Workspace join request invalid"
  let frame ← PairingCodec.encode "workspace-join-request" handshake.secret payload
  .ok ({ handshake with phase := .awaitingResponse }, frame)

/-- The host hears the request. -/
def receiveRequest (frame : List UInt8) : Except String (WorkspaceJoinHandshake × List UInt8) := do
  handshake.require .host .awaitingRequest
  let payload ← PairingCodec.decode json frame "workspace-join-request" handshake.secret
  let _ ← readObject json payload "Workspace join request invalid"
  .ok ({ handshake with phase := .awaitingResponse }, payload)

/-- The host accepts, with an object. -/
def respond (payload : List UInt8) : Except String (WorkspaceJoinHandshake × List UInt8) := do
  handshake.require .host .awaitingResponse
  let _ ← readObject json payload "Workspace join response invalid"
  let frame ← PairingCodec.encode "workspace-join-response" handshake.secret payload
  .ok ({ handshake with response := some (.accepted payload), phase := .awaitingAck }, frame)

/-- The host refuses, with a message that is cut to the limit. -/
def reject (message : String) : Except String (WorkspaceJoinHandshake × List UInt8) := do
  handshake.require .host .awaitingResponse
  let error := boundedJoinError message
  let frame ← PairingCodec.encode "workspace-join-response" handshake.secret (errorText error)
  .ok ({ handshake with response := some (.rejected error), phase := .awaitingAck }, frame)

/-- A response with an `error` field is a rejection. -/
def readResponse (payload : List UInt8) : Except String WorkspaceJoinResponse := do
  let value ← readObject json payload "Workspace join response invalid"
  match value.get? "error" with
  | some error =>
    let message ← okOr (error.asStr?.filter (· ≠ "")) "Workspace join response invalid"
    .ok (.rejected (boundedJoinError message))
  | none => .ok (.accepted payload)

/-- The guest hears the answer. -/
def receiveResponse (frame : List UInt8) :
    Except String (WorkspaceJoinHandshake × WorkspaceJoinResponse) := do
  handshake.require .guest .awaitingResponse
  let payload ← PairingCodec.decode json frame "workspace-join-response" handshake.secret
  let response ← readResponse json payload
  .ok ({ handshake with response := some response, phase := .awaitingAck }, response)

def finishGuestAck (payload : List UInt8) :
    Except String (WorkspaceJoinHandshake × List UInt8) := do
  let frame ← PairingCodec.encode "sync-ack" handshake.secret payload
  .ok ({ handshake with phase := .complete }, frame)

def isAccepted : Option WorkspaceJoinResponse → Bool
  | some (.accepted _) => true
  | _ => false

def isRejected : Option WorkspaceJoinResponse → Bool
  | some (.rejected _) => true
  | _ => false

/-- The guest has heard that it was refused. -/
def acknowledgeRejection : Except String (WorkspaceJoinHandshake × List UInt8) := do
  handshake.require .guest .awaitingAck
  refuse (isRejected handshake.response = false) "Workspace join acknowledgement out of sequence"
  handshake.finishGuestAck []

/-- The guest has joined. -/
def acknowledgeSuccess (payload : List UInt8) :
    Except String (WorkspaceJoinHandshake × List UInt8) := do
  handshake.require .guest .awaitingAck
  refuse (isAccepted handshake.response = false) "Workspace join acknowledgement out of sequence"
  handshake.finishGuestAck payload

/-- The guest was accepted and cannot join. -/
def rejectAcceptedResponse (message : String) :
    Except String (WorkspaceJoinHandshake × List UInt8) := do
  handshake.require .guest .awaitingAck
  refuse (isAccepted handshake.response = false) "Workspace join acknowledgement out of sequence"
  let payload := errorText (boundedJoinError message)
  let frame ← PairingCodec.encode "workspace-join-rejected-ack" handshake.secret payload
  .ok ({ handshake with phase := .complete }, frame)

/-- What an acknowledgement says about the response. -/
def readAck (frame : List UInt8) (frameType : String) :
    WorkspaceJoinResponse → Except String WorkspaceJoinAck
  | .rejected _ => do
      let payload ← PairingCodec.decode json frame "sync-ack" handshake.secret
      refuse (payload ≠ []) "Workspace join acknowledgement invalid"
      .ok (.accepted payload)
  | .accepted _ =>
    if frameType = "workspace-join-rejected-ack" then do
      let payload ← PairingCodec.decode json frame "workspace-join-rejected-ack" handshake.secret
      let error ← okOr (((json.fromSlice payload).bind fun value =>
        (value.get? "error").bind Value.asStr?).filter (· ≠ ""))
        "Workspace join acknowledgement invalid"
      .ok (.rejected (boundedJoinError error))
    else do
      let payload ← PairingCodec.decode json frame "sync-ack" handshake.secret
      .ok (.accepted payload)

/-- The host hears what came of its answer. -/
def receiveAck (frame : List UInt8) :
    Except String (WorkspaceJoinHandshake × WorkspaceJoinAck) := do
  handshake.require .host .awaitingAck
  let header ← PairingCodec.inspect json frame
  refuse (header.secret ≠ handshake.secret) "Pairing authorization failed"
  let response ← okOr handshake.response "Workspace join handshake out of sequence"
  let result ← readAck json handshake frame header.frameType response
  .ok ({ handshake with phase := .complete }, result)

end Calls

end WorkspaceJoinHandshake

/-! ## A host and a guest -/

/-- How the guest acknowledged. -/
inductive GuestAck
  | success (payload : List UInt8)
  | rejection
  | failure (message : String)
deriving DecidableEq, Repr

/-- The two sides, the frames each has sent, and what came of the acknowledgement. -/
structure JoinSystem where
  host : WorkspaceJoinHandshake
  guest : WorkspaceJoinHandshake
  fromHost : List (List UInt8)
  fromGuest : List (List UInt8)
  guestAck : Option GuestAck
  hostAck : Option WorkspaceJoinAck
deriving DecidableEq, Repr

/-- Nothing has been sent. -/
def JoinSystem.start (secret : String) : Except String JoinSystem := do
  let host ← WorkspaceJoinHandshake.host secret
  let guest ← WorkspaceJoinHandshake.guest secret
  .ok ⟨host, guest, [], [], none, none⟩

/-- The calls of both sides.  A frame that is received is named by its place among those that
the other side has sent. -/
inductive JoinCall
  | sendRequest (payload : List UInt8)
  | receiveRequest (index : Nat)
  | respond (payload : List UInt8)
  | reject (message : String)
  | receiveResponse (index : Nat)
  | acknowledgeRejection
  | acknowledgeSuccess (payload : List UInt8)
  | rejectAcceptedResponse (message : String)
  | receiveAck (index : Nat)
deriving DecidableEq, Repr

section System

variable (json : PairingJson) (system : JoinSystem)

/-- One call, with the frame that it sends or takes in. -/
def joinStep : JoinCall → Except String JoinSystem
  | .sendRequest payload => do
      let (guest, frame) ← system.guest.sendRequest json payload
      .ok { system with guest := guest, fromGuest := system.fromGuest ++ [frame] }
  | .receiveRequest index => do
      let frame ← okOr system.fromGuest[index]? "No such frame"
      let (host, _) ← system.host.receiveRequest json frame
      .ok { system with host := host }
  | .respond payload => do
      let (host, frame) ← system.host.respond json payload
      .ok { system with host := host, fromHost := system.fromHost ++ [frame] }
  | .reject message => do
      let (host, frame) ← system.host.reject message
      .ok { system with host := host, fromHost := system.fromHost ++ [frame] }
  | .receiveResponse index => do
      let frame ← okOr system.fromHost[index]? "No such frame"
      let (guest, _) ← system.guest.receiveResponse json frame
      .ok { system with guest := guest }
  | .acknowledgeRejection => do
      let (guest, frame) ← system.guest.acknowledgeRejection
      .ok { system with
        guest := guest, fromGuest := system.fromGuest ++ [frame], guestAck := some .rejection }
  | .acknowledgeSuccess payload => do
      let (guest, frame) ← system.guest.acknowledgeSuccess payload
      .ok { system with
        guest := guest, fromGuest := system.fromGuest ++ [frame],
        guestAck := some (.success payload) }
  | .rejectAcceptedResponse message => do
      let (guest, frame) ← system.guest.rejectAcceptedResponse message
      .ok { system with
        guest := guest, fromGuest := system.fromGuest ++ [frame],
        guestAck := some (.failure message) }
  | .receiveAck index => do
      let frame ← okOr system.fromGuest[index]? "No such frame"
      let (host, result) ← system.host.receiveAck json frame
      .ok { system with host := host, hostAck := some result }

/-- A call that fails changes nothing. -/
def joinRun (calls : List JoinCall) : JoinSystem :=
  calls.foldl (fun system call => (joinStep json system call).toOption.getD system) system

/-- The join went through, as the host sees it when it is done. -/
def JoinSystem.hostView : Option Bool :=
  match system.host.response, system.hostAck with
  | some (.accepted _), some (.accepted _) => some true
  | some _, some _ => some false
  | _, _ => none

/-- The join went through, as the guest sees it when it is done. -/
def JoinSystem.guestView : Option Bool :=
  system.guestAck.map fun
    | .success _ => true
    | .rejection | .failure _ => false

/-- The host completes on an acknowledgement. -/
def JoinSystem.CompletesOn (frame : List UInt8) : Prop :=
  ∃ host, system.host.receiveAck json frame = .ok (host, .accepted []) ∧ host.phase = .complete

/-- A rejection reaches the guest, and the guest's acknowledgement the host. -/
structure JoinSystem.Rejects (error : String) : Prop where
  response : ∃ frame, system.fromHost = [frame] ∧
    (system.guest.phase = .awaitingResponse → ∃ guest,
      system.guest.receiveResponse json frame = .ok (guest, .rejected error))
  begun : system.guest.phase ≠ .readyRequest
  heard : system.guest.phase = .awaitingAck → system.guest.response = some (.rejected error) ∧
    ∃ guest frame, system.guest.acknowledgeRejection = .ok (guest, frame) ∧
      (system.hostAck = none → system.CompletesOn json frame)
  acknowledged : system.guest.phase = .complete →
    system.guest.response = some (.rejected error) ∧ system.guestAck = some .rejection ∧
      ∃ frame ∈ system.fromGuest, system.hostAck = none → system.CompletesOn json frame

/-- The two sides agree about the outcome. -/
structure JoinSystem.Agrees : Prop where
  accepted : ∀ payload ack, system.host.response = some (.accepted payload) →
    system.hostAck = some (.accepted ack) →
      system.guest.response = some (.accepted payload) ∧ system.guestAck = some (.success ack)
  rejected : ∀ error, system.host.response = some (.rejected error) → system.Rejects json error
  views : ∀ host guest, system.hostView = some host → system.guestView = some guest → host = guest

end System

/-! ## Bounded messages -/

/-- Cutting twice is cutting once. -/
theorem takeWithin_takeWithin (limit : Nat) (cs : List Char) :
    takeWithin limit (takeWithin limit cs) = takeWithin limit cs := by
  induction cs generalizing limit with
  | nil => rfl
  | cons c cs ih =>
    by_cases fits : c.utf8Size ≤ limit
    · simp [takeWithin, fits, ih]
    · simp [takeWithin, fits]

@[simp] theorem boundedJoinError_idem (message : String) :
    boundedJoinError (boundedJoinError message) = boundedJoinError message := by
  simp [boundedJoinError, takeWithin_takeWithin]

/-- A message is not cut down to nothing. -/
theorem boundedJoinError_eq_empty {message : String} :
    boundedJoinError message = "" ↔ message = "" := by
  constructor
  · intro none
    cases chars : message.toList with
    | nil => exact String.toList_eq_nil_iff.mp chars
    | cons c cs =>
      have fits : c.utf8Size ≤ maxWorkspaceJoinErrorBytes :=
        Nat.le_trans (Char.utf8Size_le_four c) (by decide)
      simp [boundedJoinError, chars, takeWithin, fits] at none
  · rintro rfl
    rfl

/-! ## The stages of a handshake -/

def GuestAck.frameType : GuestAck → String
  | success _ | rejection => "sync-ack"
  | failure _ => "workspace-join-rejected-ack"

def GuestAck.payload : GuestAck → List UInt8
  | success payload => payload
  | rejection => []
  | failure message => errorText (boundedJoinError message)

def GuestAck.call : GuestAck → JoinCall
  | success payload => .acknowledgeSuccess payload
  | rejection => .acknowledgeRejection
  | failure message => .rejectAcceptedResponse message

/-- The three acknowledgements. -/
def WorkspaceJoinHandshake.acknowledge (handshake : WorkspaceJoinHandshake) :
    GuestAck → Except String (WorkspaceJoinHandshake × List UInt8)
  | .success payload => handshake.acknowledgeSuccess payload
  | .rejection => handshake.acknowledgeRejection
  | .failure message => handshake.rejectAcceptedResponse message

/-- An acknowledgement that the guest gives for what it read. -/
def GuestAck.Fits (ack : GuestAck) (reading : WorkspaceJoinResponse) : Prop :=
  ack = .rejection ↔ ∃ error, reading = .rejected error

section Stages

variable (json : PairingJson) (secret : String)

/-- The host at a phase, and the guest. -/
def hostAt (phase : WorkspaceJoinPhase) (response : Option WorkspaceJoinResponse) :
    WorkspaceJoinHandshake :=
  ⟨secret, .host, phase, response⟩

def guestAt (phase : WorkspaceJoinPhase) (response : Option WorkspaceJoinResponse) :
    WorkspaceJoinHandshake :=
  ⟨secret, .guest, phase, response⟩

/-- The host's response and its frame. -/
structure Answered (response : WorkspaceJoinResponse) (frame : List UInt8) : Prop where
  sent : PairingCodec.encode "workspace-join-response" secret response.payload = .ok frame
  bounded : ∀ error, response = .rejected error → ∃ message, error = boundedJoinError message

/-- What the guest read in the response, and how it acknowledged. -/
structure Acknowledged (reading : WorkspaceJoinResponse) (ack : GuestAck) (frame : List UInt8) :
    Prop where
  sent : PairingCodec.encode ack.frameType secret ack.payload = .ok frame
  fits : ack.Fits reading

/-- A request that the guest has sent. -/
def Asked (request : List UInt8) : Prop :=
  ∃ payload, PairingCodec.encode "workspace-join-request" secret payload = .ok request

/-- The stages: each side waits for the other, so they come one after another. -/
inductive JoinReached : JoinSystem → Prop
  | start : JoinReached
      ⟨hostAt secret .awaitingRequest none, guestAt secret .readyRequest none, [], [], none, none⟩
  | requested {request : List UInt8} (asked : Asked secret request) :
      JoinReached ⟨hostAt secret .awaitingRequest none, guestAt secret .awaitingResponse none, [],
        [request], none, none⟩
  | received {request : List UInt8} (asked : Asked secret request) :
      JoinReached ⟨hostAt secret .awaitingResponse none, guestAt secret .awaitingResponse none, [],
        [request], none, none⟩
  | answered {request frame : List UInt8} {response : WorkspaceJoinResponse}
      (asked : Asked secret request) (answered : Answered secret response frame) :
      JoinReached ⟨hostAt secret .awaitingAck (some response),
        guestAt secret .awaitingResponse none, [frame], [request], none, none⟩
  | heard {request frame : List UInt8} {response reading : WorkspaceJoinResponse}
      (asked : Asked secret request) (answered : Answered secret response frame)
      (read : WorkspaceJoinHandshake.readResponse json response.payload = .ok reading) :
      JoinReached ⟨hostAt secret .awaitingAck (some response),
        guestAt secret .awaitingAck (some reading), [frame], [request], none, none⟩
  | acknowledged {request frame ackFrame : List UInt8} {response reading : WorkspaceJoinResponse}
      {ack : GuestAck} (asked : Asked secret request) (answered : Answered secret response frame)
      (read : WorkspaceJoinHandshake.readResponse json response.payload = .ok reading)
      (acked : Acknowledged secret reading ack ackFrame) :
      JoinReached ⟨hostAt secret .awaitingAck (some response),
        guestAt secret .complete (some reading), [frame], [request, ackFrame], some ack, none⟩
  | done {request frame ackFrame : List UInt8} {response reading : WorkspaceJoinResponse}
      {ack : GuestAck} {result : WorkspaceJoinAck} (asked : Asked secret request)
      (answered : Answered secret response frame)
      (read : WorkspaceJoinHandshake.readResponse json response.payload = .ok reading)
      (acked : Acknowledged secret reading ack ackFrame)
      (told : WorkspaceJoinHandshake.readAck json (hostAt secret .awaitingAck (some response))
        ackFrame ack.frameType response = .ok result) :
      JoinReached ⟨hostAt secret .complete (some response), guestAt secret .complete (some reading),
        [frame], [request, ackFrame], some ack, some result⟩

end Stages

/-! ## What a call establishes -/

open WorkspaceJoinHandshake (readAck readResponse readObject)
open PairingCodec (encode decode inspect decode_encode encode_ok)

section Calls

variable {json : PairingJson} {handshake next : WorkspaceJoinHandshake}
  {payload frame result : List UInt8} {side : WorkspaceJoinSide} {phase : WorkspaceJoinPhase}

/-- Every call asks for its side and its phase first. -/
theorem require_bind_ok {α : Type} {call : Unit → Except String α} {a : α} :
    handshake.require side phase >>= call = .ok a ↔
      handshake.side = side ∧ handshake.phase = phase ∧ call () = .ok a := by
  rw [WorkspaceJoinHandshake.require, refuse_bind_ok, not_or, not_not, not_not, and_assoc]

/-- A call that looks at its payload and sends it. -/
theorem checked_send_ok {α : Type} {check : Except String α} {send : Except String (List UInt8)}
    {after : WorkspaceJoinHandshake} :
    (do
      handshake.require side phase
      let _ ← check
      let frame ← send
      .ok (after, frame)) = .ok (next, frame) ↔
    handshake.side = side ∧ handshake.phase = phase ∧ (∃ value, check = .ok value) ∧
      send = .ok frame ∧ next = after := by
  simp only [↓require_bind_ok, bind_ok, Except.ok.injEq, Prod.mk.injEq]
  constructor
  · rintro ⟨side, phase, value, read, _, encoded, rfl, rfl⟩
    exact ⟨side, phase, ⟨value, read⟩, encoded, rfl⟩
  · rintro ⟨side, phase, ⟨value, read⟩, encoded, rfl⟩
    exact ⟨side, phase, value, read, frame, encoded, rfl, rfl⟩

theorem sendRequest_ok : handshake.sendRequest json payload = .ok (next, frame) ↔
    handshake.side = .guest ∧ handshake.phase = .readyRequest ∧
      (∃ value, readObject json payload "Workspace join request invalid" = .ok value) ∧
      encode "workspace-join-request" handshake.secret payload = .ok frame ∧
      next = { handshake with phase := .awaitingResponse } :=
  checked_send_ok

theorem receiveRequest_ok : handshake.receiveRequest json frame = .ok (next, payload) ↔
    handshake.side = .host ∧ handshake.phase = .awaitingRequest ∧
      decode json frame "workspace-join-request" handshake.secret = .ok payload ∧
      (∃ value, readObject json payload "Workspace join request invalid" = .ok value) ∧
      next = { handshake with phase := .awaitingResponse } := by
  unfold WorkspaceJoinHandshake.receiveRequest
  simp only [↓require_bind_ok, bind_ok, Except.ok.injEq, Prod.mk.injEq]
  constructor
  · rintro ⟨side, phase, _, decoded, value, read, rfl, rfl⟩
    exact ⟨side, phase, decoded, ⟨value, read⟩, rfl⟩
  · rintro ⟨side, phase, decoded, ⟨value, read⟩, rfl⟩
    exact ⟨side, phase, payload, decoded, value, read, rfl, rfl⟩

theorem respond_ok : handshake.respond json payload = .ok (next, frame) ↔
    handshake.side = .host ∧ handshake.phase = .awaitingResponse ∧
      (∃ value, readObject json payload "Workspace join response invalid" = .ok value) ∧
      encode "workspace-join-response" handshake.secret payload = .ok frame ∧
      next = { handshake with response := some (.accepted payload), phase := .awaitingAck } :=
  checked_send_ok

theorem reject_ok {message : String} : handshake.reject message = .ok (next, frame) ↔
    handshake.side = .host ∧ handshake.phase = .awaitingResponse ∧
      encode "workspace-join-response" handshake.secret
        (errorText (boundedJoinError message)) = .ok frame ∧
      next = { handshake with
        response := some (.rejected (boundedJoinError message)), phase := .awaitingAck } := by
  constructor
  · intro rejected
    obtain ⟨side, phase, rejected⟩ := require_bind_ok.mp rejected
    obtain ⟨_, encoded, rejected⟩ := bind_ok.mp rejected
    obtain ⟨rfl, rfl⟩ := Prod.mk.inj (Except.ok.inj rejected)
    exact ⟨side, phase, encoded, rfl⟩
  · rintro ⟨side, phase, encoded, rfl⟩
    refine require_bind_ok.mpr ⟨side, phase, ?_⟩
    exact bind_ok.mpr ⟨frame, encoded, rfl⟩

theorem receiveResponse_ok {response : WorkspaceJoinResponse} :
    handshake.receiveResponse json frame = .ok (next, response) ↔
      handshake.side = .guest ∧ handshake.phase = .awaitingResponse ∧
      (∃ payload, decode json frame "workspace-join-response" handshake.secret =
        .ok payload ∧ readResponse json payload = .ok response) ∧
      next = { handshake with response := some response, phase := .awaitingAck } := by
  unfold WorkspaceJoinHandshake.receiveResponse
  simp only [↓require_bind_ok, bind_ok, Except.ok.injEq, Prod.mk.injEq]
  constructor
  · rintro ⟨side, phase, payload, decoded, _, read, rfl, rfl⟩
    exact ⟨side, phase, ⟨payload, decoded, read⟩, rfl⟩
  · rintro ⟨side, phase, ⟨payload, decoded, read⟩, rfl⟩
    exact ⟨side, phase, payload, decoded, response, read, rfl, rfl⟩

/-- Each acknowledgement is one frame, and ends the handshake of the guest. -/
theorem acknowledge_ok {ack : GuestAck} :
    handshake.acknowledge ack = .ok (next, frame) ↔
      handshake.side = .guest ∧ handshake.phase = .awaitingAck ∧
      (∃ reading, handshake.response = some reading ∧ ack.Fits reading) ∧
      encode ack.frameType handshake.secret ack.payload = .ok frame ∧
      next = { handshake with phase := .complete } := by
  have fits : (∃ reading, handshake.response = some reading ∧ ack.Fits reading) ↔ match ack with
      | .rejection => WorkspaceJoinHandshake.isRejected handshake.response = true
      | .success _ | .failure _ => WorkspaceJoinHandshake.isAccepted handshake.response = true := by
    rcases handshake with ⟨_, _, _, _ | _ | _⟩ <;> cases ack <;>
      simp [GuestAck.Fits, WorkspaceJoinHandshake.isRejected, WorkspaceJoinHandshake.isAccepted]
  rw [fits]
  cases ack
  all_goals
    constructor
    · intro acked
      obtain ⟨side, phase, acked⟩ := require_bind_ok.mp acked
      obtain ⟨held, acked⟩ := refuse_bind_ok.mp acked
      obtain ⟨_, encoded, acked⟩ := bind_ok.mp acked
      obtain ⟨rfl, rfl⟩ := Prod.mk.inj (Except.ok.inj acked)
      exact ⟨side, phase, Bool.eq_true_of_not_eq_false held, encoded, rfl⟩
    · rintro ⟨side, phase, held, encoded, rfl⟩
      refine require_bind_ok.mpr ⟨side, phase, ?_⟩
      exact refuse_bind_ok.mpr ⟨Bool.not_eq_false _ ▸ held, bind_ok.mpr ⟨_, encoded, rfl⟩⟩

theorem receiveAck_ok {ack : WorkspaceJoinAck} :
    handshake.receiveAck json frame = .ok (next, ack) ↔
      handshake.side = .host ∧ handshake.phase = .awaitingAck ∧
      (∃ header response, inspect json frame = .ok header ∧
        header.secret = handshake.secret ∧ handshake.response = some response ∧
        readAck json handshake frame header.frameType response = .ok ack) ∧
      next = { handshake with phase := .complete } := by
  unfold WorkspaceJoinHandshake.receiveAck
  simp only [↓require_bind_ok, ↓refuse_bind_ok, bind_ok, okOr_ok, not_not, Except.ok.injEq,
    Prod.mk.injEq]
  constructor
  · rintro ⟨side, phase, header, inspected, same, response, held, _, read, rfl, rfl⟩
    exact ⟨side, phase, ⟨header, response, inspected, same, held, read⟩, rfl⟩
  · rintro ⟨side, phase, ⟨header, response, inspected, same, held, read⟩, rfl⟩
    exact ⟨side, phase, header, inspected, same, response, held, ack, read, rfl, rfl⟩

end Calls

section Steps

variable {json : PairingJson} {secret : String} {system next : JoinSystem}

/-- The acknowledgement calls, as one. -/
theorem joinStep_acknowledge (ack : GuestAck) : joinStep json system ack.call =
    (system.guest.acknowledge ack >>= fun acked => .ok { system with
      guest := acked.1, fromGuest := system.fromGuest ++ [acked.2], guestAck := some ack }) := by
  cases ack <;> rfl

variable {payload : List UInt8} {response : WorkspaceJoinResponse} {result : WorkspaceJoinAck}
  (reads : json.Reads)
include reads

/-- A request is no acknowledgement. -/
theorem readAck_request {request : List UInt8}
    (asked : encode "workspace-join-request" secret payload = .ok request)
    {phase : WorkspaceJoinPhase} {held : Option WorkspaceJoinResponse} :
    readAck json (hostAt secret phase held) request
      "workspace-join-request" response ≠ .ok result := by
  have other : decode json request "sync-ack" secret = .error "Pairing authorization failed" := by
    rw [decode_encode reads asked, if_neg (by decide)]
  intro read
  cases response with
  | rejected error
  | accepted payload =>
    obtain ⟨_, decoded, _⟩ := bind_ok.mp read
    cases other.symm.trans decoded

/-- The host completes on an acknowledgement frame if it can read it. -/
theorem receiveAck_hostAt {frameType : String} {frame : List UInt8}
    (sent : encode frameType secret payload = .ok frame) {host : WorkspaceJoinHandshake} :
    (hostAt secret .awaitingAck (some response)).receiveAck json frame = .ok (host, result) ↔
      readAck json (hostAt secret .awaitingAck (some response)) frame
        frameType response = .ok result ∧ host = hostAt secret .complete (some response) := by
  have inspected := PairingCodec.inspect_encode reads sent
  rw [receiveAck_ok]
  constructor
  · rintro ⟨_, _, ⟨header, response', isHeader, _, held, read⟩, rfl⟩
    obtain rfl := ok_unique inspected isHeader
    obtain rfl := Option.some.inj held
    exact ⟨read, rfl⟩
  · rintro ⟨read, rfl⟩
    exact ⟨rfl, rfl, ⟨_, response, inspected, rfl, rfl, read⟩, rfl⟩

section

variable (reached : JoinReached json secret system)
include reached

omit reads in
theorem JoinReached.acknowledge (ack : GuestAck)
    (stepped : joinStep json system ack.call = .ok next) : JoinReached json secret next := by
  rw [joinStep_acknowledge] at stepped
  obtain ⟨⟨guest, frame⟩, acked, stepped⟩ := bind_ok.mp stepped
  obtain rfl := Except.ok.inj stepped
  obtain ⟨_, phase, ⟨reading, held, fits⟩, sent, rfl⟩ := acknowledge_ok.mp acked
  cases reached with
  | heard asked answered read =>
    obtain rfl := Option.some.inj held
    exact .acknowledged asked answered read ⟨sent, fits⟩
  | _ => cases phase

theorem JoinReached.receiveAck {index : Nat}
    (stepped : joinStep json system (.receiveAck index) = .ok next) :
    JoinReached json secret next := by
  obtain ⟨frame, found, stepped⟩ := bind_ok.mp stepped
  obtain ⟨⟨host, result⟩, received, stepped⟩ := bind_ok.mp stepped
  obtain rfl := Except.ok.inj stepped
  have found := okOr_ok.mp found
  have phase := (receiveAck_ok.mp received).2.1
  have noRequest : ∀ {response}, Asked secret frame →
      (hostAt secret .awaitingAck (some response)).receiveAck json frame ≠ .ok (host, result) := by
    intro response ⟨payload, asked⟩ received
    exact readAck_request reads asked ((receiveAck_hostAt reads asked).mp received).1
  cases reached with
  | @answered request _ _ asked
  | @heard request _ _ _ asked =>
    obtain rfl : frame = request := by simpa using List.mem_of_getElem? found
    exact absurd received (noRequest asked)
  | @acknowledged request _ ackFrame _ _ _ asked answered read acked =>
    have either : frame = request ∨ frame = ackFrame := by
      simpa using List.mem_of_getElem? found
    rcases either with rfl | rfl
    · exact absurd received (noRequest asked)
    · obtain ⟨told, rfl⟩ := (receiveAck_hostAt reads acked.sent).mp received
      exact .done asked answered read acked told
  | _ => cases phase

/-- One call leads from stage to stage. -/
theorem JoinReached.step {call : JoinCall} (stepped : joinStep json system call = .ok next) :
    JoinReached json secret next := by
  cases call with
  | sendRequest payload =>
    obtain ⟨⟨guest, frame⟩, sent, stepped⟩ := bind_ok.mp stepped
    obtain rfl := Except.ok.inj stepped
    obtain ⟨_, phase, _, encoded, rfl⟩ := sendRequest_ok.mp sent
    cases reached with
    | start => exact .requested ⟨payload, encoded⟩
    | _ => cases phase
  | receiveRequest index =>
    obtain ⟨frame, found, stepped⟩ := bind_ok.mp stepped
    obtain ⟨⟨host, _⟩, received, stepped⟩ := bind_ok.mp stepped
    obtain rfl := Except.ok.inj stepped
    obtain ⟨_, phase, _, _, rfl⟩ := receiveRequest_ok.mp received
    cases reached with
    | start => cases okOr_ok.mp found
    | requested asked => exact .received asked
    | _ => cases phase
  | respond payload =>
    obtain ⟨⟨host, frame⟩, responded, stepped⟩ := bind_ok.mp stepped
    obtain rfl := Except.ok.inj stepped
    obtain ⟨_, phase, _, encoded, rfl⟩ := respond_ok.mp responded
    cases reached with
    | received asked => exact .answered asked ⟨encoded, fun _ other => by cases other⟩
    | _ => cases phase
  | reject message =>
    obtain ⟨⟨host, frame⟩, rejected, stepped⟩ := bind_ok.mp stepped
    obtain rfl := Except.ok.inj stepped
    obtain ⟨_, phase, encoded, rfl⟩ := reject_ok.mp rejected
    cases reached with
    | received asked =>
      refine .answered asked ⟨encoded, fun error same => ⟨message, ?_⟩⟩
      exact (WorkspaceJoinResponse.rejected.inj same).symm
    | _ => cases phase
  | receiveResponse index =>
    obtain ⟨frame, found, stepped⟩ := bind_ok.mp stepped
    obtain ⟨⟨guest, reading⟩, received, stepped⟩ := bind_ok.mp stepped
    obtain rfl := Except.ok.inj stepped
    have found := okOr_ok.mp found
    obtain ⟨_, phase, ⟨payload, decoded, read⟩, rfl⟩ := receiveResponse_ok.mp received
    cases reached with
    | @answered _ sent _ asked answered =>
      obtain rfl : frame = sent := by simpa using List.mem_of_getElem? found
      have own := decode_encode reads answered.sent "workspace-join-response"
      obtain rfl := ok_unique own decoded
      exact .heard asked answered read
    | requested asked
    | received asked => cases found
    | _ => cases phase
  | acknowledgeRejection => exact reached.acknowledge .rejection stepped
  | acknowledgeSuccess payload => exact reached.acknowledge (.success payload) stepped
  | rejectAcceptedResponse message => exact reached.acknowledge (.failure message) stepped
  | receiveAck index => exact reached.receiveAck reads stepped

/-- Every run is at one of the stages. -/
theorem JoinReached.run (calls : List JoinCall) :
    JoinReached json secret (joinRun json system calls) := by
  induction calls generalizing system with
  | nil => exact reached
  | cons call calls ih =>
    have kept : JoinReached json secret ((joinStep json system call).toOption.getD system) := by
      cases stepped : joinStep json system call with
      | error reason => exact reached
      | ok next => exact reached.step reads stepped
    exact ih kept

end

end Steps

/-! ## Agreement -/

/-- What the host says. -/
inductive HostAnswer
  | respond (payload : List UInt8)
  | reject (message : String)
deriving DecidableEq, Repr

def HostAnswer.response : HostAnswer → WorkspaceJoinResponse
  | respond payload => .accepted payload
  | reject message => .rejected (boundedJoinError message)

def HostAnswer.call : HostAnswer → JoinCall
  | respond payload => .respond payload
  | reject message => .reject message

/-- A payload that is an object with a message in its `error` field. -/
def CarriesError (json : PairingJson) (payload : List UInt8) : Prop :=
  ∃ fields message, json.fromSlice payload = some (.object fields) ∧
    fields.lookup "error" = some (.string message) ∧ message ≠ ""

/-- The host says what it means: an accepting payload carries no error, and a rejection has a
message. -/
def HostAnswer.Plain (json : PairingJson) : HostAnswer → Prop
  | respond payload => ¬ CarriesError json payload
  | reject message => message ≠ ""

/-- The host can send the answer. -/
structure HostAnswer.Sendable (json : PairingJson) (secret : String) (answer : HostAnswer) :
    Prop where
  reads : ∀ payload, answer = .respond payload → ∃ fields,
    json.fromSlice payload = some (.object fields)
  fits : ∃ frame, PairingCodec.encode "workspace-join-response" secret answer.response.payload =
    .ok frame

section Agreement

variable {json : PairingJson} {secret : String} {answer : HostAnswer} {payload frame : List UInt8}
  {system start : JoinSystem}

theorem readObject_ok {invalid : String} {value : Value} :
    readObject json payload invalid = .ok value ↔
      json.fromSlice payload = some value ∧ ∃ fields, value = .object fields := by
  constructor
  · intro read
    obtain ⟨parsedValue, parsed, read⟩ := bind_ok.mp read
    obtain ⟨object, read⟩ := refuse_bind_ok.mp read
    obtain rfl : parsedValue = value := Except.ok.inj read
    refine ⟨okOr_ok.mp parsed, ?_⟩
    cases parsedValue with
    | object fields => exact ⟨fields, rfl⟩
    | _ => exact absurd rfl object
  · rintro ⟨parsed, fields, rfl⟩
    exact bind_ok.mpr ⟨_, okOr_ok.mpr parsed, refuse_bind_ok.mpr ⟨by simp [isObject], rfl⟩⟩

/-- How the guest reads the payload of a response. -/
theorem readResponse_ok {reading : WorkspaceJoinResponse} :
    readResponse json payload = .ok reading ↔
      ∃ fields, json.fromSlice payload = some (.object fields) ∧
        ((fields.lookup "error" = none ∧ reading = .accepted payload) ∨
          ∃ message, fields.lookup "error" = some (.string message) ∧ message ≠ "" ∧
            reading = .rejected (boundedJoinError message)) := by
  constructor
  · intro read
    obtain ⟨_, object, read⟩ := bind_ok.mp read
    obtain ⟨parsed, fields, rfl⟩ := readObject_ok.mp object
    refine ⟨fields, parsed, ?_⟩
    rw [Value.get?] at read
    cases found : fields.lookup "error" with
    | none =>
      rw [found] at read
      exact .inl ⟨rfl, (Except.ok.inj read).symm⟩
    | some error =>
      rw [found] at read
      obtain ⟨message, isMessage, read⟩ := bind_ok.mp read
      obtain ⟨isText, some'⟩ := Option.filter_eq_some_iff.mp (okOr_ok.mp isMessage)
      refine .inr ⟨message, ?_, by simpa using some', (Except.ok.inj read).symm⟩
      cases error with
      | string text => rw [Option.some.inj isText]
      | _ => cases isText
  · rintro ⟨fields, parsed, ⟨found, rfl⟩ | ⟨message, found, some', rfl⟩⟩
    all_goals
      refine bind_ok.mpr ⟨_, readObject_ok.mpr ⟨parsed, fields, rfl⟩, ?_⟩
      rw [Value.get?, found]
    exact bind_ok.mpr ⟨message, okOr_ok.mpr (by simp [Value.asStr?, some']), rfl⟩

/-- The text of a header has the length of its parts. -/
theorem length_text (header : PairingFrameHeader) : header.text.length =
    (quote header.frameType).length + (quote header.version).length +
      (quote header.secret).length + 30 := by
  have names : (quote "type").length = 6 ∧ (quote "version").length = 9 ∧
      (quote "secret").length = 8 := by decide
  rw [PairingFrameHeader.text, toValue, instSerializePairingFrameHeader, length_toVec_object]
  simp only [List.map_cons, List.map_nil, List.sum_cons, List.sum_nil, List.length_cons,
    List.length_nil, names, toValue, Value.toVec]
  omega

/-- Where the response fits, so does a small frame of a type with a shorter name. -/
theorem encode_of_response (frameType : String) (payload : List UInt8) {response : List UInt8}
    (sent : encode "workspace-join-response" secret response = .ok frame)
    (budget : pairingFrameBudget frameType = some ⟨maxRpcFrameBytes, maxRpcFrameBytes - 1⟩)
    (shorter : (quote frameType).length ≤ (quote "workspace-join-response").length)
    (small : payload.length ≤ 4096) : ∃ frame, encode frameType secret payload = .ok frame := by
  obtain ⟨_, _, named, short, _, _, _⟩ := encode_ok.mp sent
  have header : (PairingCodec.header frameType secret).text.length ≤
      (PairingCodec.header "workspace-join-response" secret).text.length := by
    rw [length_text, length_text]
    simp only [PairingCodec.header]
    omega
  refine ⟨_, encode_ok.mpr ⟨_, budget, named, by omega, ?_, ?_, rfl⟩⟩
  · simp only [maxPairingHeaderBytes, maxRpcFrameBytes] at short ⊢
    omega
  · simp only [maxRpcFrameBytes]
    omega

theorem joinRun_cons {next : JoinSystem} {call : JoinCall} {calls : List JoinCall}
    (stepped : joinStep json system call = .ok next) :
    joinRun json system (call :: calls) = joinRun json next calls := by
  rw [joinRun, List.foldl_cons, stepped]
  rfl

theorem joinRun_append (system : JoinSystem) (first second : List JoinCall) :
    joinRun json system (first ++ second) = joinRun json (joinRun json system first) second :=
  List.foldl_append

/-- The first stage. -/
theorem start_ok (made : JoinSystem.start secret = .ok start) :
    start = ⟨hostAt secret .awaitingRequest none, guestAt secret .readyRequest none, [], [], none,
      none⟩ := by
  obtain ⟨host, isHost, made⟩ := bind_ok.mp made
  obtain ⟨guest, isGuest, made⟩ := bind_ok.mp made
  obtain ⟨_, isHost⟩ := refuse_bind_ok.mp isHost
  obtain ⟨_, isGuest⟩ := refuse_bind_ok.mp isGuest
  obtain rfl := Except.ok.inj isHost
  obtain rfl := Except.ok.inj isGuest
  exact (Except.ok.inj made).symm

/-- The guest reads the response as the host means it. -/
structure Meant (json : PairingJson) (response : WorkspaceJoinResponse) : Prop where
  same : ∀ reading, WorkspaceJoinHandshake.readResponse json response.payload = .ok reading →
    reading = response
  rejection : ∀ error, response = .rejected error →
    WorkspaceJoinHandshake.readResponse json response.payload = .ok response

section

variable (reads : json.Reads)
include reads

/-- A rejection is read as it was meant, if it has a message. -/
theorem readResponse_errorText {message : String} (some' : message ≠ "") :
    readResponse json (errorText (boundedJoinError message)) =
      .ok (.rejected (boundedJoinError message)) := by
  refine readResponse_ok.mpr ⟨_, reads.error _, .inr ⟨boundedJoinError message, rfl, ?_, ?_⟩⟩
  · exact fun empty => some' (boundedJoinError_eq_empty.mp empty)
  · rw [boundedJoinError_idem]

theorem HostAnswer.Plain.meant (plain : answer.Plain json) : Meant json answer.response := by
  cases answer with
  | respond payload =>
    refine ⟨?_, fun error other => by cases other⟩
    intro reading read
    obtain ⟨fields, parsed, ⟨_, isAccepted⟩ | ⟨message, found, some', _⟩⟩ :=
      readResponse_ok.mp read
    · exact isAccepted
    · exact absurd ⟨fields, message, parsed, found, some'⟩ plain
  | reject message =>
    have heard := readResponse_errorText reads (show message ≠ "" from plain)
    exact ⟨fun reading read => (ok_unique heard read).symm, fun _ _ => heard⟩

section Acknowledgement

variable {response : WorkspaceJoinResponse} {payload frame : List UInt8}
  {phase : WorkspaceJoinPhase} {held : Option WorkspaceJoinResponse}

theorem readAck_accepted (sent : encode "sync-ack" secret payload = .ok frame)
    (accepted : List UInt8) :
    readAck json (hostAt secret phase held) frame "sync-ack"
      (.accepted accepted) = .ok (.accepted payload) := by
  have decoded := decode_encode reads sent "sync-ack"
  rw [readAck, if_neg (by decide), hostAt, decoded]
  rfl

theorem readAck_rejected (sent : encode "sync-ack" secret [] = .ok frame) (error : String) :
    readAck json (hostAt secret phase held) frame "sync-ack"
      (.rejected error) = .ok (.accepted []) := by
  have decoded := decode_encode reads sent "sync-ack"
  rw [readAck, hostAt, decoded]
  rfl

omit reads in
/-- A failure is told as a rejection. -/
theorem readAck_failure {result : WorkspaceJoinAck} {accepted : List UInt8}
    (told : readAck json (hostAt secret phase held) frame
      "workspace-join-rejected-ack" (.accepted accepted) = .ok result) :
    ∃ error, result = .rejected error := by
  obtain ⟨_, _, told⟩ := bind_ok.mp told
  obtain ⟨error, _, told⟩ := bind_ok.mp told
  exact ⟨_, (Except.ok.inj told).symm⟩

/-- The host completes when its rejection is acknowledged. -/
theorem completesOn_rejection (sent : encode "sync-ack" secret [] = .ok frame) {error : String}
    {system : JoinSystem}
    (isHost : system.host = hostAt secret .awaitingAck (some (.rejected error))) :
    system.CompletesOn json frame := by
  refine ⟨hostAt secret .complete (some (.rejected error)), ?_, rfl⟩
  rw [isHost]
  exact (receiveAck_hostAt reads sent).mpr ⟨readAck_rejected reads sent error, rfl⟩

end Acknowledgement

/-- At every stage the two sides agree, if the guest reads what the host means. -/
theorem JoinReached.agrees (reached : JoinReached json secret system)
    (meant : ∀ response, system.host.response = some response → Meant json response) :
    system.Agrees json := by
  cases reached with
  | start
  | requested asked
  | received asked => exact ⟨nofun, nofun, nofun⟩
  | @answered _ frame _ asked answered =>
    refine ⟨nofun, ?_, fun _ _ _ => nofun⟩
    intro error isRejected
    obtain rfl := Option.some.inj isRejected
    have heard := (meant _ rfl).rejection error rfl
    refine ⟨⟨frame, rfl, fun _ => ?_⟩, nofun, nofun, nofun⟩
    have decoded := decode_encode reads answered.sent "workspace-join-response"
    exact ⟨_, receiveResponse_ok.mpr ⟨rfl, rfl, ⟨_, decoded, heard⟩, rfl⟩⟩
  | @heard _ frame _ reading asked answered read =>
    obtain rfl := (meant _ rfl).same reading read
    refine ⟨nofun, ?_, fun _ _ _ => nofun⟩
    intro error isRejected
    obtain rfl := Option.some.inj isRejected
    obtain ⟨ackFrame, sent⟩ := encode_of_response "sync-ack" [] answered.sent (by decide)
      (by decide) (by decide)
    have acked : (guestAt secret .awaitingAck (some (.rejected error))).acknowledge .rejection =
        .ok (guestAt secret .complete (some (.rejected error)), ackFrame) :=
      acknowledge_ok.mpr ⟨rfl, rfl, ⟨_, rfl, by simp [GuestAck.Fits]⟩, sent, rfl⟩
    refine ⟨⟨frame, rfl, nofun⟩, nofun, fun _ => ⟨rfl, _, ackFrame, acked, fun _ => ?_⟩, nofun⟩
    exact completesOn_rejection reads sent rfl
  | @acknowledged _ frame ackFrame _ reading ack asked answered read acked =>
    obtain rfl := (meant _ rfl).same reading read
    refine ⟨nofun, ?_, ?_⟩
    · intro error isRejected
      obtain rfl := Option.some.inj isRejected
      obtain rfl : ack = .rejection := acked.fits.mpr ⟨error, rfl⟩
      refine ⟨⟨frame, rfl, nofun⟩, nofun, nofun, fun _ => ⟨rfl, rfl, ackFrame, by simp, ?_⟩⟩
      exact fun _ => completesOn_rejection reads acked.sent rfl
    · intro host guest isHost _
      cases reading <;> cases isHost
  | @done _ frame ackFrame _ reading ack _ asked answered read acked told =>
    obtain rfl := (meant _ rfl).same reading read
    cases reading with
    | accepted accepted =>
      cases ack with
      | success ackPayload =>
        obtain rfl := ok_unique (readAck_accepted reads acked.sent accepted) told
        refine ⟨?_, nofun, fun _ _ => Option.mem_unique⟩
        intro _ _ isResponse isAck
        cases isResponse
        cases isAck
        exact ⟨rfl, rfl⟩
      | rejection =>
        obtain ⟨_, other⟩ := acked.fits.mp rfl
        cases other
      | failure message =>
        obtain ⟨error, rfl⟩ := readAck_failure told
        exact ⟨nofun, nofun, fun _ _ => Option.mem_unique⟩
    | rejected error =>
      obtain rfl : ack = .rejection := acked.fits.mpr ⟨error, rfl⟩
      refine ⟨nofun, ?_, fun _ _ => Option.mem_unique⟩
      intro _ isRejected
      cases isRejected
      exact ⟨⟨frame, rfl, nofun⟩, nofun, nofun, fun _ => ⟨rfl, rfl, ackFrame, by simp, nofun⟩⟩

/-! ## Answers that are read otherwise -/

/-- The response is underway. -/
def underway (secret : String) (response : WorkspaceJoinResponse) (frame request : List UInt8) :
    JoinSystem :=
  ⟨hostAt secret .awaitingAck (some response), guestAt secret .awaitingResponse none, [frame],
    [request], none, none⟩

/-- An answer that can be sent is sent in some run. -/
theorem exists_answered (made : JoinSystem.start secret = .ok start)
    (sendable : answer.Sendable json secret) :
    ∃ calls request frame, encode "workspace-join-response" secret
        answer.response.payload = .ok frame ∧
      joinRun json start calls = underway secret answer.response frame request := by
  obtain rfl := start_ok made
  obtain ⟨frame, sent⟩ := sendable.fits
  obtain ⟨request, asked⟩ := encode_of_response "workspace-join-request" (errorText "x") sent
    (by decide) (by decide) (by decide)
  have object : ∃ value, readObject json (errorText "x")
      "Workspace join request invalid" = .ok value :=
    ⟨_, readObject_ok.mpr ⟨reads.error "x", _, rfl⟩⟩
  have decoded := decode_encode reads asked "workspace-join-request"
  refine ⟨[.sendRequest (errorText "x"), .receiveRequest 0, answer.call], request, frame, sent, ?_⟩
  let waiting (phase : WorkspaceJoinPhase) : JoinSystem :=
    ⟨hostAt secret phase none, guestAt secret .awaitingResponse none, [], [request], none, none⟩
  have requested : joinStep json ⟨hostAt secret .awaitingRequest none,
      guestAt secret .readyRequest none, [], [], none, none⟩ (.sendRequest (errorText "x")) =
      .ok (waiting .awaitingRequest) :=
    bind_ok.mpr ⟨_, sendRequest_ok.mpr ⟨rfl, rfl, object, asked, rfl⟩, rfl⟩
  have received : joinStep json (waiting .awaitingRequest) (.receiveRequest 0) =
      .ok (waiting .awaitingResponse) :=
    bind_ok.mpr ⟨request, rfl, bind_ok.mpr
      ⟨_, receiveRequest_ok.mpr ⟨rfl, rfl, decoded, object, rfl⟩, rfl⟩⟩
  have answered : joinStep json (waiting .awaitingResponse) answer.call =
      .ok (underway secret answer.response frame request) := by
    cases answer with
    | respond payload =>
      obtain ⟨fields, parsed⟩ := sendable.reads payload rfl
      exact bind_ok.mpr ⟨_, respond_ok.mpr ⟨rfl, rfl,
        ⟨_, readObject_ok.mpr ⟨parsed, fields, rfl⟩⟩, sent, rfl⟩, rfl⟩
    | reject message =>
      exact bind_ok.mpr ⟨_, reject_ok.mpr ⟨rfl, rfl, sent, rfl⟩, rfl⟩
  rw [joinRun_cons requested, joinRun_cons received, joinRun_cons answered]
  rfl

/-- An empty rejection is refused by the guest. -/
theorem empty_rejection_refused {request : List UInt8}
    (sent : encode "workspace-join-response" secret (errorText "") = .ok frame) :
    ¬ JoinSystem.Agrees json (underway secret (.rejected "") frame request) := by
  intro agrees
  obtain ⟨_, isFrame, observes⟩ := (agrees.rejected "" rfl).response
  obtain rfl := (List.cons.inj isFrame).1
  obtain ⟨guest, received⟩ := observes rfl
  obtain ⟨_, _, ⟨payload, decoded, read⟩, _⟩ := receiveResponse_ok.mp received
  have own := decode_encode reads sent "workspace-join-response"
  obtain rfl := ok_unique own decoded
  obtain ⟨fields, parsed, ⟨_, other⟩ | ⟨message, found, some', _⟩⟩ := readResponse_ok.mp read
  · cases other
  · obtain rfl := Value.object.inj (Option.mem_unique (reads.error "") parsed)
    exact some' (Value.string.inj (Option.some.inj found)).symm

/-- An accepting response with an error: the guest acknowledges a rejection, and the host
takes it for a success. -/
theorem mixed_response_diverges (request : List UInt8) (mixed : CarriesError json payload)
    (sent : encode "workspace-join-response" secret payload = .ok frame) :
    ∃ calls, let system := joinRun json (underway secret (.accepted payload) frame request) calls
      system.host.response = some (.accepted payload) ∧ system.hostView = some true ∧
        system.guestView = some false := by
  obtain ⟨fields, message, parsed, found, some'⟩ := mixed
  have read := readResponse_ok.mpr ⟨fields, parsed, .inr ⟨message, found, some', rfl⟩⟩
  have decoded := decode_encode reads sent "workspace-join-response"
  obtain ⟨ackFrame, acked⟩ := encode_of_response "sync-ack" [] sent (by decide)
    (by decide) (by decide)
  refine ⟨[.receiveResponse 0, .acknowledgeRejection, .receiveAck 1], ?_⟩
  -- the two sides at their phases, with what they have sent and said
  let sides (host guest : WorkspaceJoinPhase) :=
    JoinSystem.mk (hostAt secret host (some (.accepted payload)))
      (guestAt secret guest (some (.rejected (boundedJoinError message)))) [frame]
  have heard : joinStep json (underway secret (.accepted payload) frame request)
      (.receiveResponse 0) = .ok (sides .awaitingAck .awaitingAck [request] none none) :=
    bind_ok.mpr ⟨frame, rfl, bind_ok.mpr
      ⟨_, receiveResponse_ok.mpr ⟨rfl, rfl, ⟨payload, decoded, read⟩, rfl⟩, rfl⟩⟩
  have acknowledged : joinStep json (sides .awaitingAck .awaitingAck [request] none none)
      .acknowledgeRejection =
      .ok (sides .awaitingAck .complete [request, ackFrame] (some .rejection) none) := by
    exact (joinStep_acknowledge .rejection).trans (bind_ok.mpr ⟨_, acknowledge_ok.mpr
      ⟨rfl, rfl, ⟨_, rfl, by simp [GuestAck.Fits]⟩, acked, rfl⟩, rfl⟩)
  have done : joinStep json
      (sides .awaitingAck .complete [request, ackFrame] (some .rejection) none) (.receiveAck 1) =
      .ok (sides .complete .complete [request, ackFrame] (some .rejection) (some (.accepted []))) :=
    bind_ok.mpr ⟨ackFrame, rfl, bind_ok.mpr ⟨_, (receiveAck_hostAt reads acked).mpr
      ⟨readAck_accepted reads acked payload, rfl⟩, rfl⟩⟩
  rw [joinRun_cons heard, joinRun_cons acknowledged, joinRun_cons done]
  exact ⟨rfl, rfl, rfl⟩

end

/-- The two sides agree in every run with an answer of the host, exactly if the host says what
it means. -/
theorem join_agreement (reads : json.Reads) {start : JoinSystem}
    (made : JoinSystem.start secret = .ok start) (sendable : answer.Sendable json secret) :
    (∀ calls, (∀ response, (joinRun json start calls).host.response = some response →
        response = answer.response) → (joinRun json start calls).Agrees json) ↔
      answer.Plain json := by
  have initial : JoinReached json secret start := by
    rw [start_ok made]
    exact .start
  constructor
  · intro agrees
    obtain ⟨calls, request, frame, sent, answered⟩ := exists_answered reads made sendable
    cases answer with
    | respond payload =>
      intro mixed
      obtain ⟨more, isResponse, isHost, isGuest⟩ :=
        mixed_response_diverges reads request mixed sent
      change joinRun json start calls =
        underway secret (.accepted payload) frame request at answered
      rw [← answered, ← joinRun_append] at isResponse isHost isGuest
      have agreed := agrees (calls ++ more) fun response held =>
        (Option.mem_unique isResponse held).symm
      cases agreed.views true false isHost isGuest
    | reject message =>
      rintro rfl
      have agreed := agrees calls (by simp [answered, underway, hostAt])
      rw [answered] at agreed
      exact empty_rejection_refused reads sent agreed
  · intro plain calls same
    refine (initial.run reads calls).agrees reads ?_
    intro response held
    rw [same response held]
    exact plain.meant reads

end Agreement

namespace Sample

/-- Small answers fit in a frame. -/
theorem sendable (answer : HostAnswer) (reads : ∀ payload, answer = .respond payload → ∃ fields,
      pairingJson.fromSlice payload = some (.object fields))
    (small : answer.response.payload.length ≤ 4096) : answer.Sendable pairingJson "secret" := by
  have short : (PairingCodec.header "workspace-join-response" "secret").text.length + 1 ≤ 4096 := by
    decide
  refine ⟨reads, _, encode_ok.mpr ⟨⟨maxRpcFrameBytes, maxRpcFrameBytes - 1⟩,
    by decide, by decide, short, ?_, ?_, rfl⟩⟩
  · simp only [maxRpcFrameBytes]
    omega
  · simp only [maxRpcFrameBytes]
    omega

end Sample

open Sample

theorem join_agreement_sample : ∃ start, JoinSystem.start "secret" = .ok start ∧
    ∀ calls, (∀ response, (joinRun pairingJson start calls).host.response = some response →
      response = .rejected (boundedJoinError "full")) →
        (joinRun pairingJson start calls).Agrees pairingJson := by
  have sendable := sendable (.reject "full") nofun (by decide)
  exact ⟨_, rfl, (join_agreement pairingJson_reads rfl sendable).mpr (show "full" ≠ "" by decide)⟩

/-- The host responds with an error, and takes the acknowledgement of it for a success. -/
theorem join_views_diverge : ∃ start calls, JoinSystem.start "secret" = .ok start ∧
    (joinRun pairingJson start calls).host.response = some (.accepted (errorText "full")) ∧
    (joinRun pairingJson start calls).hostView = some true ∧
    (joinRun pairingJson start calls).guestView = some false := by
  have parsed := pairingJson_reads.error "full"
  have sendable := sendable (.respond (errorText "full"))
    (fun _ same => ⟨_, HostAnswer.respond.inj same ▸ parsed⟩) (by decide)
  have made : JoinSystem.start "secret" = .ok _ := rfl
  obtain ⟨calls, request, frame, sent, answered⟩ :=
    exists_answered pairingJson_reads made sendable
  obtain ⟨more, diverged⟩ := mixed_response_diverges pairingJson_reads request
    ⟨_, "full", parsed, rfl, by decide⟩ sent
  refine ⟨_, calls ++ more, made, ?_⟩
  rw [joinRun_append, answered]
  exact diverged

end MetaMesh
