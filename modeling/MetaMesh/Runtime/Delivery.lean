import Mathlib.Data.Finset.Basic
import Mathlib.Data.Finset.Range
import MetaMesh.Lib.Fallible
import MetaMesh.Lib.Machine

/-!
# Delivery of a batch

`delivery_flow.rs`.  A batch goes to one device over several routes: the next route is
launched when one fails or when the fallback timer elapses, and when all have failed the
routes are tried again in a new round, as often as there are retry delays.  The host runs the
routes and the timers; its callbacks may be late, repeated or about a round that is over.

`DeliveryLedger` is what the host can tell from the updates alone.  `Sound` ties it to the
state of the flow, and `batch_delivery` is about every run of calls.
-/

namespace MetaMesh

open Fallible Machine

variable {Delay : Type}

/-- What the host is to do next. -/
inductive BatchDeliveryAction (Delay : Type)
  | launchRoute (round routeIndex : UInt32)
  | armFallback (round : UInt32) (delayMs : Delay)
  | armRetry (round : UInt32) (delayMs : Delay)
  | cancelOtherRoutes (round routeIndex : UInt32)
  | cancelAllRoutes (round : UInt32)
  | completed (round routeIndex : UInt32) (attemptedRouteIds : List String)
  | exhausted (attemptedRouteIds : List String) (message : String)
  | aborted
deriving DecidableEq, Repr

/-- How a delivery stands. -/
inductive DeliveryState
  | ready
  | running
  | waitingRetry
  | complete
  | failed
  | aborted
deriving DecidableEq, Repr

/-- One batch on its way over several routes. -/
structure MeshBatchDeliveryFlow (Delay : Type) where
  targetDeviceId : String
  routeIds : List String
  fallbackDelayMs : Delay
  retryDelaysMs : List Delay
  retryIndex : Nat
  round : UInt32
  nextRouteIndex : Nat
  pending : Finset Nat
  fallbackArmed : Bool
  attemptedRouteIds : List String
  failures : List String
  state : DeliveryState
deriving DecidableEq

def DeliveryState.isOver : DeliveryState → Bool
  | complete | failed | aborted => true
  | ready | running | waitingRetry => false

/-- `u32::saturating_add(1)`. -/
def saturatingSucc (n : UInt32) : UInt32 :=
  if n = 4294967295 then n else n + 1

namespace MeshBatchDeliveryFlow

/-- `isDelay` says of a delay that it is finite and not negative. -/
def new (isDelay : Delay → Bool) (targetDeviceId : String) (routeIds : List String)
    (fallbackDelayMs : Delay) (retryDelaysMs : List Delay) :
    Except String (MeshBatchDeliveryFlow Delay) := do
  refuse (targetDeviceId = "" ∨ routeIds = [] ∨ "" ∈ routeIds)
    "Invalid durable batch delivery routes"
  refuse (isDelay fallbackDelayMs = false ∨ ∃ delay ∈ retryDelaysMs, isDelay delay = false)
    "Invalid durable batch delivery delay"
  .ok ⟨targetDeviceId, routeIds, fallbackDelayMs, retryDelaysMs, 0, 0, 0, ∅, false, [], [], .ready⟩

variable (flow : MeshBatchDeliveryFlow Delay)

def exhaustedMessage : String :=
  let details := if flow.failures = [] then "all routes failed" else "; ".intercalate flow.failures
  "Delivery retries exhausted for device " ++ flow.targetDeviceId ++ ": " ++ details

/-- Once nothing is pending: the next retry, or the end. -/
def finishRound : MeshBatchDeliveryFlow Delay × List (BatchDeliveryAction Delay) :=
  if flow.pending ≠ ∅ then (flow, [])
  else
    match flow.retryDelaysMs[flow.retryIndex]? with
    | some delayMs =>
      ({ flow with retryIndex := flow.retryIndex + 1, state := .waitingRetry },
        [.armRetry flow.round delayMs])
    | none =>
      ({ flow with state := .failed }, [.exhausted flow.attemptedRouteIds flow.exhaustedMessage])

/-- The next route, with the fallback timer if another follows. -/
def launchNext : MeshBatchDeliveryFlow Delay × List (BatchDeliveryAction Delay) :=
  match flow.routeIds[flow.nextRouteIndex]? with
  | none => flow.finishRound
  | some routeId =>
    let arms := decide (flow.nextRouteIndex + 1 < flow.routeIds.length) && !flow.fallbackArmed
    ({ flow with
        nextRouteIndex := flow.nextRouteIndex + 1
        pending := insert flow.nextRouteIndex flow.pending
        attemptedRouteIds := flow.attemptedRouteIds ++ [routeId]
        fallbackArmed := flow.fallbackArmed || arms },
      .launchRoute flow.round (UInt32.ofNat flow.nextRouteIndex) ::
        if arms then [.armFallback flow.round flow.fallbackDelayMs] else [])

def start : Except String (MeshBatchDeliveryFlow Delay × List (BatchDeliveryAction Delay)) := do
  refuse (flow.state ≠ .ready) "Durable batch delivery already started"
  .ok { flow with state := .running }.launchNext

/-- The result of a pending route of this round; others are ignored. -/
def routeResult (round routeIndex : UInt32) (accepted : Bool) (failure : String) :
    MeshBatchDeliveryFlow Delay × List (BatchDeliveryAction Delay) :=
  let index := routeIndex.toNat
  if flow.state ≠ .running ∨ round ≠ flow.round ∨ index ∉ flow.pending then (flow, [])
  else
    let flow := { flow with pending := flow.pending.erase index }
    if accepted then
      ({ flow with state := .complete },
        [.cancelOtherRoutes round routeIndex, .completed round routeIndex flow.attemptedRouteIds])
    else
      let routeId := flow.routeIds[index]?.getD "unknown route"
      let flow := { flow with failures := flow.failures ++ [routeId ++ ": " ++ failure] }
      if flow.nextRouteIndex < flow.routeIds.length then flow.launchNext
      else if flow.pending = ∅ then flow.finishRound
      else (flow, [])

/-- Launches the next route beside the pending ones. -/
def fallbackElapsed (round : UInt32) :
    MeshBatchDeliveryFlow Delay × List (BatchDeliveryAction Delay) :=
  if flow.state ≠ .running ∨ round ≠ flow.round ∨ flow.fallbackArmed = false then (flow, [])
  else
    let flow := { flow with fallbackArmed := false }
    if flow.nextRouteIndex < flow.routeIds.length then flow.launchNext else (flow, [])

def retryElapsed (round : UInt32) :
    MeshBatchDeliveryFlow Delay × List (BatchDeliveryAction Delay) :=
  if flow.state ≠ .waitingRetry ∨ round ≠ flow.round then (flow, [])
  else
    { flow with
      round := saturatingSucc flow.round
      nextRouteIndex := 0
      pending := ∅
      fallbackArmed := false
      state := .running }.launchNext

def abort : MeshBatchDeliveryFlow Delay × List (BatchDeliveryAction Delay) :=
  if flow.state.isOver then (flow, [])
  else ({ flow with state := .aborted }, [.cancelAllRoutes flow.round, .aborted])

end MeshBatchDeliveryFlow

/-! ## Runs -/

/-- What the host reports. -/
inductive DeliveryCall
  | start
  | routeResult (round routeIndex : UInt32) (accepted : Bool) (failure : String)
  | fallbackElapsed (round : UInt32)
  | retryElapsed (round : UInt32)
  | abort
deriving DecidableEq, Repr

def deliveryStep (flow : MeshBatchDeliveryFlow Delay) :
    DeliveryCall → MeshBatchDeliveryFlow Delay × Except String (List (BatchDeliveryAction Delay))
  | .start =>
    match flow.start with
    | .ok (next, actions) => (next, .ok actions)
    | .error reason => (flow, .error reason)
  | .routeResult round routeIndex accepted failure =>
    (flow.routeResult round routeIndex accepted failure).map id .ok
  | .fallbackElapsed round => (flow.fallbackElapsed round).map id .ok
  | .retryElapsed round => (flow.retryElapsed round).map id .ok
  | .abort => flow.abort.map id .ok

abbrev DeliveryEvent (Delay : Type) :=
  Event (MeshBatchDeliveryFlow Delay) DeliveryCall
    (Except String (List (BatchDeliveryAction Delay)))

/-- What the host is told to do. -/
def deliveryActions (event : DeliveryEvent Delay) : List (BatchDeliveryAction Delay) :=
  match event.answer with
  | .ok actions => actions
  | .error _ => []

def BatchDeliveryAction.isTerminal : BatchDeliveryAction Delay → Bool
  | completed _ _ _ | exhausted _ _ | aborted => true
  | _ => false

def BatchDeliveryAction.launch? : BatchDeliveryAction Delay → Option (UInt32 × UInt32)
  | launchRoute round routeIndex => some (round, routeIndex)
  | _ => none

def BatchDeliveryAction.armed? : BatchDeliveryAction Delay → Option UInt32
  | armFallback round _ => some round
  | _ => none

def DeliveryCall.isRetry : DeliveryCall → Bool
  | retryElapsed _ => true
  | _ => false

/-- What the host knows: the routes launched in each round, the current round first, and the
round of the last fallback timer, until it elapses. -/
structure DeliveryLedger where
  rounds : List (List (UInt32 × UInt32)) := []
  timer : Option UInt32 := none

/-- Launches begin a round when a retry timer elapses, and at the start. -/
def noteLaunches (launches : List (UInt32 × UInt32)) (opens : Bool) :
    List (List (UInt32 × UInt32)) → List (List (UInt32 × UInt32))
  | [] => if launches = [] then [] else [launches]
  | current :: earlier =>
    if opens ∧ launches ≠ [] then launches :: current :: earlier
    else (current ++ launches) :: earlier

def DeliveryLedger.note (ledger : DeliveryLedger) (event : DeliveryEvent Delay) :
    DeliveryLedger where
  rounds := noteLaunches ((deliveryActions event).filterMap BatchDeliveryAction.launch?)
    event.call.isRetry ledger.rounds
  timer := match (deliveryActions event).findSome? BatchDeliveryAction.armed? with
    | some round => some round
    | none => if ledger.timer.map DeliveryCall.fallbackElapsed = some event.call then none
        else ledger.timer

def deliveryLedger (trace : List (DeliveryEvent Delay)) : DeliveryLedger :=
  trace.foldl DeliveryLedger.note {}

/-! ## What a call can do -/

/-- The ways a call ends. -/
inductive DeliveryOutcome (flow : MeshBatchDeliveryFlow Delay) (call : DeliveryCall) : Prop
  | ignores (answer : Except String (List (BatchDeliveryAction Delay)))
      (ends : deliveryStep flow call = (flow, answer))
      (quiet : deliveryActions ⟨flow, call, answer⟩ = [])
      (stale : flow.state = .running → flow.fallbackArmed = true →
        call ≠ .fallbackElapsed flow.round)
  | starts (isCall : call = .start) (ready : flow.state = .ready)
      (ends : deliveryStep flow call = { flow with state := .running }.launchNext.map id .ok)
  | relaunches (pending : Finset Nat) (failures : List String) (armed : Bool)
      (running : flow.state = .running) (room : flow.nextRouteIndex < flow.routeIds.length)
      (within : pending ⊆ flow.pending) (sameRound : call.isRetry = false)
      (timer : armed = true → flow.fallbackArmed = true ∧ call ≠ .fallbackElapsed flow.round)
      (ends : deliveryStep flow call = { flow with
        pending := pending, failures := failures, fallbackArmed := armed }.launchNext.map id .ok)
  | waits (pending : Finset Nat) (failures : List String) (armed : Bool)
      (running : flow.state = .running) (all : flow.routeIds.length ≤ flow.nextRouteIndex)
      (within : pending ⊆ flow.pending) (some : pending ≠ ∅)
      (timer : armed = true → flow.fallbackArmed = true ∧ call ≠ .fallbackElapsed flow.round)
      (ends : deliveryStep flow call = ({ flow with
        pending := pending, failures := failures, fallbackArmed := armed }, .ok []))
  | rests (failures : List String) (delayMs : Delay) (running : flow.state = .running)
      (left : flow.retryDelaysMs[flow.retryIndex]? = some delayMs)
      (ends : deliveryStep flow call = ({ flow with
        pending := ∅, failures := failures, retryIndex := flow.retryIndex + 1,
        state := .waitingRetry }, .ok [.armRetry flow.round delayMs]))
  | fails (failures : List String) (message : String) (running : flow.state = .running)
      (ends : deliveryStep flow call = ({ flow with
        pending := ∅, failures := failures, state := .failed },
        .ok [.exhausted flow.attemptedRouteIds message]))
  | completes (routeIndex : UInt32) (failure : String) (running : flow.state = .running)
      (isCall : call = .routeResult flow.round routeIndex true failure)
      (launched : routeIndex.toNat ∈ flow.pending)
      (ends : deliveryStep flow call = ({ flow with
        pending := flow.pending.erase routeIndex.toNat, state := .complete },
        .ok [.cancelOtherRoutes flow.round routeIndex,
          .completed flow.round routeIndex flow.attemptedRouteIds]))
  | retries (isCall : call.isRetry = true) (waiting : flow.state = .waitingRetry)
      (ends : deliveryStep flow call = { flow with
        round := saturatingSucc flow.round, nextRouteIndex := 0, pending := ∅,
        fallbackArmed := false, state := .running }.launchNext.map id .ok)
  | aborts (before : flow.state.isOver = false)
      (ends : deliveryStep flow call = ({ flow with state := .aborted },
        .ok [.cancelAllRoutes flow.round, .aborted]))

open MeshBatchDeliveryFlow (start abort routeResult retryElapsed launchNext finishRound
  fallbackElapsed)

open BatchDeliveryAction (launch? isTerminal armed?)

section Outcomes

variable {flow : MeshBatchDeliveryFlow Delay}

theorem outcome_start : DeliveryOutcome flow .start := by
  by_cases ready : flow.state = .ready
  · have started : flow.start = .ok { flow with state := .running }.launchNext := by
      simp [start, refuse, ready]
    exact .starts rfl ready (by rw [deliveryStep, started]; rfl)
  · exact .ignores (.error "Durable batch delivery already started")
      (by simp [deliveryStep, start, refuse, ready]) rfl (by simp)

/-- A result of a pending route: accepted, the last failure of the round, or one of others. -/
theorem outcome_routeResult (round routeIndex : UInt32) (accepted : Bool) (failure : String) :
    DeliveryOutcome flow (.routeResult round routeIndex accepted failure) := by
  have isResult : deliveryStep flow (.routeResult round routeIndex accepted failure) =
    (flow.routeResult round routeIndex accepted failure).map id .ok := rfl
  unfold routeResult at isResult
  dsimp only at isResult
  split at isResult
  · exact .ignores _ isResult rfl (by simp)
  · next current =>
    simp only [not_or, not_not] at current
    obtain ⟨running, rfl, launched⟩ := current
    split at isResult
    · next isAccepted =>
      subst isAccepted
      exact .completes routeIndex failure running rfl launched isResult
    · split at isResult
      · next room =>
        exact .relaunches _ _ _ running room (Finset.erase_subset _ _) rfl
          (fun armed => ⟨armed, by simp⟩) isResult
      · next all =>
        split at isResult
        · next none =>
          simp only [finishRound, none, ne_eq, not_true_eq_false, if_false] at isResult
          split at isResult
          · next delayMs left => exact .rests _ delayMs running left isResult
          · exact .fails _ _ running isResult
        · next some =>
          exact .waits _ _ _ running (Nat.not_lt.mp all) (Finset.erase_subset _ _) some
            (fun armed => ⟨armed, by simp⟩) isResult

theorem outcome_fallbackElapsed (round : UInt32)
    (pending : flow.state = .running → flow.pending ≠ ∅) :
    DeliveryOutcome flow (.fallbackElapsed round) := by
  have isElapsed : deliveryStep flow (.fallbackElapsed round) =
    (flow.fallbackElapsed round).map id .ok := rfl
  unfold fallbackElapsed at isElapsed
  split at isElapsed
  · next stale =>
    refine .ignores _ isElapsed rfl ?_
    intro running armed
    simp only [running, armed, ne_eq, not_true_eq_false, false_or, Bool.true_eq_false,
      or_false] at stale
    simpa using stale
  · next current =>
    simp only [not_or, not_not] at current
    dsimp only at isElapsed
    split at isElapsed
    · next room =>
      exact .relaunches _ _ false current.1 room (Finset.Subset.refl _) rfl (by simp) isElapsed
    · next all =>
      exact .waits _ _ false current.1 (Nat.not_lt.mp all) (Finset.Subset.refl _)
        (pending current.1) (by simp) isElapsed

theorem outcome_retryElapsed (round : UInt32) : DeliveryOutcome flow (.retryElapsed round) := by
  have isElapsed : deliveryStep flow (.retryElapsed round) =
    (flow.retryElapsed round).map id .ok := rfl
  unfold retryElapsed at isElapsed
  split at isElapsed
  · exact .ignores _ isElapsed rfl (by simp)
  · next current =>
    simp only [not_or, not_not] at current
    exact .retries rfl current.1 isElapsed

theorem outcome_abort : DeliveryOutcome flow .abort := by
  cases ended : flow.state.isOver with
  | true =>
    exact .ignores (.ok []) (by simp [deliveryStep, abort, ended]) rfl
      (by simp)
  | false => exact .aborts ended (by simp [deliveryStep, abort, ended])

theorem deliveryStep_outcome (pending : flow.state = .running → flow.pending ≠ ∅)
    (call : DeliveryCall) : DeliveryOutcome flow call := by
  cases call with
  | start => exact outcome_start
  | routeResult round routeIndex accepted failure =>
    exact outcome_routeResult round routeIndex accepted failure
  | fallbackElapsed round => exact outcome_fallbackElapsed round pending
  | retryElapsed round => exact outcome_retryElapsed round
  | abort => exact outcome_abort

end Outcomes

/-! ## What the host knows -/

section Ledger

variable {flow : MeshBatchDeliveryFlow Delay} {ledger : DeliveryLedger} {routeIds : List String}
  {retryDelaysMs : List Delay}

/-- The label of the round that so many rounds came before. -/
def roundLabel : Nat → UInt32
  | 0 => 0
  | before + 1 => saturatingSucc (roundLabel before)

/-- The first `count` routes, launched in order in the round `label`. -/
def launchesOf (label : UInt32) (count : Nat) : List (UInt32 × UInt32) :=
  (List.range count).map fun index => (label, UInt32.ofNat index)

theorem launchesOf_succ (label : UInt32) (count : Nat) :
    launchesOf label (count + 1) = launchesOf label count ++ [(label, UInt32.ofNat count)] := by
  simp [launchesOf, List.range_succ]

theorem mem_launchesOf (label : UInt32) {index count : Nat} (below : index < count) :
    (label, UInt32.ofNat index) ∈ launchesOf label count :=
  List.mem_map.mpr ⟨index, List.mem_range.mpr below, rfl⟩

@[simp] theorem length_launchesOf (label : UInt32) (count : Nat) :
    (launchesOf label count).length = count := by
  simp [launchesOf]

@[simp] theorem noteLaunches_nil (opens : Bool) (rounds : List (List (UInt32 × UInt32))) :
    noteLaunches [] opens rounds = rounds := by
  cases rounds <;> simp [noteLaunches]

/-- An update without launches and without a timer. -/
theorem DeliveryLedger.rounds_note_of_quiet (ledger : DeliveryLedger) {event : DeliveryEvent Delay}
    (quiet : ∀ action ∈ deliveryActions event, action.launch? = none) :
    (ledger.note event).rounds = ledger.rounds := by
  have none : (deliveryActions event).filterMap launch? = [] :=
    List.filterMap_eq_nil_iff.mpr quiet
  simp [DeliveryLedger.note, none]

theorem DeliveryLedger.timer_note_of_quiet {event : DeliveryEvent Delay}
    (quiet : ∀ action ∈ deliveryActions event, action.armed? = none) {round : UInt32}
    (running : ledger.timer = some round) (other : event.call ≠ .fallbackElapsed round) :
    (ledger.note event).timer = some round := by
  have none : (deliveryActions event).findSome? armed? = none :=
    List.findSome?_eq_none_iff.mpr quiet
  simp [DeliveryLedger.note, none, running, Ne.symm other]

variable (flow ledger) in
/-- A flow that runs: the ledger's current round is what it launched, an attempt is pending,
and the fallback timer runs while there are routes to launch. -/
structure DeliveryRuns : Prop where
  current : ∃ earlier, ledger.rounds = launchesOf flow.round flow.nextRouteIndex :: earlier ∧
    earlier.length = flow.retryIndex
  label : flow.round = roundLabel flow.retryIndex
  launched : flow.pending ⊆ Finset.range flow.nextRouteIndex
  pending : flow.pending ≠ ∅
  armed : flow.nextRouteIndex < flow.routeIds.length → flow.fallbackArmed = true
  timer : flow.fallbackArmed = true → ledger.timer = some flow.round
  left : flow.retryIndex ≤ flow.retryDelaysMs.length

variable (routeIds retryDelaysMs) in
/-- What holds of every flow and its ledger. -/
structure DeliverySound (flow : MeshBatchDeliveryFlow Delay) (ledger : DeliveryLedger) : Prop where
  routes : flow.routeIds = routeIds
  some : routeIds ≠ []
  delays : flow.retryDelaysMs = retryDelaysMs
  rounds : ∀ launches earlier, launches :: earlier <:+ ledger.rounds →
    ∃ count ≤ routeIds.length, launches = launchesOf (roundLabel earlier.length) count
  count : ledger.rounds.length ≤ retryDelaysMs.length + 1
  ready : flow.state = .ready → ledger.rounds = [] ∧ flow.retryIndex = 0 ∧
    flow.nextRouteIndex = 0 ∧ flow.pending = ∅ ∧ flow.fallbackArmed = false ∧ flow.round = 0
  running : flow.state = .running → DeliveryRuns flow ledger
  waiting : flow.state = .waitingRetry → ledger.rounds.length = flow.retryIndex ∧
    flow.retryIndex ≤ flow.retryDelaysMs.length ∧
    saturatingSucc flow.round = roundLabel flow.retryIndex

/-- A route is left, and it is launched. -/
theorem launchNext_of_room (room : flow.nextRouteIndex < flow.routeIds.length) :
    ∃ routeId armed, (armed = true ↔
        flow.nextRouteIndex + 1 < flow.routeIds.length ∧ flow.fallbackArmed = false) ∧
      flow.launchNext = ({ flow with
        nextRouteIndex := flow.nextRouteIndex + 1
        pending := insert flow.nextRouteIndex flow.pending
        attemptedRouteIds := flow.attemptedRouteIds ++ [routeId]
        fallbackArmed := flow.fallbackArmed || armed },
        .launchRoute flow.round (UInt32.ofNat flow.nextRouteIndex) ::
          if armed then [.armFallback flow.round flow.fallbackDelayMs] else []) := by
  refine ⟨flow.routeIds[flow.nextRouteIndex], decide (flow.nextRouteIndex + 1 <
    flow.routeIds.length) && !flow.fallbackArmed, by simp, ?_⟩
  rw [launchNext, List.getElem?_eq_getElem room]

section

variable {call : DeliveryCall} {before : MeshBatchDeliveryFlow Delay}
  {earlier : List (List (UInt32 × UInt32))} (room : flow.nextRouteIndex < flow.routeIds.length)
  (launched : flow.pending ⊆ Finset.range flow.nextRouteIndex)
  (left : flow.retryIndex ≤ flow.retryDelaysMs.length)
  (rounds : noteLaunches [(flow.round, UInt32.ofNat flow.nextRouteIndex)] call.isRetry
    ledger.rounds = launchesOf flow.round (flow.nextRouteIndex + 1) :: earlier)
  (count : earlier.length = flow.retryIndex) (label : flow.round = roundLabel flow.retryIndex)
  (timer : flow.fallbackArmed = true → ledger.timer = some flow.round ∧
    call ≠ .fallbackElapsed flow.round)
include room launched left rounds count label timer

/-- A launch in the current round, or the first of a new one, leaves the flow running. -/
theorem runs_launchNext :
    DeliveryRuns flow.launchNext.1 (ledger.note ⟨before, call, .ok flow.launchNext.2⟩) := by
  obtain ⟨routeId, armed, isArmed, launches⟩ := launchNext_of_room room
  rw [launches]
  constructor
  · refine ⟨earlier, ?_, count⟩
    rw [← rounds]
    cases armed <;> rfl
  · exact label
  · intro index held
    rcases Finset.mem_insert.mp held with rfl | old
    · exact Finset.mem_range.mpr (Nat.lt_succ_self _)
    · exact Finset.mem_range.mpr (Nat.lt_succ_of_lt (Finset.mem_range.mp (launched old)))
  · exact Finset.insert_ne_empty _ _
  · intro more
    cases already : flow.fallbackArmed with
    | true => rfl
    | false => exact isArmed.mpr ⟨more, already⟩
  · intro isOn
    cases armed with
    | true => rfl
    | false =>
      obtain ⟨running, other⟩ := timer (by simpa using isOn)
      refine DeliveryLedger.timer_note_of_quiet ?_ running other
      intro action held
      obtain rfl := List.mem_singleton.mp held
      rfl
  · exact left

theorem sound_launchNext (routes : flow.routeIds = routeIds)
    (delays : flow.retryDelaysMs = retryDelaysMs) (isRunning : flow.state = .running)
    (old : ∀ launches before, launches :: before <:+ earlier →
      ∃ count ≤ routeIds.length, launches = launchesOf (roundLabel before.length) count) :
    DeliverySound routeIds retryDelaysMs flow.launchNext.1
      (ledger.note ⟨before, call, .ok flow.launchNext.2⟩) := by
  have runs : DeliveryRuns flow.launchNext.1 (ledger.note ⟨before, call, .ok flow.launchNext.2⟩) :=
    runs_launchNext room launched left rounds count label timer
  obtain ⟨routeId, armed, _, launches⟩ := launchNext_of_room room
  have noted : (ledger.note ⟨before, call, .ok flow.launchNext.2⟩).rounds =
      launchesOf flow.round (flow.nextRouteIndex + 1) :: earlier := by
    rw [launches, ← rounds]
    cases armed <;> rfl
  have nowRunning : flow.launchNext.1.state = .running := by rw [launches]; exact isRunning
  subst routes delays
  constructor
  · rw [launches]
  · exact fun none => absurd room (by simp [none])
  · rw [launches]
  · intro launches before suffix
    rw [noted, List.suffix_cons_iff] at suffix
    rcases suffix with same | older
    · obtain ⟨rfl, rfl⟩ := List.cons.inj same
      exact ⟨flow.nextRouteIndex + 1, room, by rw [label, count]⟩
    · exact old launches before older
  · rw [noted, List.length_cons, count]
    exact Nat.succ_le_succ left
  · exact fun ready => by rw [nowRunning] at ready; cases ready
  · exact fun _ => runs
  · exact fun waiting => by rw [nowRunning] at waiting; cases waiting

end

/-- A call that causes nothing and lets the timer run leaves the flow running. -/
theorem DeliveryRuns.quiet (runs : DeliveryRuns flow ledger) {event : DeliveryEvent Delay}
    {pending : Finset Nat} {failures : List String} {armed : Bool}
    (quiet : deliveryActions event = []) (within : pending ⊆ flow.pending) (some : pending ≠ ∅)
    (arms : flow.nextRouteIndex < flow.routeIds.length → armed = true)
    (timer : armed = true → flow.fallbackArmed = true ∧ event.call ≠ .fallbackElapsed flow.round) :
    DeliveryRuns { flow with pending := pending, failures := failures, fallbackArmed := armed }
      (ledger.note event) := by
  refine ⟨?_, runs.label, within.trans runs.launched, some, arms, ?_, runs.left⟩
  · rw [DeliveryLedger.rounds_note_of_quiet ledger (by simp [quiet])]
    exact runs.current
  · intro isArmed
    obtain ⟨was, other⟩ := timer isArmed
    exact DeliveryLedger.timer_note_of_quiet (by simp [quiet]) (runs.timer was) other

/-- A call that launches nothing keeps what does not depend on the state. -/
theorem DeliverySound.quiet (sound : DeliverySound routeIds retryDelaysMs flow ledger)
    {next : MeshBatchDeliveryFlow Delay} {event : DeliveryEvent Delay}
    (routes : next.routeIds = flow.routeIds) (delays : next.retryDelaysMs = flow.retryDelaysMs)
    (silent : ∀ action ∈ deliveryActions event, action.launch? = none)
    (unready : next.state ≠ .ready)
    (running : next.state = .running → DeliveryRuns next (ledger.note event))
    (waiting : next.state = .waitingRetry → ledger.rounds.length = next.retryIndex ∧
      next.retryIndex ≤ next.retryDelaysMs.length ∧
      saturatingSucc next.round = roundLabel next.retryIndex) :
    DeliverySound routeIds retryDelaysMs next (ledger.note event) := by
  have same := DeliveryLedger.rounds_note_of_quiet ledger silent
  constructor
  · exact routes.trans sound.routes
  · exact sound.some
  · exact delays.trans sound.delays
  · rw [same]
    exact sound.rounds
  · rw [same]
    exact sound.count
  · exact fun ready => absurd ready unready
  · exact running
  · rw [same]
    exact waiting

/-- One call keeps the flow and the ledger together. -/
theorem DeliverySound.step (sound : DeliverySound routeIds retryDelaysMs flow ledger)
    (call : DeliveryCall) :
    DeliverySound routeIds retryDelaysMs (deliveryStep flow call).1
      (ledger.note (eventAt deliveryStep flow call)) := by
  have routesLeft : 0 < flow.routeIds.length := by
    rw [sound.routes]
    exact List.length_pos_iff.mpr sound.some
  unfold eventAt
  cases deliveryStep_outcome (fun running => (sound.running running).pending) call with
  | ignores answer ends quiet stale =>
    rw [ends]
    have same : (ledger.note ⟨flow, call, answer⟩).rounds = ledger.rounds :=
      DeliveryLedger.rounds_note_of_quiet ledger (by simp [quiet])
    refine ⟨sound.routes, sound.some, sound.delays, same ▸ sound.rounds, same ▸ sound.count,
      same ▸ sound.ready, ?_, same ▸ sound.waiting⟩
    intro running
    have runs := sound.running running
    exact runs.quiet quiet subset_rfl runs.pending runs.armed fun armed =>
      ⟨armed, stale running armed⟩
  | starts isCall ready ends =>
    rw [ends]
    obtain ⟨none, index, next, pending, armed, label⟩ := sound.ready ready
    have first : noteLaunches [(flow.round, UInt32.ofNat flow.nextRouteIndex)] call.isRetry
        ledger.rounds = [launchesOf flow.round (flow.nextRouteIndex + 1)] := by
      rw [none, next]
      rfl
    refine sound_launchNext (by rw [next]; exact routesLeft)
      (by rw [pending]; exact Finset.empty_subset _) (by rw [index]; exact Nat.zero_le _) first
      index.symm (by rw [index]; exact label) ?_ sound.routes sound.delays rfl (by simp)
    intro isArmed
    cases armed.symm.trans isArmed
  | relaunches pending failures armed running room within sameRound timer ends =>
    rw [ends]
    have runs := sound.running running
    obtain ⟨earlier, isCurrent, count⟩ := runs.current
    refine sound_launchNext room (within.trans runs.launched) runs.left ?_ count runs.label ?_
      sound.routes sound.delays running ?_
    · rw [isCurrent, launchesOf_succ, sameRound]
      simp [noteLaunches]
    · intro isArmed
      obtain ⟨was, other⟩ := timer isArmed
      exact ⟨runs.timer was, other⟩
    · intro launches before suffix
      exact sound.rounds launches before (isCurrent ▸ suffix.trans (List.suffix_cons _ _))
  | waits pending failures armed running all within some' timer ends =>
    rw [ends]
    refine sound.quiet rfl rfl (by simp [deliveryActions]) (by simp [running]) (fun _ => ?_)
      (by simp [running])
    exact (sound.running running).quiet rfl within some'
      (fun room => absurd room (Nat.not_lt.mpr all)) timer
  | rests failures delayMs running left ends =>
    rw [ends]
    have runs := sound.running running
    obtain ⟨earlier, isCurrent, count⟩ := runs.current
    refine sound.quiet rfl rfl (by simp [deliveryActions, launch?]) (by simp)
      (by simp) fun _ => ⟨?_, ?_, ?_⟩
    · rw [isCurrent, List.length_cons, count]
    · exact (List.getElem?_eq_some_iff.mp left).1
    · exact congrArg saturatingSucc runs.label
  | fails failures message running ends
  | completes routeIndex failure running isCall launched ends
  | aborts before ends =>
    rw [ends]
    exact sound.quiet rfl rfl (by simp [deliveryActions, launch?]) (by simp)
      (by simp) (by simp)
  | retries isCall waiting ends =>
    rw [ends]
    obtain ⟨count, left, label⟩ := sound.waiting waiting
    refine sound_launchNext routesLeft (Finset.empty_subset _) left ?_ count label (by simp)
      sound.routes sound.delays rfl sound.rounds
    cases isRounds : ledger.rounds with
    | nil => rfl
    | cons current earlier =>
      rw [isCall]
      simp [noteLaunches, launchesOf]

/-- A flow that was made, before any call. -/
theorem deliverySound_new {isDelay : Delay → Bool} {targetDeviceId : String}
    {fallbackDelayMs : Delay} (made : MeshBatchDeliveryFlow.new isDelay targetDeviceId routeIds
      fallbackDelayMs retryDelaysMs = .ok flow) :
    flow.state = .ready ∧ DeliverySound routeIds retryDelaysMs flow {} := by
  obtain ⟨valid, made⟩ := refuse_bind_ok.mp made
  obtain ⟨_, made⟩ := refuse_bind_ok.mp made
  obtain rfl := Except.ok.inj made
  simp only [not_or] at valid
  exact ⟨rfl, rfl, valid.2.1, rfl, by simp, by simp, fun _ => ⟨rfl, rfl, rfl, rfl, rfl, rfl⟩,
    by simp, by simp⟩

theorem DeliverySound.run (sound : DeliverySound routeIds retryDelaysMs flow {})
    (calls : List DeliveryCall) :
    DeliverySound routeIds retryDelaysMs (Machine.run deliveryStep flow calls)
      (deliveryLedger (events deliveryStep flow calls)) := by
  induction calls using List.reverseRecOn with
  | nil => exact sound
  | append_singleton calls call ih =>
    rw [run_append, run_cons, run_nil, events_append, events_cons, events_nil, deliveryLedger,
      List.foldl_append]
    exact ih.step call

/-! ## Terminal actions -/

/-- A launch is no end. -/
theorem launchNext_goesOn (room : flow.nextRouteIndex < flow.routeIds.length) :
    (∀ action ∈ flow.launchNext.2, action.isTerminal = false) ∧
      flow.launchNext.1.state = flow.state := by
  obtain ⟨routeId, armed, _, launches⟩ := launchNext_of_room room
  rw [launches]
  cases armed <;> simp [isTerminal]

variable (flow)

/-- The call goes on with the flow: no terminal action. -/
def GoesOn (call : DeliveryCall) : Prop :=
  (∀ action ∈ deliveryActions (eventAt deliveryStep flow call), action.isTerminal = false) ∧
    (deliveryStep flow call).1.state.isOver = flow.state.isOver

/-- The call ends the flow with one terminal action; it completes for a pending route that was
accepted. -/
structure Ends (call : DeliveryCall) : Prop where
  before : flow.state.isOver = false
  after : (deliveryStep flow call).1.state.isOver = true
  once : (deliveryActions (eventAt deliveryStep flow call)).countP
    BatchDeliveryAction.isTerminal = 1
  accepted : ∀ round routeIndex attempted,
    .completed round routeIndex attempted ∈ deliveryActions (eventAt deliveryStep flow call) →
      flow.state = .running ∧ round = flow.round ∧ routeIndex.toNat ∈ flow.pending ∧
        ∃ failure, call = .routeResult round routeIndex true failure

variable {flow}

theorem goesOn_of_launch {call : DeliveryCall} {base : MeshBatchDeliveryFlow Delay}
    (ends : deliveryStep flow call = base.launchNext.map id .ok)
    (room : base.nextRouteIndex < base.routeIds.length) (isRunning : base.state = .running)
    (before : flow.state.isOver = false) : GoesOn flow call := by
  obtain ⟨silent, same⟩ := launchNext_goesOn room
  constructor
  · intro action held
    rw [eventAt, ends] at held
    exact silent action held
  · rw [ends, before]
    show base.launchNext.1.state.isOver = false
    rw [same, isRunning]
    rfl

theorem DeliverySound.goesOn_or_ends (sound : DeliverySound routeIds retryDelaysMs flow ledger)
    (call : DeliveryCall) : GoesOn flow call ∨ Ends flow call := by
  have routesLeft : 0 < flow.routeIds.length := by
    rw [sound.routes]
    exact List.length_pos_iff.mpr sound.some
  cases deliveryStep_outcome (fun running => (sound.running running).pending) call with
  | ignores answer ends quiet stale =>
    refine .inl ⟨?_, by rw [ends]⟩
    rw [eventAt, ends, quiet]
    simp
  | starts isCall ready ends =>
    refine .inl (goesOn_of_launch ends ?_ rfl (by rw [ready]; rfl))
    exact (sound.ready ready).2.2.1 ▸ routesLeft
  | relaunches pending failures armed running room within sameRound timer ends =>
    exact .inl (goesOn_of_launch ends room running (by rw [running]; rfl))
  | waits pending failures armed running all within some' timer ends =>
    refine .inl ⟨?_, by rw [ends]⟩
    rw [eventAt, ends]
    simp [deliveryActions]
  | rests failures delayMs running left ends =>
    refine .inl ⟨?_, by rw [ends, running]; rfl⟩
    rw [eventAt, ends]
    simp [deliveryActions, isTerminal]
  | fails failures message running ends =>
    refine .inr ⟨by rw [running]; rfl, by rw [ends]; rfl, ?_, ?_⟩
    · rw [eventAt, ends]
      rfl
    · rw [eventAt, ends]
      simp [deliveryActions]
  | completes routeIndex failure running isCall launched ends =>
    refine .inr ⟨by rw [running]; rfl, by rw [ends]; rfl, ?_, ?_⟩
    · rw [eventAt, ends]
      rfl
    · rw [eventAt, ends]
      intro round index attempted held
      obtain ⟨rfl, rfl, _⟩ : round = flow.round ∧ index = routeIndex ∧
        attempted = flow.attemptedRouteIds := by simpa [deliveryActions] using held
      exact ⟨running, rfl, launched, failure, isCall⟩
  | retries isCall waiting ends =>
    exact .inl (goesOn_of_launch ends routesLeft rfl (by rw [waiting]; rfl))
  | aborts before ends =>
    refine .inr ⟨before, by rw [ends]; rfl, ?_, ?_⟩
    · rw [eventAt, ends]
      rfl
    · rw [eventAt, ends]
      simp [deliveryActions]

/-- A terminal action is told when the flow ends, and at no other call. -/
theorem DeliverySound.countP_terminals (sound : DeliverySound routeIds retryDelaysMs flow {})
    (ready : flow.state = .ready) (calls : List DeliveryCall) :
    ((events deliveryStep flow calls).flatMap deliveryActions).countP
      isTerminal = if (Machine.run deliveryStep flow calls).state.isOver then 1 else 0 := by
  induction calls using List.reverseRecOn with
  | nil =>
    rw [run_nil, ready]
    rfl
  | append_singleton calls call ih =>
    rw [events_append, List.flatMap_append, List.countP_append, ih, events_cons, events_nil,
      List.flatMap_singleton, run_append, run_cons, run_nil]
    rcases (sound.run calls).goesOn_or_ends call with ⟨silent, same⟩ | ends
    · rw [same, List.countP_eq_zero.mpr (by simpa using silent), Nat.add_zero]
    · rw [ends.before, ends.after, ends.once]
      rfl

/-! ## Every run -/

/-- What is guaranteed after a run of calls, in the terms of the host: `ledger` is what it knows
and `current` the flow. -/
structure DeliveryGuarantees (routeIds : List String) (retries : Nat)
    (trace : List (DeliveryEvent Delay)) (current : MeshBatchDeliveryFlow Delay) : Prop where
  /-- In each round the routes are launched in order, from the first, each once, under the
  label of the round. -/
  launches : ∀ launches earlier, launches :: earlier <:+ (deliveryLedger trace).rounds →
    ∃ count ≤ routeIds.length, launches = (List.range count).map fun index =>
      (roundLabel earlier.length, UInt32.ofNat index)
  terminal : (trace.flatMap deliveryActions).countP BatchDeliveryAction.isTerminal ≤ 1
  rounds : (deliveryLedger trace).rounds.length ≤ retries + 1
  /-- A call completes the flow only as the accepted result of a route of the current round. -/
  completion : ∀ call round routeIndex attempted,
    .completed round routeIndex attempted ∈ deliveryActions (eventAt deliveryStep current call) →
      (∃ failure, call = .routeResult round routeIndex true failure) ∧
        ∃ launches earlier, (deliveryLedger trace).rounds = launches :: earlier ∧
          (round, routeIndex) ∈ launches
  /-- While the flow runs, an attempt is pending, and the fallback timer runs if routes of the
  current round remain. -/
  running : current.state = .running → current.pending ≠ ∅ ∧
    ∃ launches earlier, (deliveryLedger trace).rounds = launches :: earlier ∧
      (∀ index ∈ current.pending, (current.round, UInt32.ofNat index) ∈ launches) ∧
      (launches.length < routeIds.length → current.fallbackArmed = true ∧
        (deliveryLedger trace).timer = some current.round)

/-- Whatever the host calls, the guarantees hold. -/
theorem batch_delivery {isDelay : Delay → Bool} {targetDeviceId : String} {fallbackDelayMs : Delay}
    (made : MeshBatchDeliveryFlow.new isDelay targetDeviceId routeIds fallbackDelayMs
      retryDelaysMs = .ok flow) (calls : List DeliveryCall) :
    DeliveryGuarantees routeIds retryDelaysMs.length (events deliveryStep flow calls)
      (Machine.run deliveryStep flow calls) := by
  obtain ⟨ready, start⟩ := deliverySound_new made
  have sound := start.run calls
  constructor
  · exact sound.rounds
  · rw [start.countP_terminals ready]
    split <;> decide
  · exact sound.count
  · intro call round routeIndex attempted told
    rcases sound.goesOn_or_ends call with ⟨silent, _⟩ | ends
    · cases silent _ told
    · obtain ⟨running, rfl, launched, accepted⟩ := ends.accepted round routeIndex attempted told
      have runs := sound.running running
      obtain ⟨earlier, isCurrent, _⟩ := runs.current
      refine ⟨accepted, _, earlier, isCurrent, ?_⟩
      have held := mem_launchesOf (Machine.run deliveryStep flow calls).round
        (Finset.mem_range.mp (runs.launched launched))
      rwa [UInt32.ofNat_toNat] at held
  · intro running
    have runs := sound.running running
    obtain ⟨earlier, isCurrent, _⟩ := runs.current
    refine ⟨runs.pending, _, earlier, isCurrent, ?_, ?_⟩
    · intro index held
      exact mem_launchesOf _ (Finset.mem_range.mp (runs.launched held))
    · intro room
      rw [length_launchesOf, ← sound.routes] at room
      exact ⟨runs.armed room, runs.timer (runs.armed room)⟩

end Ledger

namespace Sample

/-- Two routes fail; in the second round a late result of the first is ignored, and the second
route is accepted. -/
def deliveryCalls : List DeliveryCall :=
  [.start, .routeResult 0 0 false "down", .routeResult 0 1 false "down", .retryElapsed 0,
    .routeResult 0 1 true "", .fallbackElapsed 1, .routeResult 1 1 true ""]

end Sample

open Sample

theorem batch_delivery_sample : ∃ flow : MeshBatchDeliveryFlow Nat,
    MeshBatchDeliveryFlow.new (fun _ => true) "device" ["lan", "relay"] 10 [50] = .ok flow ∧
      (run deliveryStep flow deliveryCalls).state = .complete ∧
      DeliveryGuarantees ["lan", "relay"] 1 (events deliveryStep flow deliveryCalls)
        (run deliveryStep flow deliveryCalls) := by
  refine ⟨⟨"device", ["lan", "relay"], 10, [50], 0, 0, 0, ∅, false, [], [], .ready⟩,
    (and_iff_left_of_imp fun made => ⟨by decide, batch_delivery made _⟩).mpr rfl⟩

end MetaMesh
