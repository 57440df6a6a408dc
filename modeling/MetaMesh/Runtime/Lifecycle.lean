import MetaMesh.Runtime.Sessions

/-!
# The life of a session

`session_lifecycle.rs`.  The host installs sessions, each in a new generation, and reports
what happens to them later, when the session may have been replaced.  The lifecycle decides
which of the reports still count: a session is published as stable, failed or recovered once,
and only while it is the current one of its key, and its connection is closed once.

`liveAfter` says which sessions are current from what was called and answered alone.
`session_generations` is about every run of calls, in any order and for any keys.
-/

namespace MetaMesh

open Fallible Machine

/-- What a session replaces, and when it is stable. -/
structure SessionInstallDecision where
  generation : Nat
  replacedGeneration : Option Nat
  replacedConnectionId : Option String
  stableAfterMs : Nat
deriving DecidableEq, Repr

/-- What an eviction leaves to do. -/
structure SessionEvictionDecision where
  shouldClose : Bool
  wasCurrent : Bool
  connectionId : Option String
deriving DecidableEq, Repr

/-- What a session reports. -/
inductive SessionCallbackEvent
  | recovery
  | stable
  | heartbeatFailed
  | receiveSucceeded
  | receiveFailed
deriving DecidableEq, Repr

/-- What follows from a report. -/
structure SessionCallbackPlan where
  publishRecovery : Bool := false
  stable : Bool := false
  reportFailure : Bool := false
  evict : Bool := false
deriving DecidableEq, Repr

/-- The connections of a workspace to publish. -/
structure SessionWorkspacePublishPlan where
  workspaceId : String
  connectionIds : List String
deriving DecidableEq, Repr

/-- A session as the runtime follows it. -/
structure SessionLifecycleEntry where
  connectionId : String
  stableAtMs : Nat
  stable : Bool := false
  failureReported : Bool := false
  recoveryPublished : Bool := false
  evicted : Bool := false
deriving DecidableEq, Repr

/-- What the host reports once for a session. -/
inductive SessionReport
  | stable
  | failure
  | recovery
deriving DecidableEq, Repr

def SessionReport.published (entry : SessionLifecycleEntry) : SessionReport → Bool
  | stable => entry.stable
  | failure => entry.failureReported
  | recovery => entry.recoveryPublished

def SessionReport.publish (entry : SessionLifecycleEntry) : SessionReport → SessionLifecycleEntry
  | stable => { entry with stable := true }
  | failure => { entry with failureReported := true }
  | recovery => { entry with recoveryPublished := true }

/-- What a plan tells the host to publish. -/
def SessionCallbackPlan.tells (plan : SessionCallbackPlan) : SessionReport → Bool
  | .stable => plan.stable
  | .failure => plan.reportFailure
  | .recovery => plan.publishRecovery

/-- All sessions, by key and generation. -/
structure MeshSessionLifecycleState where
  stableAfterMs : Nat
  current : Table SessionKey Nat
  entries : Table (SessionKey × Nat) SessionLifecycleEntry
  lastGeneration : Nat

namespace MeshSessionLifecycleState

def new (stableAfterMs : Nat) : MeshSessionLifecycleState :=
  ⟨stableAfterMs, ∅, ∅, 0⟩

variable (state : MeshSessionLifecycleState) (key : SessionKey)

/-- A new generation becomes the current one of its key. -/
def register (connectionId : String) (generation nowMs : Nat) :
    Except String (MeshSessionLifecycleState × SessionInstallDecision) := do
  refuse (key.workspaceId = "" ∨ key.deviceId = "" ∨ key.instanceId = "" ∨ connectionId = "" ∨
    generation = 0 ∨ (key, generation) ∈ state.entries)
    "Invalid mesh session lifecycle registration"
  let replacedGeneration := state.current.lookup key
  refuse (generation ≤ state.lastGeneration) "Stale mesh session generation"
  let replacedConnectionId := (replacedGeneration.bind fun previous =>
    state.entries.lookup (key, previous)).map SessionLifecycleEntry.connectionId
  let stableAtMs := min (nowMs + state.stableAfterMs) maxU64
  .ok (⟨state.stableAfterMs, state.current.insert key generation,
      state.entries.insert (key, generation) ⟨connectionId, stableAtMs, false, false, false, false⟩,
      generation⟩,
    ⟨generation, replacedGeneration, replacedConnectionId, state.stableAfterMs⟩)

/-- The three reports: they count for the current session, once, and when they are due. -/
def report (kind : SessionReport) (due : SessionLifecycleEntry → Bool)
    (state : MeshSessionLifecycleState) (key : SessionKey) (generation : Nat) :
    MeshSessionLifecycleState × Bool :=
  if state.current.lookup key ≠ some generation then (state, false)
  else
    match state.entries.lookup (key, generation) with
    | none => (state, false)
    | some entry =>
      if entry.evicted || kind.published entry || !due entry then (state, false)
      else
        ({ state with entries := state.entries.insert (key, generation) (kind.publish entry) },
          true)

def markStable (generation nowMs : Nat) : MeshSessionLifecycleState × Bool :=
  report .stable (fun entry => entry.stableAtMs ≤ nowMs) state key generation

def reportFailure (generation : Nat) : MeshSessionLifecycleState × Bool :=
  report .failure (fun _ => true) state key generation

def publishRecovery (generation : Nat) : MeshSessionLifecycleState × Bool :=
  report .recovery (fun _ => true) state key generation

/-- The entry after a callback, and what the host is to do. -/
def callbackEntry (isCurrent : Bool) (entry : SessionLifecycleEntry) (nowMs : Nat) :
    SessionCallbackEvent → SessionLifecycleEntry × SessionCallbackPlan
  | .recovery =>
    if isCurrent && !entry.recoveryPublished then
      ({ entry with recoveryPublished := true }, { publishRecovery := true })
    else (entry, {})
  | .stable =>
    if isCurrent && !entry.stable && entry.stableAtMs ≤ nowMs then
      ({ entry with stable := true }, { stable := true })
    else (entry, {})
  | .heartbeatFailed =>
    if isCurrent && !entry.failureReported then
      ({ entry with failureReported := true }, { reportFailure := true, evict := true })
    else (entry, {})
  | .receiveFailed =>
    let reportFailure := isCurrent && !entry.failureReported
    ({ entry with failureReported := entry.failureReported || reportFailure },
      { reportFailure := reportFailure, evict := true })
  | .receiveSucceeded => (entry, { evict := true })

/-- What to do about an event of a session, unless it is evicted. -/
def callbackPlan (generation : Nat) (event : SessionCallbackEvent) (nowMs : Nat) :
    MeshSessionLifecycleState × SessionCallbackPlan :=
  let isCurrent := decide (state.current.lookup key = some generation)
  match state.entries.lookup (key, generation) with
  | none => (state, {})
  | some entry =>
    if entry.evicted then (state, {})
    else
      let (entry, plan) := callbackEntry isCurrent entry nowMs event
      ({ state with entries := state.entries.insert (key, generation) entry }, plan)

def entryOrder (entry : (_ : SessionKey × Nat) × SessionLifecycleEntry) :
    List Nat ×ₗ List Nat ×ₗ List Nat ×ₗ Nat :=
  toLex (strKey entry.1.1.workspaceId, toLex (strKey entry.1.1.deviceId,
    toLex (strKey entry.1.1.instanceId, entry.1.2)))

def isCurrent (entry : (_ : SessionKey × Nat) × SessionLifecycleEntry) : Bool :=
  !entry.2.evicted && state.current.lookup entry.1.1 = some entry.1.2

def publishPlan : List SessionWorkspacePublishPlan :=
  let workspaces := Table.groupBy (fun entry => entry.1.1.workspaceId)
    ((sortBy entryOrder state.entries.entries).filter state.isCurrent)
  (sortBy (fun group => strKey group.1) workspaces.entries).map fun group =>
    ⟨group.1, group.2.map fun entry => entry.2.connectionId⟩

/-- The entry is marked, and then removed. -/
def evict (generation : Nat) : MeshSessionLifecycleState × SessionEvictionDecision :=
  match state.entries.lookup (key, generation) with
  | none => (state, ⟨false, false, none⟩)
  | some entry =>
    if entry.evicted then (state, ⟨false, false, some entry.connectionId⟩)
    else
      let wasCurrent := decide (state.current.lookup key = some generation)
      let current := if wasCurrent then state.current.erase key else state.current
      ({ state with current := current, entries := state.entries.erase (key, generation) },
        ⟨true, wasCurrent, some entry.connectionId⟩)

def clear : MeshSessionLifecycleState :=
  { state with current := ∅, entries := ∅ }

end MeshSessionLifecycleState

/-! ## Runs -/

/-- The calls of the lifecycle. -/
inductive SessionCall
  | register (key : SessionKey) (connectionId : String) (generation nowMs : Nat)
  | markStable (key : SessionKey) (generation nowMs : Nat)
  | reportFailure (key : SessionKey) (generation : Nat)
  | publishRecovery (key : SessionKey) (generation : Nat)
  | callback (key : SessionKey) (generation : Nat) (event : SessionCallbackEvent) (nowMs : Nat)
  | evict (key : SessionKey) (generation : Nat)
  | clear
deriving DecidableEq, Repr

/-- What a call answers. -/
inductive SessionAnswer
  | registered (result : Except String SessionInstallDecision)
  | reported (published : Bool)
  | planned (plan : SessionCallbackPlan)
  | evicted (decision : SessionEvictionDecision)
  | cleared

def sessionStep (state : MeshSessionLifecycleState) :
    SessionCall → MeshSessionLifecycleState × SessionAnswer
  | .register key connectionId generation nowMs =>
    match state.register key connectionId generation nowMs with
    | .ok (next, decision) => (next, .registered (.ok decision))
    | .error reason => (state, .registered (.error reason))
  | .markStable key generation nowMs =>
    (state.markStable key generation nowMs).map id .reported
  | .reportFailure key generation => (state.reportFailure key generation).map id .reported
  | .publishRecovery key generation => (state.publishRecovery key generation).map id .reported
  | .callback key generation event nowMs =>
    (state.callbackPlan key generation event nowMs).map id .planned
  | .evict key generation => (state.evict key generation).map id .evicted
  | .clear => (state.clear, .cleared)

abbrev SessionEvent := Event MeshSessionLifecycleState SessionCall SessionAnswer

/-- The session that a report, a callback or an eviction is about. -/
def SessionCall.target : SessionCall → Option (SessionKey × Nat)
  | register _ _ _ _ => none
  | markStable key generation _ => some (key, generation)
  | reportFailure key generation => some (key, generation)
  | publishRecovery key generation => some (key, generation)
  | callback key generation _ _ => some (key, generation)
  | evict key generation => some (key, generation)
  | clear => none

/-- The host is told to close the connection of a session. -/
def closes (key : SessionKey) (generation : Nat) (event : SessionEvent) : Bool :=
  event.call.target = some (key, generation) &&
    match event.answer with
    | .evicted decision => decision.shouldClose
    | _ => false

/-- The host is told to publish something about a session. -/
def publishes (kind : SessionReport) (key : SessionKey) (generation : Nat) (event : SessionEvent) :
    Bool :=
  event.call.target = some (key, generation) &&
    match event.call, event.answer, kind with
    | .markStable _ _ _, .reported published, .stable => published
    | .reportFailure _ _, .reported published, .failure => published
    | .publishRecovery _ _, .reported published, .recovery => published
    | .callback _ _ _ _, .planned plan, kind => plan.tells kind
    | _, _, _ => false

/-- The current session of each key: the one installed last, until it is evicted or all are
dropped. -/
def liveStep (live : SessionKey → Option (Nat × String)) (event : SessionEvent) :
    SessionKey → Option (Nat × String) :=
  match event.call, event.answer with
  | .register key connectionId generation _, .registered (.ok _) =>
    Function.update live key (some (generation, connectionId))
  | .evict key generation, _ =>
    if (live key).map Prod.fst = some generation then Function.update live key none else live
  | .clear, _ => fun _ => none
  | _, _ => live

def liveAfter (stableAfterMs : Nat) (calls : List SessionCall) :
    SessionKey → Option (Nat × String) :=
  (events sessionStep (.new stableAfterMs) calls).foldl liveStep fun _ => none

/-! ## What a call can do -/

namespace MeshSessionLifecycleState

/-- What holds of every state: the current sessions have entries, no entry is evicted, and
no generation is ahead of the last one installed. -/
structure Sound (state : MeshSessionLifecycleState) : Prop where
  current : ∀ key generation, state.current.lookup key = some generation →
    (key, generation) ∈ state.entries
  kept : ∀ session entry, state.entries.lookup session = some entry → entry.evicted = false
  known : ∀ session ∈ state.entries, session.2 ≤ state.lastGeneration

/-- The entries of the other sessions stay, and so does the current generation unless it is
the one meant. -/
structure Spares (key : SessionKey) (generation : Nat) (state next : MeshSessionLifecycleState) :
    Prop where
  entries : ∀ session, session ≠ (key, generation) →
    next.entries.lookup session = state.entries.lookup session
  current : ∀ other, state.current.lookup other ≠ some generation ∨ other ≠ key →
    next.current.lookup other = state.current.lookup other
  last : next.lastGeneration = state.lastGeneration

/-- The ways a call ends. -/
inductive Outcome (state : MeshSessionLifecycleState) (call : SessionCall) : Prop
  | installs (key : SessionKey) (connectionId : String) (generation nowMs stableAtMs : Nat)
      (decision : SessionInstallDecision)
      (isCall : call = .register key connectionId generation nowMs)
      (above : state.lastGeneration < generation)
      (ends : sessionStep state call =
        (⟨state.stableAfterMs, state.current.insert key generation, state.entries.insert
          (key, generation) ⟨connectionId, stableAtMs, false, false, false, false⟩, generation⟩,
          .registered (.ok decision)))
  | marks (key : SessionKey) (generation : Nat) (entry marked : SessionLifecycleEntry)
      (answer : SessionAnswer) (isTarget : call.target = some (key, generation))
      (found : state.entries.lookup (key, generation) = some entry)
      (kept : marked.evicted = false) (same : marked.connectionId = entry.connectionId)
      (ends : sessionStep state call =
        ({ state with entries := state.entries.insert (key, generation) marked }, answer))
      (due : ∀ kind, publishes kind key generation ⟨state, call, answer⟩ = true →
        state.current.lookup key = some generation ∧ kind.published entry = false)
      (notes : ∀ kind, kind.published marked =
        (kind.published entry || publishes kind key generation ⟨state, call, answer⟩))
      (stays : closes key generation ⟨state, call, answer⟩ = false ∧
        ∀ live, liveStep live ⟨state, call, answer⟩ = live)
  | removes (key : SessionKey) (generation : Nat) (entry : SessionLifecycleEntry)
      (isCall : call = .evict key generation)
      (found : state.entries.lookup (key, generation) = some entry)
      (ends : sessionStep state call = ({ state with
            current := if state.current.lookup key = some generation then state.current.erase key
              else state.current
            entries := state.entries.erase (key, generation) },
          .evicted ⟨true, decide (state.current.lookup key = some generation),
            some entry.connectionId⟩))
  | drops (isCall : call = .clear) (ends : sessionStep state call = (state.clear, .cleared))
  | ignores (answer : SessionAnswer) (ends : sessionStep state call = (state, answer))
      (silent : ∀ kind key generation, publishes kind key generation ⟨state, call, answer⟩ = false)
      (leaves : ∀ key generation, closes key generation ⟨state, call, answer⟩ = false)
      (stays : ∀ live, (∀ key generation, call = .evict key generation →
          (live key).map Prod.fst ≠ some generation) →
        liveStep live ⟨state, call, answer⟩ = live)
      (absent : ∀ key generation, call = .evict key generation → (key, generation) ∉ state.entries)

section Outcomes

variable {state : MeshSessionLifecycleState} {key : SessionKey} {generation nowMs : Nat}
  {call : SessionCall} {entry : SessionLifecycleEntry} {event : SessionCallbackEvent}

/-- A report is published and noted, or nothing happens. -/
theorem report_cases (kind : SessionReport) (due : SessionLifecycleEntry → Bool) :
    (∃ entry, state.entries.lookup (key, generation) = some entry ∧ entry.evicted = false ∧
      kind.published entry = false ∧ state.current.lookup key = some generation ∧
      report kind due state key generation =
        ({ state with entries := state.entries.insert (key, generation) (kind.publish entry) },
          true)) ∨
    report kind due state key generation = (state, false) := by
  unfold report
  by_cases current : state.current.lookup key = some generation
  · rw [if_neg (not_not.mpr current)]
    cases found : state.entries.lookup (key, generation) with
    | none => exact .inr rfl
    | some entry =>
      dsimp only
      split
      · exact .inr rfl
      · next open' =>
        simp only [Bool.or_eq_true, not_or, Bool.not_eq_true] at open'
        exact .inl ⟨entry, rfl, open'.1.1, open'.1.2, current, rfl⟩
  · rw [if_pos current]
    exact .inr rfl

theorem published_publish (kind other : SessionReport) (entry : SessionLifecycleEntry) :
    other.published (kind.publish entry) = (other.published entry || decide (other = kind)) := by
  cases kind <;> cases other <;> simp [SessionReport.publish, SessionReport.published]

/-- A call that reports one kind for its session. -/
theorem outcome_of_report (kind : SessionReport) (due : SessionLifecycleEntry → Bool)
    (isTarget : call.target = some (key, generation))
    (isReport : sessionStep state call = (report kind due state key generation).map id .reported)
    (tells : ∀ other published, publishes other key generation ⟨state, call, .reported published⟩ =
      (decide (other = kind) && published))
    (stays : ∀ live published, liveStep live ⟨state, call, .reported published⟩ = live)
    (notEvict : ∀ key generation, call ≠ .evict key generation) : state.Outcome call := by
  rcases report_cases kind due with ⟨entry, found, kept, fresh, current, ran⟩ | ran
  · rw [ran] at isReport
    refine .marks key generation entry (kind.publish entry) (.reported true) isTarget found ?_ ?_
      isReport ?_ ?_ ⟨by simp [closes], fun live => stays live true⟩
    · cases kind <;> exact kept
    · cases kind <;> rfl
    · intro other published
      rw [tells, Bool.and_true, decide_eq_true_eq] at published
      rw [published]
      exact ⟨current, fresh⟩
    · intro other
      rw [tells, Bool.and_true]
      exact published_publish kind other entry
  · rw [ran] at isReport
    refine .ignores (.reported false) isReport ?_ (by simp [closes])
      (fun live _ => stays live false) fun key generation isEvict => absurd isEvict (notEvict _ _)
    intro other key' generation'
    by_cases same : call.target = some (key', generation')
    · obtain ⟨rfl, rfl⟩ := Prod.mk.inj (Option.mem_unique isTarget same)
      rw [tells, Bool.and_false]
    · simp [publishes, same]

theorem callbackEntry_keeps {isCurrent : Bool} :
    (callbackEntry isCurrent entry nowMs event).1.evicted = entry.evicted ∧
      (callbackEntry isCurrent entry nowMs event).1.connectionId = entry.connectionId := by
  cases event with
  | recovery
  | stable
  | heartbeatFailed => unfold callbackEntry; split_ifs <;> exact ⟨rfl, rfl⟩
  | receiveSucceeded
  | receiveFailed => exact ⟨rfl, rfl⟩

theorem callbackEntry_tells {isCurrent : Bool} (kind : SessionReport) :
    ((callbackEntry isCurrent entry nowMs event).2.tells kind = true →
      isCurrent = true ∧ kind.published entry = false) ∧
    kind.published (callbackEntry isCurrent entry nowMs event).1 =
      (kind.published entry || (callbackEntry isCurrent entry nowMs event).2.tells kind) := by
  cases isCurrent with
  | false =>
    cases event <;> cases kind <;>
      simp [callbackEntry, SessionCallbackPlan.tells, SessionReport.published]
  | true =>
    cases event with
    | recovery =>
      cases noted : entry.recoveryPublished <;> cases kind <;>
        simp [callbackEntry, SessionCallbackPlan.tells, SessionReport.published, noted]
    | stable =>
      cases noted : entry.stable <;> cases kind <;>
        by_cases due : entry.stableAtMs ≤ nowMs <;>
          simp [callbackEntry, SessionCallbackPlan.tells, SessionReport.published, noted, due]
    | receiveSucceeded =>
      cases kind <;> simp [callbackEntry, SessionCallbackPlan.tells, SessionReport.published]
    | heartbeatFailed
    | receiveFailed =>
      cases noted : entry.failureReported <;> cases kind <;>
        simp [callbackEntry, SessionCallbackPlan.tells, SessionReport.published, noted]

theorem sound_new (stableAfterMs : Nat) : (new stableAfterMs).Sound :=
  ⟨by simp [new], by simp [new], by simp [new]⟩

variable (sound : state.Sound)
include sound

/-- Every call ends in one of these ways. -/
theorem Sound.outcome (call : SessionCall) : state.Outcome call := by
  cases call with
  | register key connectionId generation nowMs =>
    cases ran : state.register key connectionId generation nowMs with
    | error reason =>
      refine .ignores (.registered (.error reason)) ?_ (by simp [publishes, SessionCall.target])
        (by simp [closes]) (fun _ _ => rfl) nofun
      rw [sessionStep, ran]
    | ok result =>
      obtain ⟨next, decision⟩ := result
      obtain ⟨_, read⟩ := refuse_bind_ok.mp ran
      obtain ⟨above, read⟩ := refuse_bind_ok.mp read
      refine .installs key connectionId generation nowMs (min (nowMs + state.stableAfterMs) maxU64)
        decision rfl (not_le.mp above) ?_
      rw [sessionStep, ran, ← (Prod.mk.inj (Except.ok.inj read)).1]
  | markStable key generation nowMs =>
    refine @outcome_of_report state key generation _ .stable (fun entry => entry.stableAtMs ≤ nowMs)
      rfl rfl ?_ (fun _ _ => rfl) nofun
    intro other published
    cases other <;> simp [publishes, SessionCall.target]
  | reportFailure key generation =>
    refine @outcome_of_report state key generation _ .failure (fun _ => true) rfl rfl ?_
      (fun _ _ => rfl) nofun
    intro other published
    cases other <;> simp [publishes, SessionCall.target]
  | publishRecovery key generation =>
    refine @outcome_of_report state key generation _ .recovery (fun _ => true) rfl rfl ?_
      (fun _ _ => rfl) nofun
    intro other published
    cases other <;> simp [publishes, SessionCall.target]
  | callback key generation event nowMs =>
    cases found : state.entries.lookup (key, generation) with
    | none =>
      refine .ignores (.planned {}) (by simp [sessionStep, callbackPlan, found]) ?_
        (by simp [closes]) (fun _ _ => rfl) nofun
      intro kind _ _
      cases kind <;> simp [publishes, SessionCallbackPlan.tells]
    | some entry =>
      have kept := sound.kept _ _ found
      obtain ⟨stillKept, same⟩ := @callbackEntry_keeps nowMs entry event
        (decide (state.current.lookup key = some generation))
      refine .marks key generation entry _ (.planned _) rfl found (stillKept.trans kept) same
        (by simp [sessionStep, callbackPlan, found, kept]; rfl) ?_ ?_
        ⟨by simp [closes], fun _ => rfl⟩
      · intro kind published
        simp only [publishes, SessionCall.target, decide_true, Bool.true_and] at published
        obtain ⟨current, fresh⟩ := (callbackEntry_tells kind).1 published
        exact ⟨of_decide_eq_true current, fresh⟩
      · intro kind
        simp only [publishes, SessionCall.target, decide_true, Bool.true_and]
        exact (callbackEntry_tells kind).2
  | evict key generation =>
    cases found : state.entries.lookup (key, generation) with
    | none =>
      refine .ignores (.evicted ⟨false, false, none⟩) (by simp [sessionStep, evict, found])
        (by simp [publishes]) (by simp [closes]) ?_ ?_
      · intro live elsewhere
        simp [liveStep, elsewhere key generation rfl]
      · intro key' generation' isEvict
        obtain ⟨rfl, rfl⟩ := SessionCall.evict.inj isEvict
        exact AList.lookup_eq_none.mp found
    | some entry =>
      refine .removes key generation entry rfl found ?_
      simp [sessionStep, evict, found, sound.kept _ _ found]
  | clear => exact .drops rfl rfl

/-- A call about a session spares all others. -/
theorem Sound.spares (isTarget : call.target = some (key, generation)) :
    Spares key generation state (sessionStep state call).1 := by
  cases sound.outcome call with
  | installs _ _ _ _ _ _ isCall
  | drops isCall => rw [isCall] at isTarget; cases isTarget
  | marks key' generation' _ _ _ isTarget' _ _ _ ends =>
    obtain ⟨rfl, rfl⟩ := Prod.mk.inj (Option.mem_unique isTarget isTarget')
    rw [ends]
    exact ⟨fun session apart => AList.lookup_insert_ne apart, fun _ _ => rfl, rfl⟩
  | removes key' generation' _ isCall _ ends =>
    rw [isCall] at isTarget
    obtain ⟨rfl, rfl⟩ := Prod.mk.inj (Option.some.inj isTarget)
    rw [ends]
    refine ⟨fun session apart => AList.lookup_erase_ne apart, fun other apart => ?_, rfl⟩
    split
    · next current =>
      apply AList.lookup_erase_ne
      intro same
      rw [same] at apart
      rcases apart with notCurrent | notKey
      · exact notCurrent current
      · exact notKey rfl
    · rfl
  | ignores _ ends =>
    rw [ends]
    exact ⟨fun _ _ => rfl, fun _ _ => rfl, rfl⟩

theorem Sound.step (call : SessionCall) : (sessionStep state call).1.Sound := by
  cases sound.outcome call with
  | installs key connectionId generation nowMs stableAtMs _ _ above ends =>
    rw [ends]
    refine ⟨fun other held current => ?_, fun session entry found => ?_, fun session inside => ?_⟩
    · rw [Table.lookup_insert_ite] at current
      rw [AList.mem_insert]
      split at current
      · next same => exact .inl (by rw [same, Option.some.inj current])
      · exact .inr (sound.current other held current)
    · rw [Table.lookup_insert_ite] at found
      split at found
      · rw [← Option.some.inj found]
      · exact sound.kept session entry found
    · rcases (AList.mem_insert _).mp inside with rfl | before
      · exact Nat.le_refl generation
      · exact Nat.le_of_lt (Nat.lt_of_le_of_lt (sound.known session before) above)
  | marks key generation entry marked _ _ found kept _ ends =>
    rw [ends]
    refine ⟨fun other held current => ?_, fun session entry' found' => ?_, fun session inside => ?_⟩
    · exact (AList.mem_insert _).mpr (.inr (sound.current other held current))
    · rw [Table.lookup_insert_ite] at found'
      split at found'
      · rw [← Option.some.inj found', kept]
      · exact sound.kept session entry' found'
    · rcases (AList.mem_insert _).mp inside with rfl | before
      · exact sound.known _ (AList.lookup_isSome.mp (by rw [found]; rfl))
      · exact sound.known session before
  | removes key generation entry _ _ ends =>
    rw [ends]
    refine ⟨fun other held current => ?_, fun session entry' found' => ?_, fun session inside => ?_⟩
    · have before : state.current.lookup other = some held ∧
          ¬ (other = key ∧ held = generation) := by
        dsimp only at current
        split at current
        · rw [Table.lookup_erase_ite] at current
          split at current
          · cases current
          · next apart => exact ⟨current, fun same => apart same.1⟩
        · next notCurrent =>
          refine ⟨current, fun same => notCurrent ?_⟩
          rw [← same.1, ← same.2]
          exact current
      rw [AList.mem_erase]
      refine ⟨fun same => before.2 (Prod.mk.inj same), sound.current other held before.1⟩
    · rw [Table.lookup_erase_ite] at found'
      split at found'
      · cases found'
      · exact sound.kept session entry' found'
    · exact sound.known session (AList.mem_erase.mp inside).2
  | drops _ ends =>
    rw [ends]
    exact ⟨by simp [clear], by simp [clear], by simp [clear]⟩
  | ignores _ ends =>
    rw [ends]
    exact sound

/-! ## Once in a run -/

/-- A generation that was installed is not installed again. -/
theorem Sound.entry_after (call : SessionCall) (session : SessionKey × Nat)
    (known : session.2 ≤ state.lastGeneration) :
    session.2 ≤ (sessionStep state call).1.lastGeneration ∧
      ∀ entry, (sessionStep state call).1.entries.lookup session = some entry →
        ∃ before, state.entries.lookup session = some before ∧
          ∀ kind : SessionReport, kind.published before = true → kind.published entry = true := by
  cases sound.outcome call with
  | installs key _ generation _ _ _ _ above ends =>
    rw [ends]
    refine ⟨Nat.le_of_lt (Nat.lt_of_le_of_lt known above), fun entry found => ?_⟩
    rw [Table.lookup_insert_ite, if_neg] at found
    · exact ⟨entry, found, fun _ => id⟩
    · intro same
      rw [same] at known
      exact Nat.lt_irrefl _ (Nat.lt_of_lt_of_le above known)
  | marks key generation before marked _ _ found _ _ ends _ notes =>
    rw [ends]
    refine ⟨known, fun entry found' => ?_⟩
    rw [Table.lookup_insert_ite] at found'
    split at found'
    · next same =>
      rw [same]
      refine ⟨before, found, fun kind published => ?_⟩
      rw [← Option.some.inj found', notes kind, published, Bool.true_or]
    · exact ⟨entry, found', fun _ => id⟩
  | removes key generation before _ _ ends =>
    rw [ends]
    refine ⟨known, fun entry found => ?_⟩
    rw [Table.lookup_erase_ite] at found
    split at found
    · cases found
    · exact ⟨entry, found, fun _ => id⟩
  | drops _ ends =>
    rw [ends]
    exact ⟨known, by simp [clear]⟩
  | ignores _ ends =>
    rw [ends]
    exact ⟨known, fun entry found => ⟨entry, found, fun _ => id⟩⟩

/-- What is published is due, and noted. -/
theorem Sound.publishes_cases {kind : SessionReport}
    (published : publishes kind key generation (eventAt sessionStep state call) = true) :
    state.current.lookup key = some generation ∧ ∃ entry marked,
      state.entries.lookup (key, generation) = some entry ∧ kind.published entry = false ∧
      (sessionStep state call).1.entries.lookup (key, generation) = some marked ∧
      kind.published marked = true ∧
      (sessionStep state call).1.lastGeneration = state.lastGeneration := by
  have isTarget : call.target = some (key, generation) := by
    unfold publishes eventAt at published
    rw [Bool.and_eq_true] at published
    exact of_decide_eq_true published.1
  unfold eventAt at published
  cases sound.outcome call with
  | installs _ _ _ _ _ _ isCall
  | drops isCall => rw [isCall] at isTarget; cases isTarget
  | marks key' generation' entry marked answer isTarget' found _ _ ends due notes =>
    obtain ⟨rfl, rfl⟩ := Prod.mk.inj (Option.mem_unique isTarget isTarget')
    rw [ends] at published
    obtain ⟨current, fresh⟩ := due kind published
    rw [ends]
    refine ⟨current, entry, marked, found, fresh, AList.lookup_insert _, ?_, rfl⟩
    rw [notes kind, published, Bool.or_true]
  | removes _ _ _ isCall _ ends =>
    rw [ends, isCall] at published
    simp [publishes] at published
  | ignores answer ends silent =>
    rw [ends, silent] at published
    cases published

/-- What is closed was installed, and is removed. -/
theorem Sound.closes_cases
    (closed : closes key generation (eventAt sessionStep state call) = true) :
    call = .evict key generation ∧ (key, generation) ∈ state.entries ∧
      (key, generation) ∉ (sessionStep state call).1.entries ∧
      (sessionStep state call).1.lastGeneration = state.lastGeneration := by
  have isTarget : call.target = some (key, generation) := by
    unfold closes eventAt at closed
    rw [Bool.and_eq_true] at closed
    exact of_decide_eq_true closed.1
  unfold eventAt at closed
  cases sound.outcome call with
  | installs _ _ _ _ _ _ isCall
  | drops isCall => rw [isCall] at isTarget; cases isTarget
  | marks key' generation' _ _ _ isTarget' _ _ _ ends _ _ stays =>
    obtain ⟨rfl, rfl⟩ := Prod.mk.inj (Option.mem_unique isTarget isTarget')
    rw [ends, stays.1] at closed
    cases closed
  | removes key' generation' entry isCall found ends =>
    rw [isCall] at isTarget
    obtain ⟨rfl, rfl⟩ := Prod.mk.inj (Option.some.inj isTarget)
    rw [ends]
    refine ⟨isCall, AList.lookup_isSome.mp (by rw [found]; rfl), ?_, rfl⟩
    rw [AList.mem_erase]
    exact fun held => held.1 rfl
  | ignores answer ends _ leaves =>
    rw [ends, leaves] at closed
    cases closed

theorem count_closes (calls : List SessionCall) :
    (events sessionStep state calls).countP (closes key generation) ≤ 1 := by
  refine count_events_le_one Sound (fun state =>
    generation ≤ state.lastGeneration ∧ (key, generation) ∉ state.entries)
    (fun _ call sound => sound.step call) ?_ ?_ ?_ sound calls
  · intro state call sound spent
    obtain ⟨known, entries⟩ := sound.entry_after call (key, generation) spent.1
    refine ⟨known, fun held => ?_⟩
    obtain ⟨entry, found⟩ := Option.isSome_iff_exists.mp (AList.lookup_isSome.mpr held)
    obtain ⟨before, was, _⟩ := entries entry found
    exact spent.2 (AList.lookup_isSome.mp (by rw [was]; rfl))
  · intro state call sound spent
    by_contra closed
    exact spent.2 (sound.closes_cases (eq_true_of_ne_false closed)).2.1
  · intro state call sound closed
    obtain ⟨_, held, gone, last⟩ := sound.closes_cases closed
    refine ⟨?_, gone⟩
    rw [last]
    exact sound.known _ held

theorem count_publishes (kind : SessionReport) (calls : List SessionCall) :
    (events sessionStep state calls).countP (publishes kind key generation) ≤ 1 := by
  refine count_events_le_one Sound (fun state =>
    generation ≤ state.lastGeneration ∧ ∀ entry,
      state.entries.lookup (key, generation) = some entry → kind.published entry = true)
    (fun _ call sound => sound.step call) ?_ ?_ ?_ sound calls
  · intro state call sound spent
    obtain ⟨known, entries⟩ := sound.entry_after call (key, generation) spent.1
    refine ⟨known, fun entry found => ?_⟩
    obtain ⟨before, was, kept⟩ := entries entry found
    exact kept kind (spent.2 before was)
  · intro state call sound spent
    by_contra published
    obtain ⟨_, entry, _, found, fresh, _⟩ :=
      sound.publishes_cases (eq_true_of_ne_false published)
    rw [spent.2 entry found] at fresh
    cases fresh
  · intro state call sound published
    obtain ⟨_, entry, marked, found, _, found', noted, last⟩ := sound.publishes_cases published
    refine ⟨?_, fun entry' found'' => ?_⟩
    · rw [last]
      exact sound.known _ (AList.lookup_isSome.mp (by rw [found]; rfl))
    · obtain rfl := Option.mem_unique found' found''
      exact noted

/-! ## The current sessions -/

variable (state key) in
/-- The current session of a key, as the tables have it. -/
def liveSession : Option (Nat × String) :=
  (state.current.lookup key).bind fun generation =>
    (state.entries.lookup (key, generation)).map fun entry => (generation, entry.connectionId)

omit sound in
theorem liveSession_eq_some {connectionId : String} :
    state.liveSession key = some (generation, connectionId) ↔
      state.current.lookup key = some generation ∧ ∃ entry,
        state.entries.lookup (key, generation) = some entry ∧
          entry.connectionId = connectionId := by
  unfold liveSession
  constructor
  · intro live
    obtain ⟨found, current, same⟩ := Option.bind_eq_some_iff.mp live
    obtain ⟨entry, held, same⟩ := Option.map_eq_some_iff.mp same
    obtain ⟨rfl, rfl⟩ := Prod.mk.inj same
    exact ⟨current, entry, held, rfl⟩
  · intro live
    obtain ⟨current, entry, held, rfl⟩ := live
    rw [current, Option.bind_some, held]
    rfl

theorem Sound.liveSession_isSome :
    (state.liveSession key).map Prod.fst = state.current.lookup key := by
  cases current : state.current.lookup key with
  | none => simp [liveSession, current]
  | some generation =>
    obtain ⟨entry, found⟩ := Option.isSome_iff_exists.mp
      (AList.lookup_isSome.mpr (sound.current key generation current))
    simp [liveSession, current, found]

/-- One call changes the current sessions as its answer says. -/
theorem Sound.liveStep_eq (call : SessionCall) :
    liveStep state.liveSession (eventAt sessionStep state call) =
      (sessionStep state call).1.liveSession := by
  unfold eventAt
  cases sound.outcome call with
  | installs key connectionId generation _ _ _ isCall _ ends =>
    rw [ends, isCall]
    funext other
    show Function.update state.liveSession key _ other = _
    unfold liveSession
    by_cases here : other = key
    · subst here
      simp
    · rw [Function.update_of_ne here, AList.lookup_insert_ne here]
      refine congrArg (Option.bind _) (funext fun held => ?_)
      rw [AList.lookup_insert_ne (fun same => here (congrArg Prod.fst same))]
  | marks key generation entry marked answer _ found _ same ends _ _ stays =>
    rw [ends, stays.2]
    funext other
    refine congrArg (Option.bind _) (funext fun held => ?_)
    rw [Table.lookup_insert_ite]
    split
    · next here => rw [here, found, Option.map_some, Option.map_some, same]
    · rfl
  | removes key generation entry isCall found ends =>
    rw [ends, isCall]
    show (if (state.liveSession key).map Prod.fst = some generation then _ else _) = _
    rw [sound.liveSession_isSome]
    funext other
    by_cases current : state.current.lookup key = some generation
    · rw [if_pos current]
      unfold liveSession
      rw [if_pos current]
      by_cases here : other = key
      · subst here
        simp
      · rw [Function.update_of_ne here, AList.lookup_erase_ne here]
        refine congrArg (Option.bind _) (funext fun held => ?_)
        rw [AList.lookup_erase_ne (fun same => here (congrArg Prod.fst same))]
    · rw [if_neg current]
      unfold liveSession
      rw [if_neg current]
      cases held : state.current.lookup other with
      | none => rfl
      | some generation' =>
        rw [Option.bind_some, Option.bind_some, AList.lookup_erase_ne]
        intro same
        obtain ⟨rfl, rfl⟩ := Prod.mk.inj same
        exact current held
  | drops isCall ends =>
    rw [ends, isCall]
    rfl
  | ignores answer ends _ _ stays absent =>
    rw [ends, stays]
    intro key generation isEvict live
    rw [sound.liveSession_isSome] at live
    exact absent key generation isEvict (sound.current key generation live)

/-- Through a whole run the tables hold the sessions that are current. -/
theorem Sound.live_run (calls : List SessionCall) :
    (events sessionStep state calls).foldl liveStep state.liveSession =
      (run sessionStep state calls).liveSession := by
  induction calls generalizing state with
  | nil => rfl
  | cons call calls ih =>
    rw [events_cons, List.foldl_cons, sound.liveStep_eq call]
    exact ih (sound.step call)

variable (state) in
/-- The entries that are published. -/
def currentEntries : List ((_ : SessionKey × Nat) × SessionLifecycleEntry) :=
  (sortBy entryOrder state.entries.entries).filter state.isCurrent

variable {entry : (_ : SessionKey × Nat) × SessionLifecycleEntry}

theorem Sound.mem_currentEntries :
    entry ∈ state.currentEntries ↔ state.entries.lookup entry.1 = some entry.2 ∧
      state.current.lookup entry.1.1 = some entry.1.2 := by
  unfold currentEntries isCurrent
  rw [List.mem_filter, mem_sortBy, ← AList.mem_lookup_iff, Option.mem_def]
  constructor
  · intro held
    obtain ⟨found, current⟩ := held
    rw [Bool.and_eq_true] at current
    exact ⟨found, of_decide_eq_true current.2⟩
  · intro held
    obtain ⟨found, current⟩ := held
    rw [sound.kept _ _ found, decide_eq_true current]
    exact ⟨found, rfl⟩

theorem Sound.live_of_mem (held : entry ∈ state.currentEntries) :
    state.liveSession entry.1.1 = some (entry.1.2, entry.2.connectionId) := by
  obtain ⟨found, current⟩ := sound.mem_currentEntries.mp held
  exact liveSession_eq_some.mpr ⟨current, entry.2, found, rfl⟩

theorem Sound.nodup_currentKeys : (state.currentEntries.map fun entry => entry.1.1).Nodup := by
  have distinct : state.currentEntries.Nodup :=
    ((sortBy_perm entryOrder _).nodup_iff.mpr state.entries.nodupKeys.nodup).filter _
  refine List.Nodup.map_on ?_ distinct
  intro a heldA b heldB same
  obtain ⟨foundA, currentA⟩ := sound.mem_currentEntries.mp heldA
  obtain ⟨foundB, currentB⟩ := sound.mem_currentEntries.mp heldB
  obtain ⟨⟨keyA, generationA⟩, entryA⟩ := a
  dsimp only at same currentA currentB foundA foundB
  subst same
  obtain rfl := Option.mem_unique currentA currentB
  rw [Option.mem_unique foundA foundB]

/-- The sessions to publish, each once, under their workspaces. -/
theorem Sound.publishPlan_perm :
    (state.publishPlan.map SessionWorkspacePublishPlan.workspaceId).Nodup ∧
      ∃ keys : List SessionKey, keys.Nodup ∧ (∀ key, key ∈ keys ↔ state.liveSession key ≠ none) ∧
        (state.publishPlan.flatMap fun plan => plan.connectionIds.map fun connectionId =>
          (plan.workspaceId, some connectionId)).Perm
          (keys.map fun key => (key.workspaceId, (state.liveSession key).map Prod.snd)) := by
  refine ⟨?_, state.currentEntries.map fun entry => entry.1.1, sound.nodup_currentKeys, ?_, ?_⟩
  · unfold publishPlan
    rw [List.map_map]
    refine ((sortBy_perm _ _).map _).nodup_iff.mpr ?_
    exact (Table.groupBy _ _).nodupKeys
  · intro key
    constructor
    · intro listed
      obtain ⟨entry, held, rfl⟩ := List.mem_map.mp listed
      rw [sound.live_of_mem held]
      exact nofun
    · intro live
      obtain ⟨⟨generation, connectionId⟩, live⟩ := Option.ne_none_iff_exists'.mp live
      obtain ⟨current, entry, found, _⟩ := liveSession_eq_some.mp live
      exact List.mem_map.mpr ⟨⟨(key, generation), entry⟩,
        sound.mem_currentEntries.mpr ⟨found, current⟩, rfl⟩
  · have flat : (state.publishPlan.flatMap fun plan => plan.connectionIds.map fun connectionId =>
        (plan.workspaceId, some connectionId)).Perm
        (state.currentEntries.map fun entry =>
          (entry.1.1.workspaceId, some entry.2.connectionId)) := by
      unfold publishPlan
      rw [List.flatMap_map]
      refine (List.Perm.flatMap_right _ (sortBy_perm _ _)).trans ?_
      have grouped := (Table.filed_groupBy_perm
        (fun entry : (_ : SessionKey × Nat) × SessionLifecycleEntry => entry.1.1.workspaceId)
        state.currentEntries).map fun filed => (filed.1, some filed.2.2.connectionId)
      simp only [Table.filed, List.map_flatMap, List.map_map, Function.comp_def] at grouped
      simp only [List.map_map, Function.comp_def]
      exact grouped
    rw [List.map_map]
    refine flat.trans (List.Perm.of_eq (List.map_congr_left fun entry held => ?_))
    rw [Function.comp_apply, sound.live_of_mem held]
    rfl

end Outcomes

end MeshSessionLifecycleState

open MeshSessionLifecycleState

/-- Over every run of calls, in any order and for any keys: a connection is closed once at
most; a session is published as stable, failed or recovered once at most for each, and only
while it is the current one of its key; a call about a session of an older generation leaves
the newer one alone; and the plan lists the current sessions, each once. -/
theorem session_generations (stableAfterMs : Nat) (calls : List SessionCall) :
    let start := MeshSessionLifecycleState.new stableAfterMs
    let state := run sessionStep start calls
    let live := liveAfter stableAfterMs calls
    (∀ key generation, (events sessionStep start calls).countP (closes key generation) ≤ 1) ∧
    (∀ kind key generation,
      (events sessionStep start calls).countP (publishes kind key generation) ≤ 1 ∧
      ∀ call, publishes kind key generation (eventAt sessionStep state call) = true →
        (live key).map Prod.fst = some generation) ∧
    (∀ call key generation, call.target = some (key, generation) → ∀ newer ≠ generation,
      let next := (sessionStep state call).1
      ((live key).map Prod.fst = some newer →
        liveAfter stableAfterMs (calls ++ [call]) key = live key) ∧
      next.entries.lookup (key, newer) = state.entries.lookup (key, newer) ∧
      closes key newer (eventAt sessionStep state call) = false ∧
      ∀ kind, publishes kind key newer (eventAt sessionStep state call) = false) ∧
    (state.publishPlan.map SessionWorkspacePublishPlan.workspaceId).Nodup ∧
    ∃ keys : List SessionKey, keys.Nodup ∧ (∀ key, key ∈ keys ↔ live key ≠ none) ∧
      (state.publishPlan.flatMap fun plan => plan.connectionIds.map fun connectionId =>
        (plan.workspaceId, some connectionId)).Perm
        (keys.map fun key => (key.workspaceId, (live key).map Prod.snd)) := by
  intro start state live
  have sound : ∀ calls, (run sessionStep start calls).Sound :=
    run_keeps (fun _ call sound => sound.step call) (sound_new stableAfterMs)
  have isLive : ∀ calls, liveAfter stableAfterMs calls =
      (run sessionStep start calls).liveSession :=
    fun calls => (sound_new stableAfterMs).live_run calls
  have current : ∀ key, (live key).map Prod.fst = state.current.lookup key := by
    intro key
    rw [show live = state.liveSession from isLive calls]
    exact (sound calls).liveSession_isSome
  refine ⟨fun key generation => count_closes (sound_new stableAfterMs) calls,
    fun kind key generation => ⟨count_publishes (sound_new stableAfterMs) kind calls,
      fun call published => ?_⟩, fun call key generation isTarget newer apart => ?_, ?_⟩
  · rw [current]
    exact ((sound calls).publishes_cases published).1
  · have spares := (sound calls).spares isTarget
    have other : (key, newer) ≠ (key, generation) := fun same => apart (Prod.mk.inj same).2
    have notMeant : call.target ≠ some (key, newer) := by
      rw [isTarget]
      exact fun same => other (Option.some.inj same).symm
    refine ⟨fun isNewer => ?_, spares.entries _ other, by simp [closes, eventAt, notMeant],
      fun kind => by simp [publishes, eventAt, notMeant]⟩
    rw [current] at isNewer
    rw [isLive, run_append, show live = state.liveSession from isLive calls]
    have same := spares.current key (.inl (by
      rw [isNewer]
      exact fun same => apart (Option.some.inj same)))
    show (sessionStep state call).1.liveSession key = state.liveSession key
    unfold liveSession
    rw [same, isNewer, Option.bind_some, Option.bind_some, spares.entries _ other]
  · rw [show live = state.liveSession from isLive calls]
    exact (sound calls).publishPlan_perm

namespace Sample

def sessionKey : SessionKey := ⟨"workspace", "device", "tab"⟩

/-- A session is replaced by another of its key. -/
def replacement : List SessionCall :=
  [.register sessionKey "first" 1 0, .register sessionKey "second" 2 0]

end Sample

open Sample

/-- The replaced session is evicted late, and the session that replaced it stays current. -/
theorem session_generations_sample :
    (liveAfter 10000 replacement sessionKey).map Prod.fst = some 2 ∧
      liveAfter 10000 (replacement ++ [.evict sessionKey 1]) sessionKey =
        liveAfter 10000 replacement sessionKey := by
  have current : (liveAfter 10000 replacement sessionKey).map Prod.fst = some 2 := by
    decide
  obtain ⟨_, _, spared, _⟩ := session_generations 10000 replacement
  exact ⟨current, (spared (.evict sessionKey 1) sessionKey 1 rfl 2 (by decide)).1
    current⟩

end MetaMesh
