import Mathlib.Order.WithBot
import Mathlib.Order.Lex
import Mathlib.Data.Prod.Lex
import MetaMesh.Json
import MetaMesh.Lib.Machine
import MetaMesh.Lib.Table

/-!
# Sessions of a runtime

The session table of `runtime.rs`.  A connection to a peer's instance is admitted as a
session unless the one that is held under the same key is better: first by its direction,
then by the sequence number of the route it came through.

Two endpoints may dial each other at the same time.  Each prefers the connection that the
lesser of the two opened, so `crossing_dials_agree` says that both keep the same one, in
whatever order they come.
-/

namespace MetaMesh

def maxU64 : Nat := 18446744073709551615

/-- Who opened the connection. -/
inductive SessionDirection
  | incoming
  | outgoing
deriving DecidableEq, Repr

/-- The endpoint with the lesser ids keeps what it dialed itself. -/
def preferredSessionDirection (localDeviceId localInstanceId remoteDeviceId remoteInstanceId :
    String) : SessionDirection :=
  if toLex (strKey localDeviceId, strKey localInstanceId) <
      toLex (strKey remoteDeviceId, strKey remoteInstanceId) then .outgoing
  else .incoming

/-- An instance of a peer in a workspace. -/
structure SessionKey where
  workspaceId : String
  deviceId : String
  instanceId : String
deriving DecidableEq, Repr

/-- A connection that asks to be the session of its key. -/
structure SessionCandidate where
  key : SessionKey
  connectionId : String
  remoteIssuedAt : String
  remoteRouteSequence : Option Nat
  direction : SessionDirection
deriving DecidableEq, Repr

/-- A connection that was admitted. -/
structure RuntimeSession where
  key : SessionKey
  connectionId : String
  remoteIssuedAt : String
  remoteRouteSequence : Option Nat
  direction : SessionDirection
  generation : Nat
deriving DecidableEq, Repr

/-- What became of a candidate. -/
inductive SessionAdmission
  | accepted (generation : Nat) (replacedConnectionId : Option String)
  | rejected (retainedConnectionId : String)
deriving DecidableEq, Repr

/-- The part of the runtime that sessions are admitted to. -/
structure MeshRuntimeState where
  generation : Nat
  sessions : Table SessionKey RuntimeSession

/-- By direction first, then by the newer route. -/
def shouldReplaceSession (previous : RuntimeSession) (candidate : SessionCandidate)
    (preferred : SessionDirection) : Bool :=
  if candidate.direction ≠ previous.direction then candidate.direction = preferred
  else if candidate.remoteRouteSequence ≠ previous.remoteRouteSequence then
    match candidate.remoteRouteSequence, previous.remoteRouteSequence with
    | some _, none => true
    | none, some _ => false
    | some candidate, some previous => previous < candidate
    | none, none => false
  else false

def SessionCandidate.session (candidate : SessionCandidate) (generation : Nat) : RuntimeSession :=
  ⟨candidate.key, candidate.connectionId, candidate.remoteIssuedAt,
    candidate.remoteRouteSequence, candidate.direction, generation⟩

namespace MeshRuntimeState

variable (state : MeshRuntimeState)

/-- The candidate becomes the session of its key, in a new generation. -/
def install (candidate : SessionCandidate) (replaced : Option String) :
    MeshRuntimeState × SessionAdmission :=
  let generation := min (state.generation + 1) maxU64
  (⟨generation, state.sessions.insert candidate.key (candidate.session generation)⟩,
    .accepted generation replaced)

def admitSession (candidate : SessionCandidate) (preferred : SessionDirection) :
    MeshRuntimeState × SessionAdmission :=
  match state.sessions.lookup candidate.key with
  | some previous =>
    if shouldReplaceSession previous candidate preferred = false then
      (state, .rejected previous.connectionId)
    else state.install candidate (some previous.connectionId)
  | none => state.install candidate none

/-- Removes the session only in this generation. -/
def removeSession (key : SessionKey) (generation : Nat) : MeshRuntimeState × Option String :=
  match state.sessions.lookup key with
  | some session =>
    if session.generation = generation then
      ({ state with sessions := state.sessions.erase key }, some session.connectionId)
    else (state, none)
  | none => (state, none)

/-- Candidates one after the other, each under the direction preferred for its key. -/
def admitAll (preferred : SessionKey → SessionDirection) (state : MeshRuntimeState)
    (candidates : List SessionCandidate) : MeshRuntimeState :=
  Machine.run (fun state candidate => state.admitSession candidate (preferred candidate.key)) state
    candidates

end MeshRuntimeState

/-! ## The better session -/

/-- A session without a sequence number is before all that have one. -/
def sequenceRank : Option Nat → WithBot Nat
  | none => ⊥
  | some sequence => WithBot.some sequence

/-- What sessions of one key are compared by: the preferred direction, then the sequence
number. -/
def sessionRank (preferred direction : SessionDirection) (sequence : Option Nat) :
    Bool ×ₗ WithBot Nat :=
  toLex (decide (direction = preferred), sequenceRank sequence)

theorem sequenceRank_lt_iff {previous candidate : Option Nat} :
    sequenceRank previous < sequenceRank candidate ↔ candidate ≠ previous ∧
      (match candidate, previous with
        | some _, none => true
        | none, some _ => false
        | some candidate, some previous => decide (previous < candidate)
        | none, none => false) = true := by
  cases candidate with
  | none => cases previous <;> simp [sequenceRank]
  | some candidate =>
    cases previous with
    | none => simp [sequenceRank]
    | some previous =>
      simp only [sequenceRank, WithBot.coe_lt_coe, ne_eq, Option.some.injEq, decide_eq_true_eq]
      omega

section Ranks

variable {candidate : SessionCandidate} {preferred : SessionDirection}
  {candidates : List SessionCandidate}

/-- A candidate replaces exactly what ranks lower. -/
theorem shouldReplaceSession_iff {previous : RuntimeSession} :
    shouldReplaceSession previous candidate preferred = true ↔
      sessionRank preferred previous.direction previous.remoteRouteSequence <
        sessionRank preferred candidate.direction candidate.remoteRouteSequence := by
  unfold shouldReplaceSession sessionRank
  rw [Prod.Lex.toLex_lt_toLex]
  by_cases turned : candidate.direction = previous.direction
  · rw [if_neg (not_not.mpr turned), turned]
    rw [sequenceRank_lt_iff]
    by_cases same : candidate.remoteRouteSequence = previous.remoteRouteSequence
    · simp [same]
    · simp [same]
  · cases isCandidate : candidate.direction <;> cases isPrevious : previous.direction <;>
      cases preferred <;> simp_all

variable (preferred candidates) in
/-- The first of the best: it ranks above all that came before it, and nothing after it
ranks above. -/
def FirstBest (candidate : SessionCandidate) : Prop :=
  ∃ earlier later, candidates = earlier ++ candidate :: later ∧
    (∀ other ∈ earlier, sessionRank preferred other.direction other.remoteRouteSequence <
      sessionRank preferred candidate.direction candidate.remoteRouteSequence) ∧
    ∀ other ∈ later, sessionRank preferred other.direction other.remoteRouteSequence ≤
      sessionRank preferred candidate.direction candidate.remoteRouteSequence

theorem FirstBest.mem (best : FirstBest preferred candidates candidate) :
    candidate ∈ candidates := by
  obtain ⟨earlier, later, rfl, _⟩ := best
  simp

theorem FirstBest.le {other : SessionCandidate} (best : FirstBest preferred candidates candidate)
    (held : other ∈ candidates) :
    sessionRank preferred other.direction other.remoteRouteSequence ≤
      sessionRank preferred candidate.direction candidate.remoteRouteSequence := by
  obtain ⟨earlier, later, rfl, below, above⟩ := best
  rcases List.mem_append.mp held with before | after
  · exact le_of_lt (below other before)
  · cases List.mem_cons.mp after with
    | inl same => rw [same]
    | inr after => exact above other after

end Ranks

/-! ## Runs of admissions -/

section Admissions

variable {preferred : SessionKey → SessionDirection} {key : SessionKey}

/-- What is held under a key, of the candidates that came under it. -/
def Survives (preferred : SessionDirection) (candidates : List SessionCandidate)
    (held : Option RuntimeSession) : Prop :=
  match held with
  | none => candidates = []
  | some session => ∃ candidate, FirstBest preferred candidates candidate ∧
      session = candidate.session session.generation

variable {state : MeshRuntimeState} {candidates : List SessionCandidate}
  {candidate : SessionCandidate}

/-- One admission: the better of the two is held, and the older on a tie. -/
theorem Survives.admit
    (survives : Survives (preferred candidate.key) candidates
      (state.sessions.lookup candidate.key)) :
    Survives (preferred candidate.key) (candidates ++ [candidate])
      ((state.admitSession candidate (preferred candidate.key)).1.sessions.lookup
        candidate.key) := by
  unfold MeshRuntimeState.admitSession
  cases found : state.sessions.lookup candidate.key with
  | none =>
    rw [found] at survives
    have empty : candidates = [] := survives
    rw [empty]
    unfold MeshRuntimeState.install
    rw [AList.lookup_insert]
    exact ⟨candidate, ⟨[], [], rfl, by simp, by simp⟩, rfl⟩
  | some previous =>
    rw [found] at survives
    obtain ⟨best, first, same⟩ := survives
    have direction : previous.direction = best.direction := by rw [same]; rfl
    have sequence : previous.remoteRouteSequence = best.remoteRouteSequence := by rw [same]; rfl
    dsimp only
    split
    · next kept =>
      have notAbove := (not_congr shouldReplaceSession_iff).mp (ne_true_of_eq_false kept)
      rw [direction, sequence, not_lt] at notAbove
      rw [found]
      obtain ⟨earlier, later, split, below, above⟩ := first
      refine ⟨best, ⟨earlier, later ++ [candidate], by simp [split], below, ?_⟩, same⟩
      intro other held
      rcases List.mem_append.mp held with before | last
      · exact above other before
      · rw [List.mem_singleton.mp last]
        exact notAbove
    · next replaced =>
      have above := shouldReplaceSession_iff.mp (eq_true_of_ne_false replaced)
      rw [direction, sequence] at above
      unfold MeshRuntimeState.install
      rw [AList.lookup_insert]
      refine ⟨candidate, ⟨candidates, [], rfl, fun other held => ?_, by simp⟩, rfl⟩
      exact lt_of_le_of_lt (first.le held) above

theorem admitSession_other {direction : SessionDirection} (other : key ≠ candidate.key) :
    (state.admitSession candidate direction).1.sessions.lookup key = state.sessions.lookup key := by
  unfold MeshRuntimeState.admitSession MeshRuntimeState.install
  split
  · split
    · rfl
    · exact AList.lookup_insert_ne other
  · exact AList.lookup_insert_ne other

/-- A whole run: the survivor is the first of the best that came under its key. -/
theorem survives_admitAll {seen : List SessionCandidate}
    (survives : Survives (preferred key) seen (state.sessions.lookup key)) :
    Survives (preferred key) (seen ++ candidates.filter (·.key = key))
      ((state.admitAll preferred candidates).sessions.lookup key) := by
  induction candidates generalizing state seen with
  | nil => simpa [MeshRuntimeState.admitAll] using survives
  | cons candidate candidates ih =>
    by_cases here : candidate.key = key
    · subst here
      rw [List.filter_cons_of_pos (by simp), List.append_cons]
      exact ih survives.admit
    · rw [List.filter_cons_of_neg (by simpa using here)]
      apply ih
      rw [admitSession_other (Ne.symm here)]
      exact survives

end Admissions

/-! ## Late removals -/

section Removals

variable {state : MeshRuntimeState} {session : RuntimeSession} {candidate : SessionCandidate}
  {preferred : SessionDirection} {generation : Nat} {replaced : Option String}

/-- What changes the session table. -/
inductive TableCall
  | admission (candidate : SessionCandidate) (preferred : SessionDirection)
  | removal (key : SessionKey) (generation : Nat)

/-- The state after an admission or a removal. -/
def MeshRuntimeState.afterCall (state : MeshRuntimeState) : TableCall → MeshRuntimeState
  | .admission candidate preferred => (state.admitSession candidate preferred).1
  | .removal key generation => (state.removeSession key generation).1

/-- Until generations run out, a removal meant for `session` finds it or does nothing. -/
def Guarded (session : RuntimeSession) (state : MeshRuntimeState) : Prop :=
  maxU64 ≤ state.generation ∨ session.generation ≤ state.generation ∧
    (state.sessions.lookup session.key = some session ∨
      state.removeSession session.key session.generation = (state, none))

theorem removeSession_unchanged_iff {key : SessionKey} :
    state.removeSession key generation = (state, none) ↔
      ∀ held, state.sessions.lookup key = some held → held.generation ≠ generation := by
  unfold MeshRuntimeState.removeSession
  cases state.sessions.lookup key with
  | none => simp
  | some held => by_cases same : held.generation = generation <;> simp [same]

/-- What is held under another key does not matter to a removal. -/
theorem Guarded.of_lookup {next : MeshRuntimeState} (guarded : Guarded session state)
    (later : state.generation ≤ next.generation)
    (same : next.sessions.lookup session.key = state.sessions.lookup session.key) :
    Guarded session next := by
  unfold Guarded at guarded ⊢
  rw [removeSession_unchanged_iff] at guarded ⊢
  rw [same]
  rcases guarded with full | ⟨older, held⟩
  · exact .inl (full.trans later)
  · exact .inr ⟨older.trans later, held⟩

/-- A new session has a new generation. -/
theorem Guarded.install (guarded : Guarded session state) :
    Guarded session (state.install candidate replaced).1 := by
  by_cases full : maxU64 ≤ state.generation + 1
  · exact .inl (le_min full le_rfl)
  · have next : min (state.generation + 1) maxU64 = state.generation + 1 :=
      min_eq_left (le_of_not_ge full)
    by_cases same : session.key = candidate.key
    · have older : session.generation ≤ state.generation := by
        rcases guarded with full | ⟨older, _⟩ <;> omega
      refine .inr ⟨older.trans (le_trans (Nat.le_succ _) next.ge), .inr ?_⟩
      rw [removeSession_unchanged_iff]
      intro held found
      unfold MeshRuntimeState.install at found
      rw [same, AList.lookup_insert, next] at found
      rw [← Option.some.inj found]
      exact Nat.ne_of_gt (Nat.lt_succ_of_le older)
    · exact guarded.of_lookup (le_trans (Nat.le_succ _) next.ge) (AList.lookup_insert_ne same)

theorem Guarded.erase {key : SessionKey} (guarded : Guarded session state) :
    Guarded session { state with sessions := state.sessions.erase key } := by
  by_cases same : session.key = key
  · rcases guarded with full | ⟨older, _⟩
    · exact .inl full
    · refine .inr ⟨older, .inr (removeSession_unchanged_iff.mpr ?_)⟩
      intro held found
      rw [same, AList.lookup_erase] at found
      cases found
  · exact guarded.of_lookup le_rfl (AList.lookup_erase_ne same)

/-- A candidate is rejected, and nothing changes, or installed. -/
theorem admitSession_cases :
    (∃ retained, state.admitSession candidate preferred = (state, .rejected retained)) ∨
      ∃ replaced, state.admitSession candidate preferred = state.install candidate replaced := by
  unfold MeshRuntimeState.admitSession
  split
  · split
    · exact .inl ⟨_, rfl⟩
    · exact .inr ⟨_, rfl⟩
  · exact .inr ⟨_, rfl⟩

theorem Guarded.afterCall (guarded : Guarded session state) (call : TableCall) :
    Guarded session (state.afterCall call) := by
  cases call with
  | admission candidate preferred =>
    dsimp only [MeshRuntimeState.afterCall]
    rcases @admitSession_cases state candidate preferred with ⟨_, rejects⟩ | ⟨_, installs⟩
    · rw [rejects]
      exact guarded
    · rw [installs]
      exact guarded.install
  | removal key generation =>
    dsimp only [MeshRuntimeState.afterCall, MeshRuntimeState.removeSession]
    cases state.sessions.lookup key with
    | none => exact guarded
    | some held =>
      dsimp only
      split
      · exact guarded.erase
      · exact guarded

/-- However late it comes, a removal spares what replaced its session. -/
theorem late_removal_spares
    (accepted : (state.admitSession candidate preferred).2 = .accepted generation replaced)
    (calls : List TableCall) :
    Guarded (candidate.session generation)
      (calls.foldl .afterCall (state.admitSession candidate preferred).1) := by
  have start : Guarded (candidate.session generation)
      (state.admitSession candidate preferred).1 := by
    rcases @admitSession_cases state candidate preferred with ⟨_, rejects⟩ | ⟨_, installs⟩
    · rw [rejects] at accepted
      cases accepted
    · rw [installs] at accepted ⊢
      cases accepted
      exact .inr ⟨le_rfl, .inl (AList.lookup_insert _)⟩
  refine List.foldlRecOn calls _ start ?_
  intro now guarded call _
  exact guarded.afterCall call

/-- A tab came back under a new connection; its old one is cleaned up after that. -/
theorem late_removal_spares_sample :
    let tab : SessionKey := ⟨"workspace", "device", "tab"⟩
    Guarded ⟨tab, "old", "2026-01-01", none, .outgoing, 1⟩
      ([.admission ⟨tab, "new", "2026-01-02", some 1, .outgoing⟩ .outgoing, .removal tab 1].foldl
        MeshRuntimeState.afterCall ((⟨0, ∅⟩ : MeshRuntimeState).admitSession
          ⟨tab, "old", "2026-01-01", none, .outgoing⟩ .outgoing).1) :=
  late_removal_spares rfl _

end Removals

/-! ## Crossing dials -/

/-- One end of a connection. -/
structure Endpoint where
  deviceId : String
  instanceId : String
deriving DecidableEq, Repr

namespace Endpoint

def preferred (here there : Endpoint) : SessionDirection :=
  preferredSessionDirection here.deviceId here.instanceId there.deviceId there.instanceId

def key (there : Endpoint) (workspaceId : String) : SessionKey :=
  ⟨workspaceId, there.deviceId, there.instanceId⟩

/-- What one side knows about a connection besides who opened it. -/
structure Arrival where
  connectionId : String
  remoteIssuedAt : String
  remoteRouteSequence : Option Nat

/-- The connection that `opener` opened between `here` and `there`, as `here` admits it. -/
def candidate (here there : Endpoint) (workspaceId : String) (arrival : Arrival)
    (opener : Endpoint) : SessionCandidate :=
  ⟨there.key workspaceId, arrival.connectionId, arrival.remoteIssuedAt,
    arrival.remoteRouteSequence, if opener = here then .outgoing else .incoming⟩

variable {here there opener : Endpoint} {workspaceId : String}

/-- The endpoints prefer the same connection: what one side dialed the other received. -/
theorem preferred_swap (apart : here ≠ there) :
    here.preferred there = .outgoing ↔ there.preferred here = .incoming := by
  have distinct : toLex (strKey here.deviceId, strKey here.instanceId) ≠
      toLex (strKey there.deviceId, strKey there.instanceId) := by
    intro same
    obtain ⟨device, instance'⟩ := Prod.mk.inj (toLex.injective same)
    apply apart
    cases here
    cases there
    simp only [Endpoint.mk.injEq]
    exact ⟨strKey_injective device, strKey_injective instance'⟩
  unfold preferred preferredSessionDirection
  rcases lt_or_gt_of_ne distinct with below | above
  · simp [below, not_lt_of_gt below]
  · simp [above, not_lt_of_gt above]

theorem direction_of_prefers {arrival : Arrival}
    (prefers : opener = here ↔ here.preferred there = .outgoing) :
    (here.candidate there workspaceId arrival opener).direction = here.preferred there := by
  unfold candidate
  by_cases own : opener = here
  · rw [if_pos own]
    exact (prefers.mp own).symm
  · rw [if_neg own]
    cases direction : here.preferred there with
    | incoming => rfl
    | outgoing => exact absurd (prefers.mpr direction) own

/-- Of two crossing connections one side keeps the one in the direction it prefers. -/
theorem keeps_preferred {arrivals : Endpoint → Arrival} {state : MeshRuntimeState}
    {order : List Endpoint} (apart : here ≠ there)
    (fresh : state.sessions.lookup (there.key workspaceId) = none) (both : order.Perm [here, there])
    (opened : opener ∈ [here, there]) (prefers : opener = here ↔ here.preferred there = .outgoing) :
    ∃ generation, (state.admitAll (fun _ => here.preferred there)
      (order.map fun opener => here.candidate there workspaceId (arrivals opener)
        opener)).sessions.lookup (there.key workspaceId) =
      some ((here.candidate there workspaceId (arrivals opener) opener).session generation) := by
  have survives := @survives_admitAll (fun _ => here.preferred there) (there.key workspaceId) state
    (order.map fun opener => here.candidate there workspaceId (arrivals opener) opener) []
    (by rw [fresh]; rfl)
  rw [List.nil_append, List.filter_eq_self.mpr (by simp [candidate])] at survives
  have inOrder : opener ∈ order := both.mem_iff.mpr opened
  unfold Survives at survives
  split at survives
  · next none =>
    rw [List.map_eq_nil_iff] at survives
    rw [survives] at inOrder
    cases inOrder
  · next session found =>
    obtain ⟨best, first, same⟩ := survives
    obtain ⟨other, held, rfl⟩ := List.mem_map.mp first.mem
    -- the best is not below the preferred connection, so it is as well preferred
    have above := first.le (List.mem_map_of_mem inOrder)
    unfold sessionRank at above
    rw [Prod.Lex.toLex_le_toLex, direction_of_prefers prefers, decide_eq_true rfl] at above
    have best : (here.candidate there workspaceId (arrivals other) other).direction =
        here.preferred there := by
      rcases above with below | ⟨same, _⟩
      · exact absurd below (by simp)
      · exact of_decide_eq_true same.symm
    have isBest : other = opener := by
      rcases List.mem_pair.mp (both.mem_iff.mp held) with rfl | rfl
      · have outgoing : .outgoing = Endpoint.preferred other there := (if_pos rfl).symm.trans best
        exact (prefers.mpr outgoing.symm).symm
      · have incoming : .incoming = here.preferred other :=
          (if_neg (Ne.symm apart)).symm.trans best
        rcases List.mem_pair.mp opened with rfl | rfl
        · rw [prefers.mp rfl] at incoming
          cases incoming
        · rfl
    rw [isBest] at same
    exact ⟨session.generation, found.trans (congrArg some same)⟩

end Endpoint

/-- Both ends of two crossing connections keep the same one, in whatever order each admits
them; and of any admissions the survivor under a key is the first of the best that came
under it. -/
theorem crossing_dials_agree :
    (∀ (a b : Endpoint) (workspaceId : String) (arrivalsA arrivalsB : Endpoint → Endpoint.Arrival)
      (stateA stateB : MeshRuntimeState) (orderA orderB : List Endpoint), a ≠ b →
      stateA.sessions.lookup (b.key workspaceId) = none →
      stateB.sessions.lookup (a.key workspaceId) = none →
      orderA.Perm [a, b] → orderB.Perm [a, b] →
      ∃ opener ∈ [a, b], ∃ generationA generationB,
        (stateA.admitAll (fun _ => a.preferred b) (orderA.map fun opener =>
            a.candidate b workspaceId (arrivalsA opener) opener)).sessions.lookup
              (b.key workspaceId) =
          some ((a.candidate b workspaceId (arrivalsA opener) opener).session generationA) ∧
        (stateB.admitAll (fun _ => b.preferred a) (orderB.map fun opener =>
            b.candidate a workspaceId (arrivalsB opener) opener)).sessions.lookup
              (a.key workspaceId) =
          some ((b.candidate a workspaceId (arrivalsB opener) opener).session generationB)) ∧
    ∀ (preferred : SessionKey → SessionDirection) (key : SessionKey) (state : MeshRuntimeState)
      (candidates : List SessionCandidate), state.sessions.lookup key = none →
      Survives (preferred key) (candidates.filter (·.key = key))
        ((state.admitAll preferred candidates).sessions.lookup key) := by
  refine ⟨?_, ?_⟩
  · intro a b workspaceId arrivalsA arrivalsB stateA stateB orderA orderB apart freshA freshB
      bothA bothB
    have bothB' : orderB.Perm [b, a] := bothB.trans (List.Perm.swap b a [])
    -- the end that prefers to have opened the connection is the other's choice too
    obtain ⟨opener, opened, prefersA, prefersB⟩ : ∃ opener ∈ [a, b],
        (opener = a ↔ a.preferred b = .outgoing) ∧ (opener = b ↔ b.preferred a = .outgoing) := by
      cases prefers : a.preferred b with
      | outgoing =>
        have toA := (Endpoint.preferred_swap apart).mp prefers
        exact ⟨a, by simp, by simp, by simp [toA, apart]⟩
      | incoming =>
        have toB := (Endpoint.preferred_swap (Ne.symm apart)).mpr prefers
        exact ⟨b, by simp, by simp [Ne.symm apart], by simp [toB]⟩
    obtain ⟨generationA, keptA⟩ := @Endpoint.keeps_preferred a b opener workspaceId arrivalsA
      stateA orderA apart freshA bothA opened prefersA
    obtain ⟨generationB, keptB⟩ := @Endpoint.keeps_preferred b a opener workspaceId arrivalsB
      stateB orderB (Ne.symm apart) freshB bothB' (by simpa [or_comm] using opened) prefersB
    exact ⟨opener, opened, generationA, generationB, keptA, keptB⟩
  · intro preferred key state candidates fresh
    have survives := @survives_admitAll preferred key state candidates [] (by rw [fresh]; rfl)
    simpa using survives

namespace Sample

def firstTab : Endpoint := ⟨"device", "tab-a"⟩
def secondTab : Endpoint := ⟨"device", "tab-b"⟩

/-- Either side numbers its connections by who opened them. -/
def arrival (opener : Endpoint) : Endpoint.Arrival :=
  ⟨opener.instanceId, "2026-01-01T00:00:00Z", some 1⟩

end Sample

open Sample

/-- Two tabs of a device dial each other, and each admits its own connection first. -/
theorem crossing_dials_agree_sample :
    ∃ opener ∈ [firstTab, secondTab], ∃ generationA generationB,
      ((⟨0, ∅⟩ : MeshRuntimeState).admitAll (fun _ => firstTab.preferred secondTab)
          ([firstTab, secondTab].map fun opener =>
            firstTab.candidate secondTab "workspace" (arrival opener)
              opener)).sessions.lookup (secondTab.key "workspace") =
        some ((firstTab.candidate secondTab "workspace" (arrival opener)
          opener).session generationA) ∧
      ((⟨0, ∅⟩ : MeshRuntimeState).admitAll (fun _ => secondTab.preferred firstTab)
          ([secondTab, firstTab].map fun opener =>
            secondTab.candidate firstTab "workspace" (arrival opener)
              opener)).sessions.lookup (firstTab.key "workspace") =
        some ((secondTab.candidate firstTab "workspace" (arrival opener)
          opener).session generationB) :=
  crossing_dials_agree.1 firstTab secondTab "workspace" arrival arrival
    ⟨0, ∅⟩ ⟨0, ∅⟩ [firstTab, secondTab] [secondTab, firstTab]
    (by decide) rfl rfl (List.Perm.refl _) (List.Perm.swap _ _ [])

end MetaMesh
