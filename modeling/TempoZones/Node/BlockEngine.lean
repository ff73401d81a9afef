import TempoZones.L1.QueueLedger
import TempoZones.P2p.ScheduleExactness

/-!
# Block engine and L1 subscriber

Two tasks share the queue of finalized blocks, the leadership schedule and the pause gate. The
subscriber publishes a block's leader transition, then its pause event, then enqueues it. The engine
selects an import, checks its anchors against the permit, reads the pause gate, builds the zone
block and consumes the queue. Every access to shared state is a step (`EngineNode.Step`), so the
tasks interleave in any order.
-/

namespace TempoZones

open Lib P2p.LeadershipScheduleState

variable {K W : Type} [DecidableEq K] [EvmWord W] [DecidableEq W]

/-! ## Pause gate -/

abbrev PauseGate (W : Type) := Option (NumHash W × Bool)

/-- Failures of `observe_portal_pause`. -/
inductive PauseError (W : Type) where
  | conflictingHashes (number : ℕ) (current received : W)
  | contradictoryState (number : ℕ)
  deriving DecidableEq

namespace PauseGate

def portalPaused (gate : PauseGate W) : Bool := gate.any Prod.snd

/-- `observe_portal_pause`: whether the effective state changed, and the gate afterwards. -/
def observePortalPause (gate : PauseGate W) (block : NumHash W) (paused : Bool) :
    Except (PauseError W) Bool × PauseGate W :=
  match gate with
  | none => (.ok (false != paused), some (block, paused))
  | some (current, currentPaused) =>
    if block.number < current.number then (.ok false, gate)
    else if block.number = current.number then
      if block.hash ≠ current.hash then
        (.error (.conflictingHashes block.number current.hash block.hash), gate)
      else if paused ≠ currentPaused then (.error (.contradictoryState block.number), gate)
      else (.ok false, gate)
    else (.ok (currentPaused != paused), some (block, paused))

theorem observePortalPause_cases (gate : PauseGate W) (block : NumHash W) (paused : Bool) :
    (gate.observePortalPause block paused).2 = some (block, paused) ∧
        (∀ current ∈ gate, current.1.number < block.number) ∨
      (gate.observePortalPause block paused).2 = gate ∧
        ∃ current ∈ gate, block.number ≤ current.1.number := by
  cases gate with
  | none => exact .inl ⟨rfl, nofun⟩
  | some entry =>
    obtain ⟨current, currentPaused⟩ := entry
    unfold observePortalPause
    simp only
    split
    · next hlt => exact .inr ⟨rfl, _, rfl, hlt.le⟩
    · next hge =>
      split
      · next heq =>
        refine .inr ⟨?_, _, rfl, heq.le⟩
        split
        · rfl
        · split <;> rfl
      · next hne =>
        refine .inl ⟨rfl, fun e he => ?_⟩
        cases he
        show current.number < block.number
        omega

end PauseGate

/-! ## Import decision -/

structure FinalizedTarget where
  number : ℕ
  ready : Bool

inductive TempoImportDecision where
  | waitForHardforkMatch
  | waitForFinalizedTarget
  | importFull
  | importCheckpoints (count : ℕ)
  deriving DecidableEq

/-- Hardforks by timestamp in seconds, in order, and the timestamps of headers. -/
structure ZoneSchedule (W : Type) where
  tempoHardforkAt : ℕ → ℕ
  t13 : ℕ
  timestampMillis : NumHash W → ℕ

def zoneTimestampMillis (l1 parent wallClock : ℕ) : ℕ := max (max l1 wallClock) parent

def tempoImportDecision (spec : ZoneSchedule W) (queued : List (NumHash W)) (latest : NumHash W)
    (finalizedL1Timestamp : Option ℕ) (finalizedTarget : Option FinalizedTarget)
    (parentMillis wallClockMillis : ℕ) : TempoImportDecision :=
  match queued with
  | [] => .importFull
  | first :: _ =>
    let firstL1Hardfork := spec.tempoHardforkAt (spec.timestampMillis first / 1000)
    let nextMillis := zoneTimestampMillis (spec.timestampMillis first) parentMillis wallClockMillis
    let zoneHardfork := spec.tempoHardforkAt (nextMillis / 1000)
    let l1TipHardfork := spec.tempoHardforkAt
      (max (spec.timestampMillis latest / 1000) (finalizedL1Timestamp.getD 0))
    if zoneHardfork < spec.t13 then .importFull
    else if l1TipHardfork < zoneHardfork then .waitForHardforkMatch
    else
      let targetIsVisible := finalizedTarget.any fun target =>
        queued.getLast?.any fun header => decide (target.number ≤ header.number)
      let reserveForFull := finalizedTarget.isNone || targetIsVisible
      let checkpointCount := max
        (min (queued.length - reserveForFull.toNat) MAX_TEMPO_HEADERS_PER_ZONE_BLOCK)
        (decide (firstL1Hardfork < zoneHardfork)).toNat
      if checkpointCount = 0 then
        if targetIsVisible ∧ finalizedTarget.any (fun target => !target.ready) then
          .waitForFinalizedTarget
        else .importFull
      else .importCheckpoints checkpointCount

/-! ## Permit -/

inductive EngineExit where
  | cancelled
  | demoted (tempoAnchor epoch : ℕ)
  | fenced (tempoAnchor : ℕ)
  deriving DecidableEq

/-- `ProductionPermit::check` of the node `me`. -/
def productionCheck (schedule : P2p.LeadershipScheduleState K W) (me : K) (tempoAnchor : ℕ) :
    Option EngineExit :=
  match schedule.leaderFor tempoAnchor with
  | none => some (.fenced tempoAnchor)
  | some record =>
    if record.leader = me then none else some (.demoted tempoAnchor record.epoch)

theorem productionCheck_eq_none {schedule : P2p.LeadershipScheduleState K W} {me : K} {anchor : ℕ}
    (h : productionCheck schedule me anchor = none) :
    ∃ record, schedule.leaderFor anchor = some record ∧ record.leader = me := by
  unfold productionCheck at h
  split at h
  · cases h
  · next record hrecord =>
    split at h
    · next hleader => exact ⟨record, hrecord, hleader⟩
    · cases h

/-! ## State -/

inductive SubscriberPhase (W : Type) where
  | ready
  | fetched (block : SealedL1Block W)
  | transitionPublished (block : SealedL1Block W)
  | pausePublished (block : SealedL1Block W)

/-- Where the engine stands in `drain_all_available`. An import consists of the front block of the
queue and of checkpoint headers, which are empty for a full import. -/
inductive EnginePhase (W : Type) where
  | idle
  | peeked (front : SealedL1Block W)
  | selected (front : SealedL1Block W) (headers : List (NumHash W))
  | checking (front : SealedL1Block W) (permitted rest : List (NumHash W))
  | permitted (front : SealedL1Block W) (headers : List (NumHash W))
  | cleared (front : SealedL1Block W) (headers : List (NumHash W))
  | consumed (anchor : ℕ)
  | exited (reason : EngineExit)

structure TempoImported (W : Type) where
  headers : List (NumHash W)
  gate : PauseGate W

/-- A node with its two tasks. -/
structure EngineNode (K W : Type) where
  queue : DepositQueue W
  delivered : List (SealedL1Block W)
  leadership : P2p.Node K W
  gate : PauseGate W
  subscriber : SubscriberPhase W
  engine : EnginePhase W
  imports : List (TempoImported W)

/-- The finalized L1 after a node's checkpoint: the blocks, the portal's leader transitions, the
pause state that a block's events leave behind, and that at each block. -/
structure FinalizedL1 (K W : Type) where
  chain : L1Chain W
  leaders : P2p.TransitionHistory K
  portalPause : ℕ → Option Bool
  paused : ℕ → Bool
  paused_of_event : ∀ n b, portalPause n = some b → paused n = b

/-- Leader transition in the events of a block; the portal activates a leader in the block that sets
it, and sets at most one in a block. -/
def FinalizedL1.leaderTransition (l1 : FinalizedL1 K W) (number : ℕ) :
    Option (P2p.LeadershipState K) :=
  l1.leaders.records.find? fun r => decide (r.activationTempoBlock = number)

/-! ## Subscriber steps -/

namespace EngineNode

def observe (l : P2p.Node K W) (record : P2p.LeadershipState K) : P2p.Node K W :=
  if record ∈ l.observed then { l with schedule := (l.schedule.publish record).2 }
  else ⟨(l.schedule.publish record).2, l.observed ++ [record], l.pending.tail, l.installed⟩

/-- `apply_leader_transition` for the events of a block. A failure stops the subscriber, which starts
over after its last enqueued block. -/
def publishTransition (l1 : FinalizedL1 K W) (n : EngineNode K W) (block : SealedL1Block W) :
    EngineNode K W :=
  match l1.leaderTransition block.number with
  | none => { n with subscriber := .transitionPublished block }
  | some record =>
    match (n.leadership.schedule.publish record).1 with
    | .error _ => { n with subscriber := .ready }
    | .ok _ =>
      { n with
        leadership := observe n.leadership record
        subscriber := .transitionPublished block }

def publishPause (l1 : FinalizedL1 K W) (n : EngineNode K W) (block : SealedL1Block W) :
    EngineNode K W :=
  match l1.portalPause block.number with
  | none => { n with subscriber := .pausePublished block }
  | some paused =>
    match n.gate.observePortalPause block.header paused with
    | (.error _, gate) => { n with gate := gate, subscriber := .ready }
    | (.ok _, gate) => { n with gate := gate, subscriber := .pausePublished block }

/-- `try_enqueue_sealed` at the end of the work on a block. -/
def enqueue (n : EngineNode K W) (block : SealedL1Block W) : EngineNode K W :=
  match n.queue.tryEnqueueSealed block with
  | (.ok true, queue) =>
    { n with queue := queue, delivered := n.delivered ++ [block], subscriber := .ready }
  | (_, queue) => { n with queue := queue, subscriber := .ready }

/-! ## Engine steps -/

/-- Rest of `next_available` after the front block was read. The latest header is read later than the
others, and the tracker and the clock are read in between. -/
def nextAvailable (spec : ZoneSchedule W) (n : EngineNode K W) (front : SealedL1Block W)
    (latest : NumHash W) (finalizedL1Timestamp : Option ℕ)
    (finalizedTarget : Option FinalizedTarget) (parentMillis wallClockMillis : ℕ) :
    EnginePhase W :=
  let queued := (n.queue.pending.take (MAX_TEMPO_HEADERS_PER_ZONE_BLOCK + 1)).map (·.header)
  match tempoImportDecision spec queued latest finalizedL1Timestamp finalizedTarget parentMillis
    wallClockMillis with
  | .waitForHardforkMatch | .waitForFinalizedTarget => .idle
  | .importFull => .selected front []
  | .importCheckpoints count => .selected front (queued.take count)

/-- `apply_permit` on the front block. -/
def checkFront (me : K) (n : EngineNode K W) (front : SealedL1Block W) (headers : List (NumHash W)) :
    EnginePhase W :=
  match productionCheck n.leadership.schedule me front.number with
  | some exit => .exited exit
  | none => .checking front [] headers

/-- `apply_permit` on the next checkpoint header: the run is cut before the first header that is not
permitted. -/
def checkHeader (me : K) (n : EngineNode K W) (front : SealedL1Block W)
    (permitted rest : List (NumHash W)) : EnginePhase W :=
  match rest with
  | [] => .permitted front permitted
  | header :: rest =>
    match productionCheck n.leadership.schedule me header.number with
    | none => .checking front (permitted ++ [header]) rest
    | some exit => if permitted = [] then .exited exit else .permitted front permitted

/-- The pause check of `drain_all_available`. -/
def checkPause (n : EngineNode K W) (front : SealedL1Block W) (headers : List (NumHash W)) :
    EnginePhase W :=
  if n.gate.portalPaused then .idle else .cleared front headers

def importing (n : EngineNode K W) (queue : DepositQueue W) (headers : List (NumHash W))
    (anchor : NumHash W) : EngineNode K W :=
  { n with
    queue := queue
    engine := .consumed anchor.number
    imports := n.imports ++ [⟨headers, n.gate⟩] }

/-- `advance` for a zone block that was built and accepted. -/
def advance (n : EngineNode K W) (front : SealedL1Block W) (headers : List (NumHash W)) :
    EngineNode K W :=
  match headers.getLast? with
  | some final =>
    match n.queue.deferThrough final with
    | (.error _, queue) => { n with queue := queue, engine := .idle }
    | (.ok _, queue) => n.importing queue headers final
  | none =>
    match n.queue.operationalWork front.header with
    | .error _ => { n with engine := .idle }
    | .ok _ =>
      match n.queue.confirmOperational front.header with
      | (.error _, queue) => { n with queue := queue, engine := .idle }
      | (.ok _, queue) => n.importing queue [front.header] front.header

/-- `record_applied_anchor` at the end of `advance`. -/
def recordApplied (n : EngineNode K W) (anchor : ℕ) : EngineNode K W :=
  { n with
    leadership := { n.leadership with
      schedule := n.leadership.schedule.recordAppliedAnchor anchor }
    engine := .idle }

/-! ## Interleavings -/

inductive Step (l1 : FinalizedL1 K W) (spec : ZoneSchedule W) (me : K) (n : EngineNode K W) :
    EngineNode K W → Prop
  | fetch {block : SealedL1Block W} (hready : n.subscriber = .ready)
      (hblock : (∃ rest, l1.chain.blocks = n.delivered ++ block :: rest) ∨ block ∈ n.delivered) :
      Step l1 spec me n { n with subscriber := .fetched block }
  | publishTransition {block : SealedL1Block W} (hphase : n.subscriber = .fetched block) :
      Step l1 spec me n (n.publishTransition l1 block)
  | publishPause {block : SealedL1Block W} (hphase : n.subscriber = .transitionPublished block) :
      Step l1 spec me n (n.publishPause l1 block)
  | enqueue {block : SealedL1Block W} (hphase : n.subscriber = .pausePublished block) :
      Step l1 spec me n (n.enqueue block)
  | reconnect : Step l1 spec me n { n with subscriber := .ready }
  | poll (block : NumHash W) :
      Step l1 spec me n
        { n with gate := (n.gate.observePortalPause block (l1.paused block.number)).2 }
  | peek {front : SealedL1Block W} (hphase : n.engine = .idle)
      (hfront : n.queue.pending.head? = some front) :
      Step l1 spec me n { n with engine := .peeked front }
  | nextAvailable {front : SealedL1Block W} (hphase : n.engine = .peeked front)
      (latest : NumHash W) (finalizedL1Timestamp : Option ℕ)
      (finalizedTarget : Option FinalizedTarget) (parentMillis wallClockMillis : ℕ) :
      Step l1 spec me n
        { n with
          engine := n.nextAvailable spec front latest finalizedL1Timestamp finalizedTarget
            parentMillis wallClockMillis }
  | checkFront {front : SealedL1Block W} {headers : List (NumHash W)}
      (hphase : n.engine = .selected front headers) :
      Step l1 spec me n { n with engine := n.checkFront me front headers }
  | checkHeader {front : SealedL1Block W} {permitted rest : List (NumHash W)}
      (hphase : n.engine = .checking front permitted rest) :
      Step l1 spec me n { n with engine := n.checkHeader me front permitted rest }
  | checkPause {front : SealedL1Block W} {headers : List (NumHash W)}
      (hphase : n.engine = .permitted front headers) :
      Step l1 spec me n { n with engine := n.checkPause front headers }
  | advance {front : SealedL1Block W} {headers : List (NumHash W)}
      (hphase : n.engine = .cleared front headers) :
      Step l1 spec me n (n.advance front headers)
  | advanceFails {front : SealedL1Block W} {headers : List (NumHash W)}
      (hphase : n.engine = .cleared front headers) :
      Step l1 spec me n { n with engine := .idle }
  | recordApplied {anchor : ℕ} (hphase : n.engine = .consumed anchor) :
      Step l1 spec me n (n.recordApplied anchor)
  | cancel (hphase : n.engine = .idle) : Step l1 spec me n { n with engine := .exited .cancelled }
  | startEngine {reason : EngineExit} (hphase : n.engine = .exited reason) :
      Step l1 spec me n { n with engine := .idle }

/-- Leadership at the start of a node with its checkpoint at `anchor`: nothing, or the portal's
leader there, with the forced recovery unless the portal has completed it. -/
inductive Seeded (h : P2p.TransitionHistory K) (d : P2p.RecoveryDirective K W) (anchor : ℕ) :
    P2p.Node K W → Prop
  | fenced (hnone : ∀ r ∈ h.records, anchor < r.activationTempoBlock) :
      Seeded h d anchor
        ⟨uninitialized.recordAppliedAnchor anchor, [], h.records, false⟩
  | snapshot {earlier rest : List (P2p.LeadershipState K)} {seed : P2p.LeadershipState K}
      (hrecords : h.records = earlier ++ seed :: rest) (hseed : seed.activationTempoBlock ≤ anchor)
      (hrest : ∀ r ∈ rest, anchor < r.activationTempoBlock) :
      Seeded h d anchor
        ⟨(uninitialized.publish seed).2.recordAppliedAnchor anchor,
          [seed], rest, false⟩
  | recovering {earlier rest : List (P2p.LeadershipState K)} {seed : P2p.LeadershipState K}
      (hrecords : h.records = earlier ++ seed :: rest) (hseed : seed.activationTempoBlock ≤ anchor)
      (hrest : ∀ r ∈ rest, anchor < r.activationTempoBlock) (hepoch : seed.epoch < d.epoch) :
      Seeded h d anchor
        ⟨(((uninitialized.publish seed).2.recordAppliedAnchor
          anchor).installForcedRecovery d).2, [seed], rest, true⟩

/-- A node before its tasks start. The pause gate was initialized at a finalized block, and the queue
may hold recovered deferred work. -/
structure Start (l1 : FinalizedL1 K W) (d : P2p.RecoveryDirective K W) (n : EngineNode K W) :
    Prop where
  pending : n.queue.pending = []
  lastEnqueued : n.queue.lastEnqueued = none ∨ n.queue.lastEnqueued = some l1.chain.base
  delivered : n.delivered = []
  leadership : Seeded l1.leaders d l1.chain.base.number n.leadership
  gate : ∃ block, l1.chain.base.number ≤ block.number ∧
    n.gate = some (block, l1.paused block.number)
  subscriber : n.subscriber = .ready
  engine : n.engine = .idle
  imports : n.imports = []

def Reached (l1 : FinalizedL1 K W) (spec : ZoneSchedule W) (me : K)
    (d : P2p.RecoveryDirective K W) (n : EngineNode K W) : Prop :=
  ∃ n₀, Start l1 d n₀ ∧ Relation.ReflTransGen (Step l1 spec me) n₀ n

end EngineNode

end TempoZones
