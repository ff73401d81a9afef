import TempoZones.Node.BlockEngine

/-!
# Role controller

A node switches between leading and following by replacing its whole task graph. A generation has at
most one writer of the canonical head: a leader's block engine or a follower's import loop. The
controller reads the checkpoint, the schedule and the promotion evidence one after the other, tears
the generation down, and starts the next. Every task may return, panic or hang; a writer never does
while it waits for a request.

A teardown cancels the tasks, waits for the engine's acknowledgement, shuts the broadcaster down and
joins all tasks before a deadline. When one of these fails the controller exits, because an aborted
writer may leave a request behind.
-/

namespace TempoZones.RoleControl

open Lib

variable {K W : Type} [DecidableEq K] [DecidableEq W]

/-! ## Roles -/

/-- A canonical zone block: its hash and the Tempo checkpoint in its state. -/
structure ZoneHead (W : Type) where
  hash : W
  tempoAnchor : ℕ
  deriving DecidableEq

inductive DesiredRole where
  | leader (epoch nextAnchor : ℕ)
  | follower (epoch : ℕ)
  | fenced
  deriving DecidableEq

namespace DesiredRole

def sameVariant : DesiredRole → DesiredRole → Bool
  | .leader _ _, .leader _ _ => true
  | .follower _, .follower _ => true
  | .fenced, .fenced => true
  | _, _ => false

def isLeader : DesiredRole → Bool
  | .leader _ _ => true
  | _ => false

def otherTasks : DesiredRole → ℕ
  | .leader _ _ => 3
  | .follower _ => 2
  | .fenced => 0

end DesiredRole

/-- `desired_role` for the next anchor. -/
def desiredRole (schedule : P2p.LeadershipScheduleState K W) (me : K) (canLead : Bool)
    (nextAnchor : ℕ) : DesiredRole :=
  match schedule.leaderFor nextAnchor with
  | none => .fenced
  | some record =>
    if record.leader = me then
      if canLead then .leader record.epoch nextAnchor else .fenced
    else .follower record.epoch

/-- The forced recovery that `promotion_readiness` has to confirm, if one is active for this node. -/
def activeRecovery (schedule : P2p.LeadershipScheduleState K W) (me : K) (nextAnchor : ℕ) :
    Option (P2p.ForcedRecoveryState K W) :=
  schedule.forcedRecovery.filter fun recovery =>
    decide (recovery.directive.leader = me) &&
      decide (recovery.directive.recoveryStartTempoBlock ≤ nextAnchor) &&
        recovery.portalActivationTempoBlock.all fun activation => decide (nextAnchor < activation)

/-- `promotion_readiness` with `canonical_recovery_height`. -/
def promotionReady (schedule : P2p.LeadershipScheduleState K W) (canonical : List (ZoneHead W))
    (me : K) (nextAnchor : ℕ) : Bool :=
  (activeRecovery schedule me nextAnchor).all fun recovery =>
    canonical.any fun block => decide (block.hash = recovery.directive.recoveryBlockHash)

/-! ## Generations -/

/-- Requests to the execution engine. A forkchoice update installs a canonical chain. -/
inductive EngineRequest (W : Type) where
  | newPayload
  | forkchoice (chain : List (ZoneHead W))

/-- The task that writes the canonical head. A running task waits for its request; an aborted task
leaves its request behind. -/
inductive Writer (W : Type) where
  | absent
  | running (request : Option (EngineRequest W))
  | returned
  | panicked
  | aborted (request : Option (EngineRequest W))

namespace Writer

def busy : Writer W → Bool
  | .running _ => true
  | .aborted request => request.isSome
  | _ => false

/-- `JoinSet` has no running task for it. -/
def ended : Writer W → Bool
  | .running _ => false
  | _ => true

/-- The task after `abort_all`. -/
def abort : Writer W → Writer W
  | .running request => .aborted request
  | writer => writer

end Writer

inductive EventKind where
  | sync
  | transactions
  | backfill
  deriving DecidableEq

/-- `RunningGeneration` with the state of its tasks: the writer and the header it started from, whether
the broadcaster can take its command, how many other tasks are running, and the events handed over. -/
structure Generation (W : Type) where
  role : DesiredRole
  startHeader : Option (ZoneHead W)
  cancelled : Bool
  writer : Writer W
  broadcasting : Bool
  others : ℕ
  received : List EventKind

namespace Generation

def none : Generation W := ⟨.fenced, .none, false, .absent, false, 0, []⟩

/-- Tasks as `start_generation` spawns them. -/
def spawn (role : DesiredRole) (startHeader : Option (ZoneHead W)) : Generation W where
  role := role
  startHeader := startHeader
  cancelled := false
  writer := match role with
    | .fenced => .absent
    | _ => .running .none
  broadcasting := role.isLeader
  others := role.otherTasks
  received := []

def hasEnded (g : Generation W) : Bool :=
  (g.role ≠ .fenced && g.writer.ended) || (g.role.isLeader && !g.broadcasting) ||
    decide (g.others < g.role.otherTasks)

def joined (g : Generation W) : Bool := g.writer.ended && !g.broadcasting && decide (g.others = 0)

def abortAll (g : Generation W) : Generation W :=
  { g with writer := g.writer.abort, broadcasting := false, others := 0 }

end Generation

/-! ## The node -/

inductive AfterStop where
  | start (desired : DesiredRole)
  | decide

/-- Where the controller stands in its loop. During a teardown it carries whether the outcome has
already failed. -/
inductive Phase (W : Type) where
  | deciding
  | checkpointRead (nextAnchor : ℕ)
  | roleRead (desired : DesiredRole)
  | decided (desired : DesiredRole)
  | awaitingEngine (next : AfterStop)
  | stoppingBroadcaster (failed : Bool) (next : AfterStop)
  | joining (failed : Bool) (next : AfterStop)
  | starting (desired : DesiredRole)
  | headRead (epoch nextAnchor : ℕ) (header : ZoneHead W)
  | waiting
  | exited

/-- A node with its controller, its event sinks and every generation started so far. -/
structure RoleNode (K W : Type) where
  schedule : P2p.LeadershipScheduleState K W
  canonical : List (ZoneHead W)
  generationId : ℕ
  generations : ℕ → Generation W
  current : Option ℕ
  sinks : EventKind → Option ℕ
  held : List (EventKind × ℕ)
  phase : Phase W

namespace RoleNode

def boot (schedule : P2p.LeadershipScheduleState K W) (canonical : List (ZoneHead W)) :
    RoleNode K W :=
  ⟨schedule, canonical, 0, fun _ => .none, none, fun _ => none, [], .deciding⟩

def nextAnchor (s : RoleNode K W) : Option ℕ :=
  s.canonical.getLast?.map fun head => saturatingAdd head.tempoAnchor 1

def runs (s : RoleNode K W) (desired : DesiredRole) : Bool :=
  s.current.any fun g => (s.generations g).role.sameVariant desired

def update (s : RoleNode K W) (g : ℕ) (f : Generation W → Generation W) : RoleNode K W :=
  { s with generations := Function.update s.generations g (f (s.generations g)) }

def setWriter (s : RoleNode K W) (g : ℕ) (writer : Writer W) : RoleNode K W :=
  s.update g fun generation => { generation with writer := writer }

def resolve (s : RoleNode K W) (applied : Bool) : EngineRequest W → RoleNode K W
  | .newPayload => s
  | .forkchoice chain => if applied then { s with canonical := chain } else s

/-- Beginning of `stop`: sinks are cleared and the token is cancelled. -/
def beginStop (s : RoleNode K W) (g : ℕ) (next : AfterStop) : RoleNode K W :=
  { s.update g fun generation => { generation with cancelled := true } with
    sinks := fun _ => none
    phase := if (s.generations g).role.isLeader then .awaitingEngine next else .joining false next }

/-- End of `stop_current_generation`. -/
def finishStop (s : RoleNode K W) (failed : Bool) (next : AfterStop) : RoleNode K W :=
  { s with
    current := none
    phase := if failed then .exited else
      match next with
      | .start desired => .starting desired
      | .decide => .deciding }

def exit (s : RoleNode K W) (g : ℕ) : RoleNode K W :=
  { s.update g Generation.abortAll with current := none, phase := .exited }

def installed (role : DesiredRole) (g : ℕ) : EventKind → Option ℕ
  | .backfill => if role.isLeader then none else some g
  | _ => some g

/-- `start_generation` at the point where it can no longer fail. -/
def started (s : RoleNode K W) (role : DesiredRole) (header : Option (ZoneHead W)) : RoleNode K W :=
  { s with
    generationId := s.generationId + 1
    generations := Function.update s.generations (s.generationId + 1) (.spawn role header)
    current := some (s.generationId + 1)
    sinks := if role = .fenced then fun _ => none else installed role (s.generationId + 1)
    phase := .waiting }

def startFailed (s : RoleNode K W) : RoleNode K W :=
  { s with
    generationId := s.generationId + 1
    current := none
    sinks := fun _ => none
    phase := .waiting }

/-! ## Steps -/

/-- Steps of the schedule, of the tasks, of the router and of the execution engine. -/
inductive TaskStep (s : RoleNode K W) : RoleNode K W → Prop
  | publish (record : P2p.LeadershipState K) :
      TaskStep s { s with schedule := (s.schedule.publish record).2 }
  | recordApplied (anchor : ℕ) :
      TaskStep s { s with schedule := s.schedule.recordAppliedAnchor anchor }
  | installRecovery (directive : P2p.RecoveryDirective K W) :
      TaskStep s { s with schedule := (s.schedule.installForcedRecovery directive).2 }
  | issue {g : ℕ} (request : EngineRequest W) (hidle : (s.generations g).writer = .running none) :
      TaskStep s (s.setWriter g (.running (some request)))
  | respond {g : ℕ} {request : EngineRequest W} (applied : Bool)
      (hwaiting : (s.generations g).writer = .running (some request)) :
      TaskStep s ((s.resolve applied request).setWriter g (.running none))
  | applyOrphan {g : ℕ} {request : EngineRequest W} (applied : Bool)
      (horphan : (s.generations g).writer = .aborted (some request)) :
      TaskStep s ((s.resolve applied request).setWriter g (.aborted none))
  | writerReturns {g : ℕ} (hidle : (s.generations g).writer = .running none) :
      TaskStep s (s.setWriter g .returned)
  | writerPanics {g : ℕ} (hidle : (s.generations g).writer = .running none) :
      TaskStep s (s.setWriter g .panicked)
  | broadcasterEnds (g : ℕ) :
      TaskStep s (s.update g fun generation => { generation with broadcasting := false })
  | otherEnds (g : ℕ) :
      TaskStep s (s.update g fun generation => { generation with others := generation.others - 1 })
  | lookUp {kind : EventKind} {g : ℕ} (hsink : s.sinks kind = some g) :
      TaskStep s { s with held := s.held ++ [(kind, g)] }
  | handOver {kind : EventKind} {g : ℕ} (hheld : (kind, g) ∈ s.held) :
      TaskStep s
        { s.update g fun generation => { generation with received := generation.received ++ [kind] }
          with held := s.held.erase (kind, g) }
  | drop {kind : EventKind} {g : ℕ} (hheld : (kind, g) ∈ s.held) :
      TaskStep s { s with held := s.held.erase (kind, g) }

inductive ControlStep (me : K) (s : RoleNode K W) : RoleNode K W → Prop
  | readCheckpoint {anchor : ℕ} (hphase : s.phase = .deciding) (hanchor : s.nextAnchor = some anchor) :
      ControlStep me s { s with phase := .checkpointRead anchor }
  | checkpointFails (hphase : s.phase = .deciding) :
      ControlStep me s { s with phase := .roleRead .fenced }
  | readRole {anchor : ℕ} (canLead : Bool) (hphase : s.phase = .checkpointRead anchor) :
      ControlStep me s { s with phase := .roleRead (desiredRole s.schedule me canLead anchor) }
  | promote {epoch anchor : ℕ} (hphase : s.phase = .roleRead (.leader epoch anchor))
      (hother : s.runs (.leader epoch anchor) = false) :
      ControlStep me s
        { s with
          phase := .decided (if promotionReady s.schedule s.canonical me anchor then
            .leader epoch anchor else .fenced) }
  | noBarrier {desired : DesiredRole} (hphase : s.phase = .roleRead desired)
      (hnone : desired.isLeader = false ∨ s.runs desired = true) :
      ControlStep me s { s with phase := .decided desired }
  | keep {desired : DesiredRole} (hphase : s.phase = .decided desired)
      (hsame : s.runs desired = true) : ControlStep me s { s with phase := .waiting }
  | replace {desired : DesiredRole} {g : ℕ} (hphase : s.phase = .decided desired)
      (hother : s.runs desired = false) (hcurrent : s.current = some g) :
      ControlStep me s (s.beginStop g (.start desired))
  | install {desired : DesiredRole} (hphase : s.phase = .decided desired)
      (hcurrent : s.current = none) : ControlStep me s { s with phase := .starting desired }
  | engineAcknowledged {next : AfterStop} {g : ℕ} (hphase : s.phase = .awaitingEngine next)
      (hcurrent : s.current = some g) (hreturned : (s.generations g).writer = .returned) :
      ControlStep me s { s with phase := .stoppingBroadcaster false next }
  | engineLost {next : AfterStop} {g : ℕ} (hphase : s.phase = .awaitingEngine next)
      (hcurrent : s.current = some g) (hpanicked : (s.generations g).writer = .panicked) :
      ControlStep me s { s with phase := .stoppingBroadcaster true next }
  | engineTimeout {next : AfterStop} {g : ℕ} (hphase : s.phase = .awaitingEngine next)
      (hcurrent : s.current = some g) (hhangs : (s.generations g).writer.ended = false) :
      ControlStep me s { s with phase := .stoppingBroadcaster true next }
  | shutdownSent {failed : Bool} {next : AfterStop} {g : ℕ}
      (hphase : s.phase = .stoppingBroadcaster failed next) (hcurrent : s.current = some g)
      (halive : (s.generations g).broadcasting = true) :
      ControlStep me s { s with phase := .joining failed next }
  | shutdownRefused {failed : Bool} {next : AfterStop} {g : ℕ}
      (hphase : s.phase = .stoppingBroadcaster failed next) (hcurrent : s.current = some g)
      (hgone : (s.generations g).broadcasting = false) :
      ControlStep me s { s with phase := .joining true next }
  | joined {failed : Bool} {next : AfterStop} {g : ℕ} (hphase : s.phase = .joining failed next)
      (hcurrent : s.current = some g) (hjoined : (s.generations g).joined = true) :
      ControlStep me s (s.finishStop failed next)
  | joinTimeout {failed : Bool} {next : AfterStop} {g : ℕ} (hphase : s.phase = .joining failed next)
      (hcurrent : s.current = some g) : ControlStep me s (s.exit g)
  | startFenced (hphase : s.phase = .starting .fenced) : ControlStep me s (s.started .fenced none)
  | startFollower {epoch : ℕ} (hphase : s.phase = .starting (.follower epoch)) :
      ControlStep me s (s.started (.follower epoch) none)
  | readHead {epoch anchor : ℕ} {header : ZoneHead W}
      (hphase : s.phase = .starting (.leader epoch anchor))
      (hheader : s.canonical.getLast? = some header) :
      ControlStep me s { s with phase := .headRead epoch anchor header }
  | headFails {epoch anchor : ℕ} (hphase : s.phase = .starting (.leader epoch anchor)) :
      ControlStep me s s.startFailed
  | prerequisiteFails {epoch anchor : ℕ} {header : ZoneHead W}
      (hphase : s.phase = .headRead epoch anchor header) : ControlStep me s s.startFailed
  | startLeader {epoch anchor : ℕ} {header : ZoneHead W}
      (hphase : s.phase = .headRead epoch anchor header) :
      ControlStep me s (s.started (.leader epoch anchor) (some header))
  | wake (hphase : s.phase = .waiting) : ControlStep me s { s with phase := .deciding }
  | taskEnded {g : ℕ} (hphase : s.phase = .waiting) (hcurrent : s.current = some g)
      (hended : (s.generations g).hasEnded = true) : ControlStep me s (s.beginStop g .decide)
  | closed {g : ℕ} (hphase : s.phase = .waiting) (hcurrent : s.current = some g) :
      ControlStep me s (s.exit g)
  | closedFenced (hphase : s.phase = .waiting) (hcurrent : s.current = none) :
      ControlStep me s { s with phase := .exited }

inductive Step (me : K) (s s' : RoleNode K W) : Prop
  | task (hstep : TaskStep s s') : Step me s s'
  | control (hstep : ControlStep me s s') : Step me s s'

abbrev Run (me : K) : RoleNode K W → RoleNode K W → Prop := Relation.ReflTransGen (Step me)

def Reached (me : K) (s : RoleNode K W) : Prop :=
  ∃ schedule canonical, Run me (boot schedule canonical) s

end RoleNode

end TempoZones.RoleControl
