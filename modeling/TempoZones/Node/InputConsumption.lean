import TempoZones.Node.PeerImport

/-!
# Consumption of finalized Tempo blocks

The leader's engine and the follower's import loop move the same four positions: the queue, the
pruned height of the tracker, the applied anchor of the schedule and the head of the zone chain. An
advance is a sequence of requests that can each fail; it then consumes its input and asks the
execution engine to make the block canonical, an answer that is only logged. A follower makes its
block canonical first. Each request is a step (`InputNode.Step`).
-/

namespace TempoZones

open Lib

variable {K W : Type} [DecidableEq K] [EvmWord W] [DecidableEq W]

/-! ## Tracker of observed blocks -/

def MAX_L1_LOOKAHEAD_BLOCKS : ℕ := 7200

/-- `L1BlockTracker`: retained observations, the newest one, and the last consumed height. -/
structure L1BlockTracker (W : Type) where
  observed : List (NumHash W)
  latest : Option (NumHash W)
  prunedThrough : Option ℕ

/-- Failures of `record_observation`. -/
inductive TrackerError (W : Type) where
  | conflictingHash (number : ℕ) (existing received : W)
  | lookahead (number limit : ℕ)
  | nonContiguous (latest received : ℕ)
  | nonContiguousFirst (consumed received : ℕ)

namespace L1BlockTracker

def new : L1BlockTracker W := ⟨[], none, none⟩

def initializeConsumedThrough (t : L1BlockTracker W) (number : ℕ) : L1BlockTracker W :=
  { t with prunedThrough := some (t.prunedThrough.elim number (max · number)) }

def pruneThrough (t : L1BlockTracker W) (number : ℕ) : L1BlockTracker W :=
  { t with
    observed := t.observed.filter fun o => decide (number < o.number)
    prunedThrough := some (t.prunedThrough.elim number (max · number)) }

/-- The insertion at the end of `record_observation`. -/
def insert (t : L1BlockTracker W) (block : NumHash W) : L1BlockTracker W :=
  { t with observed := t.observed ++ [block], latest := some block }

/-- `record_observation`. -/
def record (t : L1BlockTracker W) (block : NumHash W) :
    Except (TrackerError W) Unit × L1BlockTracker W :=
  match t.observed.find? fun o => decide (o.number = block.number) with
  | some observation =>
    if observation.hash = block.hash then (.ok (), t)
    else (.error (.conflictingHash block.number observation.hash block.hash), t)
  | none =>
    if t.latest = some block then (.ok (), t)
    else
      -- the first observation also sets the consumed height, before any check
      let consumed := t.prunedThrough.getD (block.number - 1)
      let started := { t with prunedThrough := some consumed }
      let limit := saturatingAdd consumed MAX_L1_LOOKAHEAD_BLOCKS
      if limit < block.number then (.error (.lookahead block.number limit), started)
      else
        match t.latest with
        | some latest =>
          if block.number = saturatingAdd latest.number 1 then (.ok (), started.insert block)
          else (.error (.nonContiguous latest.number block.number), started)
        | none =>
          if block.number = saturatingAdd consumed 1 then (.ok (), started.insert block)
          else (.error (.nonContiguousFirst consumed block.number), started)

/-- Success of `wait_for`: the exact block is retained. -/
def observes (t : L1BlockTracker W) (block : NumHash W) : Bool :=
  decide (t.observed.find? (fun o => decide (o.number = block.number)) = some block)

end L1BlockTracker

/-! ## Node -/

structure ImportingBlock (W : Type) where
  hash : W
  headers : List (NumHash W)
  tempoImport : ZoneImport W

/-- Answer to a fork-choice update. A complaint about the payload attributes comes after the head was
updated; no other failure updates the head. -/
inductive ForkchoiceAnswer where
  | valid (payloadId : Bool)
  | invalid
  | syncing
  | invalidAttributes
  | failed
  deriving DecidableEq

namespace ForkchoiceAnswer

/-- `is_valid` of an answer that is not an error. -/
def isValid : ForkchoiceAnswer → Bool
  | .valid _ => true
  | _ => false

def updated : ForkchoiceAnswer → Bool
  | .valid _ => true
  | .invalidAttributes => true
  | _ => false

end ForkchoiceAnswer

/-- Answer to `newPayload`. -/
inductive PayloadAnswer where
  | valid
  | invalid
  | syncing
  | failed
  deriving DecidableEq

/-- Outcome of storing the witness; a node without a proof collector skips it. -/
inductive WitnessOutcome where
  | skipped
  | persisted
  | failed
  | cancelled
  deriving DecidableEq

/-- The task that writes the head. A header stands for the chain of zone blocks that ends in it. -/
inductive HeadTask (W : Type) where
  | absent
  | engine (lastHeader : List (ImportingBlock W))
  | follower

/-- How far the writer is with a block. A follower enters at `built`. -/
inductive AdvanceStage (W : Type) where
  | idle
  | selected (front : SealedL1Block W) (headers : List (NumHash W))
  | prepared (headers : List (NumHash W)) (tempoImport : ZoneImport W)
  | building (headers : List (NumHash W)) (tempoImport : ZoneImport W)
  | built (block : ImportingBlock W)
  | accepted (block : ImportingBlock W)
  | persisted (block : ImportingBlock W)
  | consumed

def AdvanceStage.running : AdvanceStage W → Bool
  | .idle | .consumed => false
  | _ => true

/-- A node: the queue with what was delivered to it, the block that the subscriber has enqueued and not
yet recorded, the tracker, the schedule, the canonical zone chain and the writer. -/
structure InputNode (K W : Type) where
  queue : DepositQueue W
  delivered : List (SealedL1Block W)
  recording : Option (NumHash W)
  tracker : L1BlockTracker W
  schedule : P2p.LeadershipScheduleState K W
  canonical : List (ImportingBlock W)
  writer : HeadTask W
  stage : AdvanceStage W

def zoneImports (zone : List (ImportingBlock W)) : List (ZoneImport W) := zone.map (·.tempoImport)

structure InputChain (W : Type) extends L1Chain W where
  base_lt : base.number + 1 < 2 ^ 64
  height_lt : ∀ b ∈ blocks, b.number + 1 < 2 ^ 64

def InputChain.checkpoint (chain : InputChain W) (zone : List (ImportingBlock W)) : NumHash W :=
  zoneCheckpoint chain.base (zoneImports zone)

namespace InputNode

/-- The head that the writer works on: `last_header` of an engine, otherwise the canonical head. -/
def head (n : InputNode K W) : List (ImportingBlock W) :=
  match n.writer with
  | .engine lastHeader => lastHeader
  | _ => n.canonical

/-! ## Requests to the execution engine -/

def forkchoiceUpdated (n : InputNode K W) (head : List (ImportingBlock W)) (answer : ForkchoiceAnswer) :
    InputNode K W :=
  if answer.updated then { n with canonical := head } else n

/-- The import of `advance`: checkpoint headers, or the work of a full block, whose preparation may
fail. -/
def prepareImport (n : InputNode K W) (front : SealedL1Block W) (headers : List (NumHash W))
    (prepares : Bool) : AdvanceStage W :=
  match headers.getLast? with
  | some final => .prepared headers (.checkpointOnly final)
  | none =>
    match n.queue.operationalWork front.header with
    | .error _ => .idle
    | .ok work => if prepares then .prepared [front.header] (.full front.header work) else .idle

def requestPayload (n : InputNode K W) (lastHeader : List (ImportingBlock W))
    (headers : List (NumHash W)) (tempoImport : ZoneImport W) (answer : ForkchoiceAnswer) :
    InputNode K W :=
  { n.forkchoiceUpdated lastHeader answer with
    stage := if answer = .valid true then .building headers tempoImport else .idle }

def resolvePayload (headers : List (NumHash W)) (tempoImport : ZoneImport W) :
    Option W → AdvanceStage W
  | none => .idle
  | some hash => .built ⟨hash, headers, tempoImport⟩

def newPayload (block : ImportingBlock W) : PayloadAnswer → AdvanceStage W
  | .valid => .accepted block
  | _ => .idle

def persistWitness (block : ImportingBlock W) : WitnessOutcome → AdvanceStage W
  | .skipped | .persisted => .persisted block
  | .failed | .cancelled => .idle

/-! ## Consumption -/

/-- Queue after the engine's block: `defer_through` or `confirm_operational`. -/
def consumeQueue (q : DepositQueue W) : ZoneImport W → Except (QueueError W) Unit × DepositQueue W
  | .checkpointOnly anchor => q.deferThrough anchor
  | .full anchor _ => q.confirmOperational anchor

/-- End of `advance` up to the last fork-choice update. -/
def consume (n : InputNode K W) (lastHeader : List (ImportingBlock W)) (block : ImportingBlock W) :
    InputNode K W :=
  match consumeQueue n.queue block.tempoImport with
  | (.error _, queue) => { n with queue := queue, stage := .idle }
  | (.ok _, queue) =>
    { n with
      queue := queue
      tracker := n.tracker.pruneThrough block.tempoImport.anchor.number
      schedule := n.schedule.recordAppliedAnchor block.tempoImport.anchor.number
      writer := .engine (lastHeader ++ [block])
      stage := .consumed }

/-- The last fork-choice update of `advance`, whose failure is only logged. -/
def finishAdvance (n : InputNode K W) (lastHeader : List (ImportingBlock W)) (answer : ForkchoiceAnswer) :
    InputNode K W :=
  { n.forkchoiceUpdated lastHeader answer with stage := .idle }

/-- End of `import_peer_block` from its fork-choice update on. -/
def finishImport (n : InputNode K W) (block : ImportingBlock W) (answer : ForkchoiceAnswer) :
    InputNode K W :=
  if answer.isValid then
    let pruned := { n with
      canonical := n.canonical ++ [block]
      tracker := n.tracker.pruneThrough block.tempoImport.anchor.number
      stage := .idle }
    match block.tempoImport.reconcile n.queue with
    | (.error _, queue) => { pruned with queue := queue }
    | (.ok _, queue) =>
      { pruned with
        queue := queue
        schedule := n.schedule.recordAppliedAnchor block.tempoImport.anchor.number }
  else { n.forkchoiceUpdated (n.canonical ++ [block]) answer with stage := .idle }

/-- What a follower imports with a decoded block: a full block has to match the queue's work. -/
def peerImport (q : DepositQueue W) (anchor : NumHash W) :
    DecodedTempoImport W → Except PrepareError (ZoneImport W)
  | .checkpointOnly _ => .ok (.checkpointOnly anchor)
  | .full _ _ _ => (q.operationalWork anchor).map (.full anchor)

/-- Checks of `import_peer_block` that concern the Tempo headers of a peer block. -/
structure Validated (K : Type) (chain : InputChain W) (queue : DepositQueue W)
    (tracker : L1BlockTracker W) (zone : List (ImportingBlock W)) (decoded : DecodedTempoImport W)
    (block : ImportingBlock W) : Prop where
  range : validateL1CheckpointRange K decoded.headers (chain.checkpoint zone) = .ok ()
  headers : block.headers = decoded.headers.map (·.toNumHash)
  anchor : ∃ last, decoded.headers.getLast? = some last ∧ tracker.observes last.toNumHash = true ∧
    peerImport queue last.toNumHash decoded = .ok block.tempoImport

/-! ## Runs -/

/-- One step of the subscriber, the role controller or the writer. The answers that the last
fork-choice update may get are a parameter. Permit, pause gate and import decision choose among the
imports in `select`. A header's hash determines the header. -/
inductive Step (chain : InputChain W) (final : ForkchoiceAnswer → Prop) (n : InputNode K W) :
    InputNode K W → Prop
  | synchronize :
      Step chain final n
        { n with
          tracker := n.tracker.initializeConsumedThrough (chain.checkpoint n.canonical).number }
  | deliver {b : SealedL1Block W} {rest : List (SealedL1Block W)} (hrecorded : n.recording = none)
      (hsynchronized : n.tracker.prunedThrough.isSome = true)
      (hnext : chain.blocks = n.delivered ++ b :: rest) :
      Step chain final n
        { n with
          queue := (n.queue.tryEnqueueSealed b).2
          delivered := n.delivered ++ [b]
          recording := some b.header }
  | record {block : NumHash W} (hrecording : n.recording = some block) :
      Step chain final n
        { n with tracker := (n.tracker.record block).2, recording := none }
  | publish (record : P2p.LeadershipState K) :
      Step chain final n { n with schedule := (n.schedule.publish record).2 }
  | startLeader (habsent : n.writer = .absent) :
      Step chain final n { n with writer := .engine n.canonical }
  | startFollower (habsent : n.writer = .absent) : Step chain final n { n with writer := .follower }
  | stop (hstage : n.stage = .idle) : Step chain final n { n with writer := .absent }
  | heartbeat {lastHeader : List (ImportingBlock W)} (answer : ForkchoiceAnswer)
      (hwriter : n.writer = .engine lastHeader) (hstage : n.stage = .idle) :
      Step chain final n (n.forkchoiceUpdated lastHeader answer)
  | select {lastHeader : List (ImportingBlock W)} {front : SealedL1Block W} (count : ℕ)
      (hwriter : n.writer = .engine lastHeader) (hstage : n.stage = .idle)
      (hfront : n.queue.pending.head? = some front) :
      Step chain final n
        { n with stage := .selected front ((n.queue.pending.take count).map (·.header)) }
  | prepare {front : SealedL1Block W} {headers : List (NumHash W)} (prepares : Bool)
      (hstage : n.stage = .selected front headers) :
      Step chain final n { n with stage := n.prepareImport front headers prepares }
  | requestPayload {lastHeader : List (ImportingBlock W)} {headers : List (NumHash W)}
      {tempoImport : ZoneImport W} (answer : ForkchoiceAnswer)
      (hwriter : n.writer = .engine lastHeader) (hstage : n.stage = .prepared headers tempoImport) :
      Step chain final n (n.requestPayload lastHeader headers tempoImport answer)
  | resolvePayload {headers : List (NumHash W)} {tempoImport : ZoneImport W} (payload : Option W)
      (hstage : n.stage = .building headers tempoImport) :
      Step chain final n { n with stage := resolvePayload headers tempoImport payload }
  | newPayload {block : ImportingBlock W} (answer : PayloadAnswer) (hstage : n.stage = .built block) :
      Step chain final n { n with stage := newPayload block answer }
  | persistWitness {block : ImportingBlock W} (outcome : WitnessOutcome)
      (hstage : n.stage = .accepted block) :
      Step chain final n { n with stage := persistWitness block outcome }
  | consume {lastHeader : List (ImportingBlock W)} {block : ImportingBlock W}
      (hwriter : n.writer = .engine lastHeader) (hstage : n.stage = .persisted block) :
      Step chain final n (n.consume lastHeader block)
  | finishAdvance {lastHeader : List (ImportingBlock W)} {answer : ForkchoiceAnswer}
      (hwriter : n.writer = .engine lastHeader) (hstage : n.stage = .consumed)
      (hfinal : final answer) :
      Step chain final n (n.finishAdvance lastHeader answer)
  | receive {decoded : DecodedTempoImport W} {block : ImportingBlock W} (hwriter : n.writer = .follower)
      (hstage : n.stage = .idle)
      (hsealed : ∀ header ∈ decoded.headers, ∀ b ∈ chain.blocks,
        header.hash = b.header.hash → header = b.sealedHeader)
      (hvalid : Validated K chain n.queue n.tracker n.canonical decoded block) :
      Step chain final n { n with stage := .built block }
  | duplicate {block : ImportingBlock W} (hwriter : n.writer = .follower) (hstage : n.stage = .idle)
      (hold : block ∈ n.canonical) :
      Step chain final n { n with queue := (block.tempoImport.reconcile n.queue).2 }
  | finishImport {block : ImportingBlock W} (answer : ForkchoiceAnswer) (hwriter : n.writer = .follower)
      (hstage : n.stage = .persisted block) (hplain : answer ≠ .invalidAttributes) :
      Step chain final n (n.finishImport block answer)

/-- A node that has just started on its canonical zone chain: its queue holds at most recovered deferred
work, and the applied anchor is seeded from the checkpoint. -/
structure Boots (chain : InputChain W) (n : InputNode K W) : Prop where
  queue : Relation.ReflTransGen (QueueNode.Step chain.toL1Chain) QueueNode.start
    ⟨n.queue, n.delivered, zoneImports n.canonical⟩
  pending : n.queue.pending = []
  headers : n.canonical.flatMap (·.headers) = n.delivered.map (·.header)
  recording : n.recording = none
  tracker : n.tracker = .new
  applied : n.schedule.appliedAnchor = some (chain.checkpoint n.canonical).number
  writer : n.writer = .absent
  stage : n.stage = .idle

def Reached (chain : InputChain W) (final : ForkchoiceAnswer → Prop) (n : InputNode K W) : Prop :=
  ∃ n₀, Boots chain n₀ ∧ Relation.ReflTransGen (Step chain final) n₀ n

end InputNode

end TempoZones
