import TempoZones.Node.EngineSafety

/-!
# Blocks between a leader and its followers

A leader packs an import into the first transaction of a zone block (`buildTempoImport`). A follower
decodes it, checks the block against its own chain, schedule and queue before it is executed
(`validatePeerBlock`), and moves its queue as the leader did (`importPeerBlock`). `PeerNode` may
lead and follow in turn, receive any peer block, and restart from any zone block it has persisted.
-/

namespace TempoZones

open Lib

variable {K W : Type} [DecidableEq K] [EvmWord W] [DecidableEq W]

/-! ## Zone blocks -/

structure SealedHeader (W : Type) extends NumHash W where
  parentHash : W
  deriving DecidableEq

def SealedL1Block.sealedHeader (b : SealedL1Block W) : SealedHeader W := ⟨b.header, b.parentHash⟩

deriving instance DecidableEq for QueuedDeposit

/-- `abi::QueuedDeposit` with the flag that the sequencer controls. -/
structure AbiQueuedDeposit extends QueuedDeposit where
  rejected : Bool
  deriving DecidableEq

inductive InboxCall (W : Type) where
  | advanceTempo (header : SealedHeader W) (deposits : List AbiQueuedDeposit)
      (enabledTokens : List EnabledToken)
  | advanceTempoHeaders (headers : List (SealedHeader W))
  | undecodable
  deriving DecidableEq

inductive ZoneTransaction (W : Type) where
  | legacy (system : Bool) (target : Option Address) (input : InboxCall W)
  | other
  deriving DecidableEq

structure PeerBlock (W : Type) where
  number : ℕ
  hash : W
  parentHash : W
  transactions : List (ZoneTransaction W)
  deriving DecidableEq

def PeerBlock.numHash (b : PeerBlock W) : NumHash W := ⟨b.number, b.hash⟩

inductive DecodedTempoImport (W : Type) where
  | full (header : SealedHeader W) (deposits : List AbiQueuedDeposit)
      (enabledTokens : List EnabledToken)
  | checkpointOnly (headers : List (SealedHeader W))

/-- Failures of `import_peer_block`. -/
inductive ImportError (K W : Type) where
  | noTransactions
  | notLegacy
  | notSystem
  | notInbox
  | notOnlyTransaction
  | tooManyHeaders
  | undecodable
  | missingHeader (number : ℕ)
  | conflict (number : ℕ) (existing received : W)
  | invalidBody
  | gap (best received expected : ℕ)
  | parentMismatch (number : ℕ) (expected received : W)
  | emptyImport
  | checkpointNumber (received previous expected : ℕ)
  | checkpointParent (number : ℕ) (embedded expected : W)
  | anchorHash (number : ℕ) (expected observed : W)
  | wrongSender (anchor : ℕ) (leader : K) (epoch : ℕ)
  | ungovernedAnchor (anchor : ℕ)
  | prepare (error : PrepareError)
  | shortCalldata
  | depositCount (expected received : ℕ)
  | depositMismatch (index : ℕ)
  | tokenMismatch
  | extraDeposits (received observed : ℕ)
  | extraTokens (received observed : ℕ)
  | rejectedByEngine (number : ℕ)
  | queue (error : QueueError W)

namespace DecodedTempoImport

def headers : DecodedTempoImport W → List (SealedHeader W)
  | .full header _ _ => [header]
  | .checkpointOnly headers => headers

def isFull : DecodedTempoImport W → Bool
  | .full _ _ _ => true
  | .checkpointOnly _ => false

/-- The queue after the import is canonical: `reconcile_canonical_import`, and the same at the end of
`import_peer_block`. -/
def reconcile (q : DepositQueue W) (anchor : NumHash W) :
    DecodedTempoImport W → Except (QueueError W) Unit × DepositQueue W
  | .checkpointOnly _ => q.deferThrough anchor
  | .full _ _ _ => q.confirmOperationalThrough anchor

end DecodedTempoImport

def decodeAdvanceTempo (K : Type) (block : PeerBlock W) :
    Except (ImportError K W) (DecodedTempoImport W) :=
  match block.transactions with
  | [] => .error .noTransactions
  | .other :: _ => .error .notLegacy
  | .legacy system target input :: rest => do
      require (system = true) .notSystem
      require (target = some ZONE_INBOX_ADDRESS) .notInbox
      match input with
      | .advanceTempoHeaders headers => do
          require (rest = []) .notOnlyTransaction
          require (headers.length ≤ MAX_TEMPO_HEADERS_PER_ZONE_BLOCK) .tooManyHeaders
          pure (.checkpointOnly headers)
      | .advanceTempo header deposits enabledTokens => pure (.full header deposits enabledTokens)
      | .undecodable => .error .undecodable

/-! ## Checks of a follower -/

/-- Loop of `validate_l1_checkpoint_range`. -/
def checkRange (K : Type) (previous : NumHash W) :
    List (SealedHeader W) → Except (ImportError K W) Unit
  | [] => pure ()
  | header :: rest => do
      require (header.number = saturatingAdd previous.number 1)
        (.checkpointNumber header.number previous.number
          (saturatingAdd previous.number 1))
      require (header.parentHash = previous.hash)
        (.checkpointParent header.number header.parentHash previous.hash)
      checkRange K header.toNumHash rest

def validateL1CheckpointRange (K : Type) (headers : List (SealedHeader W)) (checkpoint : NumHash W) :
    Except (ImportError K W) Unit := do
  require (headers ≠ []) .emptyImport
  checkRange K checkpoint headers

def validateLiveBlockSender (schedule : P2p.LeadershipScheduleState K W) (liveSender : Option K)
    (anchor : ℕ) : Except (ImportError K W) Unit :=
  match liveSender with
  | none => .ok ()
  | some sender =>
    match schedule.leaderFor anchor with
    | some record =>
      if record.leader = sender then .ok ()
      else .error (.wrongSender anchor record.leader record.epoch)
    | none => .error (.ungovernedAnchor anchor)

def checkDeposits (K : Type) (lib : Preparer W) (index : ℕ) :
    List (QueueEntry W) → List AbiQueuedDeposit → Except (ImportError K W) Unit
  | expected :: entries, actual :: deposits => do
      require (actual.toQueuedDeposit = lib.toAbiQueuedDeposit expected)
        (.depositMismatch index)
      checkDeposits K lib (index + 1) entries deposits
  | _, _ => pure ()

def validateAdvanceTempoInputs (K : Type) (lib : Preparer W) (events : L1PortalEvents W)
    (deposits : List AbiQueuedDeposit) (enabledTokens : List EnabledToken) :
    Except (ImportError K W) Unit := do
  require (deposits.length = events.deposits.length)
    (.depositCount events.deposits.length deposits.length)
  checkDeposits K lib 0 events.deposits deposits
  require (enabledTokens = events.enabledTokens) .tokenMismatch

/-- Loop of `validate_full_portal_inputs` at an offset in the deposits and one in the tokens, with the
checks behind the loop. -/
def checkWork (K : Type) (lib : Preparer W) (deposits : List AbiQueuedDeposit)
    (enabledTokens : List EnabledToken) (depositOffset tokenOffset : ℕ) :
    List (L1BlockDeposits W) → Except (ImportError K W) Unit
  | [] => do
      require (depositOffset = deposits.length)
        (.extraDeposits deposits.length depositOffset)
      require (tokenOffset = enabledTokens.length)
        (.extraTokens enabledTokens.length tokenOffset)
  | block :: rest => do
      let nextDeposit := depositOffset + block.events.deposits.length
      let nextToken := tokenOffset + block.events.enabledTokens.length
      require (nextDeposit ≤ deposits.length ∧ nextToken ≤ enabledTokens.length)
        .shortCalldata
      validateAdvanceTempoInputs K lib block.events
        ((deposits.drop depositOffset).take block.events.deposits.length)
        ((enabledTokens.drop tokenOffset).take block.events.enabledTokens.length)
      checkWork K lib deposits enabledTokens nextDeposit nextToken rest

def validateFullPortalInputs (K : Type) (lib : Preparer W) (queue : DepositQueue W)
    (anchor : NumHash W) (deposits : List AbiQueuedDeposit) (enabledTokens : List EnabledToken) :
    Except (ImportError K W) Unit :=
  match queue.operationalWork anchor with
  | .error e => .error (.prepare e)
  | .ok work => checkWork K lib deposits enabledTokens 0 0 work

/-! ## Nodes -/

/-- A node: the finalized chain since its last restart, its tasks since then, its canonical zone
blocks with what they imported, and whether it runs a follower generation. -/
structure PeerNode (K W : Type) where
  view : FinalizedL1 K W
  tasks : EngineNode K W
  zone : List (PeerBlock W)
  imports : List (ZoneImport W)
  following : Bool

/-- Data that all nodes of a zone share. Block heights leave room for a successor. -/
structure ZoneNetwork (K W : Type) where
  l1 : FinalizedL1 K W
  base_lt : l1.chain.base.number + 1 < 2 ^ 64
  height_lt : ∀ b ∈ l1.chain.blocks, b.number + 1 < 2 ^ 64
  genesis : NumHash W
  spec : ZoneSchedule W
  preparer : Preparer W
  recovery : P2p.RecoveryDirective K W
  manifest : Bool

/-- What a follower meets outside of its own checks: whether it is stopped while it waits, and whether
the execution engine accepts the block. -/
structure ImportEnv where
  stopped : Bool
  executes : Bool

/-- `PeerBlockImportOutcome`. -/
inductive ImportOutcome (W : Type) where
  | imported
  | cancelled
  | timedOut (blockNumber : ℕ) (anchor : NumHash W)

namespace PeerNode

def canonical (net : ZoneNetwork K W) (n : PeerNode K W) : List (NumHash W) :=
  net.genesis :: n.zone.map PeerBlock.numHash

def head (net : ZoneNetwork K W) (n : PeerNode K W) : NumHash W :=
  (n.zone.map PeerBlock.numHash).getLast?.getD net.genesis

def checkpoint (net : ZoneNetwork K W) (n : PeerNode K W) : NumHash W :=
  zoneCheckpoint net.l1.chain.base n.imports

/-! ## Production -/

def systemTransaction (call : InboxCall W) : ZoneTransaction W :=
  .legacy true (some ZONE_INBOX_ADDRESS) call

/-- The import of `advance` and the work it releases. The engine's phase names a header by number
and hash; the headers are those at the front of the queue. -/
def buildTempoImport (net : ZoneNetwork K W) (n : PeerNode K W) (front : SealedL1Block W)
    (headers : List (NumHash W)) : Except PrepareError (InboxCall W × ZoneImport W) :=
  match headers.getLast? with
  | some final =>
    if headers.length ≤ MAX_TEMPO_HEADERS_PER_ZONE_BLOCK then
      .ok (.advanceTempoHeaders
        ((n.tasks.queue.pending.take headers.length).map SealedL1Block.sealedHeader),
        .checkpointOnly final)
    else .error .emptyRange
  | none => do
      let work ← n.tasks.queue.operationalWork front.header
      let prepared ← net.preparer.prepareMany work
      pure (.advanceTempo front.sealedHeader (prepared.queuedDeposits.map (⟨·, false⟩))
        prepared.enabledTokens, .full front.header work)

/-- A block on the canonical head of a node that opens with an import; a checkpoint-only import is
its only transaction. -/
structure Builds (net : ZoneNetwork K W) (n : PeerNode K W) (call : InboxCall W)
    (block : PeerBlock W) : Prop where
  number : block.number = (n.head net).number + 1
  number_lt : block.number < 2 ^ 64
  parent : block.parentHash = (n.head net).hash
  opening : ∃ rest, block.transactions = systemTransaction call :: rest ∧
    ∀ headers, call = .advanceTempoHeaders headers → rest = []

/-- State after `advance` for a block that was built. -/
def produced (n : PeerNode K W) (front : SealedL1Block W) (headers : List (NumHash W))
    (block : PeerBlock W) (released : ZoneImport W) : PeerNode K W :=
  { n with
    tasks := n.tasks.advance front headers
    zone := n.zone ++ [block]
    imports := n.imports ++ [released] }

/-! ## Import -/

/-- `wait_for_peer_anchor`: the observation of the anchor, if the subscriber has delivered it. -/
def waitForPeerAnchor (n : PeerNode K W) (env : ImportEnv) (block : PeerBlock W)
    (anchor : NumHash W) : Except (ImportError K W) (Option (ImportOutcome W)) :=
  if env.stopped then .ok (some .cancelled)
  else
    match n.tasks.delivered.find? fun b => decide (b.number = anchor.number) with
    | none => .ok (some (.timedOut block.number anchor))
    | some observed =>
      if observed.header.hash = anchor.hash then .ok none
      else .error (.anchorHash anchor.number anchor.hash observed.header.hash)

def validatePortalInputs (net : ZoneNetwork K W) (n : PeerNode K W) (anchor : NumHash W) :
    DecodedTempoImport W → Except (ImportError K W) Unit
  | .full _ deposits enabledTokens =>
    validateFullPortalInputs K net.preparer n.tasks.queue anchor deposits enabledTokens
  | .checkpointOnly _ => .ok ()

/-- The checks of `import_peer_block` on a block above the canonical head, up to its execution: an
outcome that ends the import early, or the anchor of the block. -/
def validatePeerBlock (net : ZoneNetwork K W) (n : PeerNode K W) (env : ImportEnv)
    (liveSender : Option K) (block : PeerBlock W) (decoded : DecodedTempoImport W) :
    Except (ImportError K W) (ImportOutcome W ⊕ NumHash W) := do
  require (block.parentHash = (n.head net).hash)
    (.parentMismatch block.number (n.head net).hash block.parentHash)
  validateL1CheckpointRange K decoded.headers (n.checkpoint net)
  match decoded.headers.head?, decoded.headers.getLast? with
  | some first, some last => do
      let waited ← n.waitForPeerAnchor env block last.toNumHash
      match waited with
      | some outcome => pure (.inl outcome)
      | none => do
          validateLiveBlockSender n.tasks.leadership.schedule liveSender first.number
          n.validatePortalInputs net last.toNumHash decoded
          pure (.inr last.toNumHash)
  | _, _ => .error .emptyImport

def importOf (n : PeerNode K W) (anchor : NumHash W) : DecodedTempoImport W → ZoneImport W
  | .checkpointOnly _ => .checkpointOnly anchor
  | .full _ _ _ => .full anchor ((n.tasks.queue.operationalWork anchor).toOption.getD [])

/-- State after the block has become canonical: the queue follows, and `record_applied_anchor` unless
the queue refused. -/
def imported (n : PeerNode K W) (block : PeerBlock W) (decoded : DecodedTempoImport W)
    (anchor : NumHash W) : Except (ImportError K W) (ImportOutcome W) × PeerNode K W :=
  let zone := n.zone ++ [block]
  let imports := n.imports ++ [n.importOf anchor decoded]
  match decoded.reconcile n.tasks.queue anchor with
  | (.error e, queue) =>
    (.error (.queue e),
      { n with tasks := { n.tasks with queue := queue }, zone := zone, imports := imports })
  | (.ok _, queue) =>
    (.ok .imported,
      { n with
        tasks := { n.tasks with
          queue := queue
          leadership := { n.tasks.leadership with
            schedule := n.tasks.leadership.schedule.recordAppliedAnchor anchor.number } }
        zone := zone
        imports := imports })

/-- A block at or below the canonical head. Header hash and transaction root determine a block, so the
comparison with the canonical block stands for both checks. -/
def importDuplicate (net : ZoneNetwork K W) (n : PeerNode K W) (block : PeerBlock W)
    (decoded : DecodedTempoImport W) :
    Except (ImportError K W) (ImportOutcome W) × PeerNode K W :=
  match (n.canonical net).find? fun b => decide (b.number = block.number) with
  | none => (.error (.missingHeader block.number), n)
  | some existing =>
    if existing.hash ≠ block.hash then
      (.error (.conflict block.number existing.hash block.hash), n)
    else if block ∉ n.zone then (.error .invalidBody, n)
    else
      match decoded.headers.getLast? with
      | none => (.error .emptyImport, n)
      | some last =>
        match decoded.reconcile n.tasks.queue last.toNumHash with
        | (.error e, queue) =>
          (.error (.queue e), { n with tasks := { n.tasks with queue := queue } })
        | (.ok _, queue) => (.ok .imported, { n with tasks := { n.tasks with queue := queue } })

def importPeerBlock (net : ZoneNetwork K W) (n : PeerNode K W) (env : ImportEnv)
    (liveSender : Option K) (block : PeerBlock W) :
    Except (ImportError K W) (ImportOutcome W) × PeerNode K W :=
  match decodeAdvanceTempo K block with
  | .error e => (.error e, n)
  | .ok decoded =>
    if block.number ≤ (n.head net).number then n.importDuplicate net block decoded
    else if block.number ≠ saturatingAdd (n.head net).number 1 then
      (.error (.gap (n.head net).number block.number (saturatingAdd (n.head net).number 1)), n)
    else
      match n.validatePeerBlock net env liveSender block decoded with
      | .error e => (.error e, n)
      | .ok (.inl outcome) => (.ok outcome, n)
      | .ok (.inr anchor) =>
        if env.executes then n.imported block decoded anchor
        else (.error (.rejectedByEngine block.number), n)

/-! ## Runs -/

structure Rebased (l1 view : FinalizedL1 K W) (checkpoint : NumHash W) : Prop where
  leaders : view.leaders = l1.leaders
  base : view.chain.base = checkpoint
  blocks : ∃ skipped, l1.chain.blocks = skipped ++ view.chain.blocks ∧
    lastOf l1.chain.base skipped = checkpoint

/-- `install_manifest_forced_recovery` at a start: without a directive nothing is installed, and a
directive is skipped only when the portal has completed it. -/
def Provisioned (net : ZoneNetwork K W) (l : P2p.Node K W) : Prop :=
  if net.manifest then
    l.installed = true ∨ ∃ seed ∈ l.observed.head?, net.recovery.epoch ≤ seed.epoch
  else l.installed = false

structure Starts (net : ZoneNetwork K W) (zone : List (PeerBlock W)) (imports : List (ZoneImport W))
    (n : PeerNode K W) : Prop where
  view : Rebased net.l1 n.view (zoneCheckpoint net.l1.chain.base imports)
  start : EngineNode.Start n.view net.recovery n.tasks
  provisioned : Provisioned net n.tasks.leadership
  queue : n.tasks.queue = (QueueNode.recovered net.l1.chain imports).2
  zone : n.zone = zone
  imports : n.imports = imports
  following : n.following = false

/-- What happens to a node. A follower generation is started by `desired_role`; the engine does not
run during it. -/
inductive Step (net : ZoneNetwork K W) (me : K) (n : PeerNode K W) : PeerNode K W → Prop
  | task {tasks : EngineNode K W} (hstep : EngineNode.Step n.view net.spec me n.tasks tasks)
      (himports : tasks.imports = n.tasks.imports)
      (hengine : n.following = true → tasks.engine = n.tasks.engine) :
      Step net me n { n with tasks := tasks }
  | produce {front : SealedL1Block W} {headers : List (NumHash W)} {call : InboxCall W}
      {released : ZoneImport W} {block : PeerBlock W}
      (hphase : n.tasks.engine = .cleared front headers)
      (himport : n.buildTempoImport net front headers = .ok (call, released))
      (hbuilt : n.Builds net call block) :
      Step net me n (n.produced front headers block released)
  | follow {reason : EngineExit} {record : P2p.LeadershipState K}
      (hphase : n.tasks.engine = .exited reason)
      (hleader : n.tasks.leadership.schedule.leaderFor ((n.checkpoint net).number + 1) =
        some record)
      (hother : record.leader ≠ me) :
      Step net me n { n with following := true }
  | unfollow : Step net me n { n with following := false }
  | receive (env : ImportEnv) (liveSender : Option K) (block : PeerBlock W)
      (hfollowing : n.following = true) :
      Step net me n (n.importPeerBlock net env liveSender block).2
  | restart {kept lost : List (ZoneImport W)} {n' : PeerNode K W}
      (hkept : n.imports = kept ++ lost)
      (hstart : Starts net (n.zone.take kept.length) kept n') :
      Step net me n n'

def Reached (net : ZoneNetwork K W) (me : K) (n : PeerNode K W) : Prop :=
  ∃ n₀, Starts net [] [] n₀ ∧ Relation.ReflTransGen (Step net me) n₀ n

end PeerNode

end TempoZones
