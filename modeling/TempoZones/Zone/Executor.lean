import TempoZones.Zone.Calls

/-!
# Zone block executor

`ZoneBlockExecutor` runs the transactions of one zone block. A transaction is validated against the
phase and executed without effect (`executeTransactionWithoutCommit`); its result carries the phase
that applies once it is committed. `finish` accepts the block when it was opened and the logs of its
receipts leave no finalization outstanding.

`Executes` says what a run of the EVM may do to the zone. A system transaction is one call of the
zero address. Any other transaction calls the zone precompiles any number of times, with failed
calls rolled back, and emits logs of other contracts, which may look like those of the precompiles.
-/

namespace TempoZones

open Lib

variable {W : Type} [EvmWord W] [DecidableEq W]

def TEMPO_STATE_ADDRESS : Address := 0x1c00000000000000000000000000000000000000

/-! ## Transactions -/

inductive ZoneMethod where
  | finalizeTempo
  | advanceTempo
  | advanceTempoHeaders
  | claimRefund
  | requestWithdrawal
  | enqueueDepositBounceBack
  | consumeFallbackRecipient
  | finalizeWithdrawalBatch
  | setTempoGasRate
  | setMaxWithdrawalsPerBlock
  deriving DecidableEq

def ZoneMethod.address : ZoneMethod → Address
  | .finalizeTempo => TEMPO_STATE_ADDRESS
  | .advanceTempo | .advanceTempoHeaders | .claimRefund => ZONE_INBOX_ADDRESS
  | .requestWithdrawal | .enqueueDepositBounceBack | .consumeFallbackRecipient
  | .finalizeWithdrawalBatch | .setTempoGasRate | .setMaxWithdrawalsPerBlock => ZONE_OUTBOX_ADDRESS

def ZoneCall.method : ZoneCall W → ZoneMethod
  | .finalizeTempo _ => .finalizeTempo
  | .advanceTempo _ _ => .advanceTempo
  | .advanceTempoHeaders _ => .advanceTempoHeaders
  | .claimRefund _ _ => .claimRefund
  | .requestWithdrawal _ _ _ _ => .requestWithdrawal
  | .enqueueDepositBounceBack _ _ _ => .enqueueDepositBounceBack
  | .consumeFallbackRecipient _ => .consumeFallbackRecipient
  | .finalizeWithdrawalBatch _ _ _ => .finalizeWithdrawalBatch
  | .setTempoGasRate _ => .setTempoGasRate
  | .setMaxWithdrawalsPerBlock _ => .setMaxWithdrawalsPerBlock

/-- Selectors of the methods: four bytes that tell the methods of one precompile apart. -/
structure Selectors where
  selector : ZoneMethod → Bytes
  length_eq : ∀ m, (selector m).length = 4
  distinct : ∀ a b, a.address = b.address → selector a = selector b → a = b

/-- `TempoTxEnvelope`: a system transaction is a legacy transaction with the system signature, and a
legacy transaction makes one call. -/
inductive TempoTxEnvelope where
  | legacy (system : Bool) (target : Option Address) (input : Bytes)
  | typed (subBlockNonceKey : Bool) (calls : List (Option Address × Bytes))
  deriving DecidableEq

namespace TempoTxEnvelope

def isSystemTx : TempoTxEnvelope → Bool
  | .legacy system _ _ => system
  | .typed _ _ => false

def hasSubBlockNonceKeyPrefix : TempoTxEnvelope → Bool
  | .legacy _ _ _ => false
  | .typed subBlockNonceKey _ => subBlockNonceKey

def calls : TempoTxEnvelope → List (Option Address × Bytes)
  | .legacy _ target input => [(target, input)]
  | .typed _ calls => calls

def callsMethod (sel : Selectors) (m : ZoneMethod) (tx : TempoTxEnvelope) : Bool :=
  tx.calls.any fun call => decide (call.1 = some m.address) && (sel.selector m).isPrefixOf call.2

end TempoTxEnvelope

inductive ZoneTransactionKind where
  | advanceTempo
  | advanceTempoHeaders
  | regular
  | finalizeWithdrawalBatch
  | unexpectedSystem
  deriving DecidableEq

def ZoneTransactionKind.classify (sel : Selectors) (tx : TempoTxEnvelope) : ZoneTransactionKind :=
  if tx.isSystemTx = false then .regular
  else if tx.callsMethod sel .advanceTempo then .advanceTempo
  else if tx.callsMethod sel .advanceTempoHeaders then .advanceTempoHeaders
  else if tx.callsMethod sel .finalizeWithdrawalBatch then .finalizeWithdrawalBatch
  else .unexpectedSystem

/-! ## Phases -/

/-- `BlockExecutionError`: a validation message, or a failure of the inner executor. -/
inductive BlockExecutionError where
  | msg (text : String)
  | inner
  deriving DecidableEq

/-- `ZoneBlockPhase`, in the source's order. -/
inductive ZoneBlockPhase where
  | awaitingAdvanceTempo
  | executing
  | checkpointOnly
  | withdrawalsFinalized
  deriving DecidableEq

namespace ZoneBlockPhase

def rank : ZoneBlockPhase → ℕ
  | .awaitingAdvanceTempo => 0
  | .executing => 1
  | .checkpointOnly => 2
  | .withdrawalsFinalized => 3

def validateTransaction (sel : Selectors) (phase : ZoneBlockPhase) (tx : TempoTxEnvelope) :
    Except BlockExecutionError ZoneBlockPhase :=
  if tx.hasSubBlockNonceKeyPrefix = true then
    .error (.msg "subblock transactions are not supported in zone blocks")
  else
    match phase, ZoneTransactionKind.classify sel tx with
    | .awaitingAdvanceTempo, .advanceTempo => .ok .executing
    | .awaitingAdvanceTempo, .advanceTempoHeaders => .ok .checkpointOnly
    | .awaitingAdvanceTempo, _ =>
      .error (.msg "advanceTempo must be the first transaction in a zone block")
    | .executing, .advanceTempo =>
      .error (.msg "advanceTempo must only execute once per zone block")
    | .executing, .advanceTempoHeaders =>
      .error (.msg "advanceTempoHeaders must only open a zone block")
    | .executing, .regular => .ok .executing
    | .executing, .finalizeWithdrawalBatch => .ok .withdrawalsFinalized
    | .executing, .unexpectedSystem =>
      .error (.msg ("system transactions after advanceTempo must call " ++
        "ZoneOutbox.finalizeWithdrawalBatch"))
    | .withdrawalsFinalized, _ =>
      .error (.msg "finalizeWithdrawalBatch must be the last transaction in a zone block")
    | .checkpointOnly, _ =>
      .error (.msg "advanceTempoHeaders must be the only transaction in a zone block")

def advanceTo (phase next : ZoneBlockPhase) : ZoneBlockPhase :=
  if phase.rank < next.rank then next else phase

end ZoneBlockPhase

/-! ## Execution -/

/-- Log of a receipt: the emitting address, and the zone event that topics and data encode. -/
structure ReceiptLog (W : Type) where
  address : Address
  event : Option (ZoneEvent W)

def ZoneEvent.address : ZoneEvent W → Address
  | .tempoBlockFinalized _ _ _ => TEMPO_STATE_ADDRESS
  | .withdrawalRequested _ _ _ | .batchFinalized _ _ | .tempoGasRateUpdated _
  | .maxWithdrawalsPerBlockUpdated _ => ZONE_OUTBOX_ADDRESS
  | _ => ZONE_INBOX_ADDRESS

def ReceiptLog.ofEvent (e : ZoneEvent W) : ReceiptLog W := ⟨e.address, some e⟩

/-- Log of `WithdrawalRequested` by the outbox. -/
def ReceiptLog.isWithdrawalRequest (log : ReceiptLog W) : Bool :=
  decide (log.address = ZONE_OUTBOX_ADDRESS) &&
    match log.event with
    | some (.withdrawalRequested _ _ _) => true
    | _ => false

/-- Log of the T13 event `TempoAdvanced` by the inbox with processed deposits. -/
def ReceiptLog.isProcessedDeposit (log : ReceiptLog W) : Bool :=
  decide (log.address = ZONE_INBOX_ADDRESS) &&
    match log.event with
    | some (.tempoAdvanced _ _ depositsProcessed _ _ (some _)) => decide (depositsProcessed ≠ 0)
    | _ => false

/-- Zone state and logs after a transaction. -/
structure TxOutcome (W : Type) where
  zone : Zone W
  logs : List (ReceiptLog W)

inductive Action (W : Type) where
  | call (caller : Address) (call : ZoneCall W)
  | log (address : Address) (event : Option (ZoneEvent W))

def TxOutcome.perform (ctx : ZoneCtx W) (o : TxOutcome W) : Action W → TxOutcome W
  | .call caller call =>
    match zoneExec ctx caller o.zone call with
    | .ok z' => ⟨z', o.logs ++ (z'.logs.drop o.zone.logs.length).map .ofEvent⟩
    | .error _ => o
  | .log address event => { o with logs := o.logs ++ [⟨address, event⟩] }

/-- Successful executions of a transaction in a zone state. System transactions to other methods are
rejected before they are executed. -/
inductive Executes (sel : Selectors) (ctx : ZoneCtx W) (z : Zone W) :
    TempoTxEnvelope → TxOutcome W → Prop
  | system {target : Address} {input : Bytes} {call : ZoneCall W} {z' : Zone W}
      (dispatched : target = call.method.address)
      (selected : (sel.selector call.method).isPrefixOf input = true)
      (succeeds : zoneExec ctx 0 z call = .ok z') :
      Executes sel ctx z (.legacy true (some target) input)
        ⟨z', (z'.logs.drop z.logs.length).map .ofEvent⟩
  | reverted {tx : TempoTxEnvelope} (user : tx.isSystemTx = false) : Executes sel ctx z tx ⟨z, []⟩
  | regular {tx : TempoTxEnvelope} (user : tx.isSystemTx = false) (actions : List (Action W)) :
      Executes sel ctx z tx (actions.foldl (TxOutcome.perform ctx) ⟨z, []⟩)

structure ZoneTxResult (W : Type) where
  inner : TxOutcome W
  nextPhase : ZoneBlockPhase

/-- `ZoneBlockExecutor`: the state and the receipts of the inner executor, and the phase. -/
structure ZoneBlockExecutor (W : Type) where
  zone : Zone W
  receipts : List (List (ReceiptLog W))
  phase : ZoneBlockPhase

namespace ZoneBlockExecutor

def new (z : Zone W) : ZoneBlockExecutor W := ⟨z, [], .awaitingAdvanceTempo⟩

/-- `execute_transaction_without_commit`; `inner` is what the inner executor returns. -/
def executeTransactionWithoutCommit (sel : Selectors) (ex : ZoneBlockExecutor W)
    (tx : TempoTxEnvelope) (inner : Except BlockExecutionError (TxOutcome W)) :
    Except BlockExecutionError (ZoneTxResult W) × ZoneBlockExecutor W :=
  match ex.phase.validateTransaction sel tx with
  | .error e => (.error e, ex)
  | .ok nextPhase =>
    match inner with
    | .error e => (.error e, ex)
    | .ok outcome => (.ok ⟨outcome, nextPhase⟩, ex)

def commitTransaction (ex : ZoneBlockExecutor W) (output : ZoneTxResult W) : ZoneBlockExecutor W where
  zone := output.inner.zone
  receipts := ex.receipts ++ [output.inner.logs]
  phase := ex.phase.advanceTo output.nextPhase

/-- `finish`: the receipts of an accepted block. -/
def finish (ctx : ZoneCtx W) (ex : ZoneBlockExecutor W) :
    Except BlockExecutionError (List (List (ReceiptLog W))) := do
  require (ex.phase ≠ .awaitingAdvanceTempo)
    (.msg "zone block is missing its advanceTempo system transaction")
  let requestedWithdrawal := ex.receipts.flatten.any ReceiptLog.isWithdrawalRequest
  require (¬ (requestedWithdrawal = true ∧ ex.phase ≠ .withdrawalsFinalized))
    (.msg ("zone block with withdrawal requests is missing its " ++
      "finalizeWithdrawalBatch system transaction"))
  let processedDeposit := ctx.block.t13 && ex.receipts.flatten.any ReceiptLog.isProcessedDeposit
  require (¬ (processedDeposit = true ∧ ex.phase ≠ .withdrawalsFinalized))
    (.msg ("zone block with processed deposits is missing its " ++
      "finalizeWithdrawalBatch system transaction"))
  pure ex.receipts

end ZoneBlockExecutor

/-! ## Runs -/

/-- A committed transaction with the zone states around it. -/
structure CommittedTx (W : Type) where
  tx : TempoTxEnvelope
  before : Zone W
  after : Zone W

/-- An executor, the results that can still be committed, and the committed transactions. -/
structure ExecutorRun (W : Type) where
  executor : ZoneBlockExecutor W
  results : List (TempoTxEnvelope × ZoneTxResult W)
  committed : List (CommittedTx W)

namespace ExecutorRun

def start (z : Zone W) : ExecutorRun W := ⟨.new z, [], []⟩

/-- What the caller of an executor does. Results executed before a commit are stale after it. -/
inductive Step (sel : Selectors) (ctx : ZoneCtx W) (s : ExecutorRun W) : ExecutorRun W → Prop
  | execute {tx : TempoTxEnvelope} {inner : Except BlockExecutionError (TxOutcome W)}
      (executes : ∀ outcome, inner = .ok outcome → Executes sel ctx s.executor.zone tx outcome) :
      Step sel ctx s
        { s with
          executor := (s.executor.executeTransactionWithoutCommit sel tx inner).2
          results := s.results ++
            ((s.executor.executeTransactionWithoutCommit sel tx inner).1.toOption.map
              ((tx, ·))).toList }
  | commit {tx : TempoTxEnvelope} {result : ZoneTxResult W} (executed : (tx, result) ∈ s.results) :
      Step sel ctx s
        { executor := s.executor.commitTransaction result
          results := []
          committed := s.committed ++ [⟨tx, s.executor.zone, result.inner.zone⟩] }
  | discard {kept : List (TempoTxEnvelope × ZoneTxResult W)} (sub : kept.Sublist s.results) :
      Step sel ctx s { s with results := kept }

end ExecutorRun

end TempoZones
