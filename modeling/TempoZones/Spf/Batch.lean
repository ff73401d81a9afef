import TempoZones.Primitives.ChainId
import TempoZones.Spf.BlockInputs

/-!
# The batch proof

`prove_zone_batch` replays the blocks of a batch on the state committed by the parent header and
returns the transitions that the portal settles. The configuration is the verifier's; everything
else comes from the prover and is checked. `Machine` stands for the code around it: state tries, EVM
and RLP decoding. What execution contributes to an assembled header beyond the fields checked is
`ZoneHeader.rest`.
-/

namespace TempoZones.Spf

open Lib

variable {W : Type} [EvmWord W] [DecidableEq W]

/-! ## Chain ID -/

/-- `zone_chain_id` of the public inputs. -/
def zoneChainId (parentChainId zoneId : ℕ) : Except ChainId.ZoneChainIdError ℕ :=
  (ChainId.zoneChainId (.ofNat parentChainId) (.ofNat zoneId)).map UInt64.toNat

/-! ## Witness and output -/

/-- Zone header: the fields of a Tempo header that the batch proof reads, and an encoding of the others
(beneficiary, gas limit, base fee, the roots of transactions and receipts, the logs bloom). -/
structure ZoneHeader (W : Type) extends TempoHeader W where
  rest : List (Chunk W)

def ZoneHeader.hashSlow (h : ZoneHeader W) : W :=
  keccak256 (.word h.parentHash :: .word (EvmWord.ofNat h.number) :: .word h.stateRoot ::
    .word (EvmWord.ofNat h.timestamp) :: .word (EvmWord.ofNat h.timestampMillisPart) :: h.rest)

/-- `SpfConfig`: chain ID, genesis header and hardfork schedule of the zone's chain specification. -/
structure SpfConfig (W : Type) where
  chainId : ℕ
  genesisHeader : ZoneHeader W
  isT13 : (timestamp : ℕ) → Bool

structure PublicInputs (W : Type) where
  parentChainId : ℕ
  zoneId : ℕ
  tempoBlockNumber : ℕ
  anchorBlockNumber : ℕ
  anchorBlockHash : W
  expectedWithdrawalBatchIndex : ℕ

/-- `ZoneBlock` of the witness with its header fields. -/
structure WitnessBlock (W : Type) extends ZoneBlock W where
  number : ℕ
  parentHash : W
  timestamp : ℕ
  timestampMillisPart : ℕ
  beneficiary : Address

structure BatchOutput (W : Type) where
  nextZoneHeight : ℕ
  blockTransition : BlockTransition W
  depositQueueTransition : DepositQueueTransition W
  tokenEnablementTransition : TokenEnablementTransition
  withdrawalQueueHash : W
  withdrawalBatchIndex : ℕ
  deriving DecidableEq

inductive ZoneSlot where
  | processedDepositQueueHash
  | processedDepositNumber
  | processedEnabledTokenCount
  | withdrawalQueueHash
  | withdrawalBatchIndex
  | tempoBlockHash
  | tempoBlockNumber
  deriving DecidableEq

/-- `TempoWitnessDatabase`: a Tempo state trie and its checkpoint. -/
structure TempoWitnessDatabase (T W : Type) where
  state : T
  tempoBlockHash : W
  tempoBlockNumber : ℕ

/-- Code around the batch proof. Block execution takes the reader of Tempo state, the parent header and
the block, and turns a zone state into the next one, its state root and the remaining header fields. -/
structure Machine (W : Type) where
  ZoneStateWitness : Type
  TempoNodePool : Type
  ZoneState : Type
  TempoTrie : Type
  Failure : Type
  decodeHeader : Bytes → Option (TempoHeader W)
  fromZoneStateWitness : ZoneStateWitness → (stateRoot : W) → Except Failure ZoneState
  tempoTrie : TempoNodePool → (stateRoot : W) → Except Failure TempoTrie
  readZoneStorage : ZoneState → ZoneSlot → Except Failure W
  executeZoneBlock : SpfConfig W → TempoWitnessDatabase TempoTrie W → ZoneHeader W →
    WitnessBlock W → ZoneState → Except Failure (ZoneState × W × List (Chunk W))

structure BatchWitness (m : Machine W) where
  publicInputs : PublicInputs W
  parentHeader : ZoneHeader W
  zoneBlocks : List (WitnessBlock W)
  zoneStateWitness : m.ZoneStateWitness
  initialTempoHeaderRlp : Bytes
  tempoNodePool : m.TempoNodePool
  tempoAncestryHeaders : List Bytes

/-- Errors of the batch proof. `outside` is an error of the code around it, and `aborted` a failed
conversion or expectation. -/
inductive BatchError (F W : Type) where
  | zoneChainId (error : ChainId.ZoneChainIdError)
  | inputs (error : Error)
  | outside (failure : F)
  | aborted
  | emptyZoneBatch
  | chainIdMismatch (expected actual : ℕ)
  | invalidTempoHeader
  | initialTempoCheckpointMismatch (expectedNumber : ℕ) (expectedHash : W) (actualNumber : ℕ)
      (actualHash : W)
  | blockParentHashMismatch (blockIndex blockNumber : ℕ) (expected actual : W)
  | blockNumberMismatch (expected actual : ℕ)
  | blockNumberOverflow
  | invalidTimestampMillisPart (blockIndex actual : ℕ)
  | blockTimestampOverflow (blockIndex : ℕ)
  | parentTimestampOverflow (blockIndex : ℕ)
  | blockTimestampRegression (previous actual : ℕ)
  | finalTempoBlockNumberMismatch (expected actual : ℕ)
  | anchorBlockNumberBeforeTempo (tempoBlockNumber anchorBlockNumber : ℕ)
  | unexpectedTempoAncestryHeaders
  | tempoAncestryLengthMismatch (expected actual : ℕ)
  | tempoAncestryHeaderDecoding (index : ℕ)
  | tempoAncestryHeaderNumberMismatch (index expected actual : ℕ)
  | tempoAncestryBlockNumberOverflow
  | tempoAncestryParentHashMismatch (index : ℕ) (expected actual : W)
  | tempoAnchorHashMismatch (expected actual : W)
  | withdrawalBatchIndexMismatch (expected actual : ℕ)

def liftError {ε F α : Type} (embed : ε → BatchError F W) : Except ε α → Except (BatchError F W) α
  | .ok a => .ok a
  | .error e => .error (embed e)

@[simp] theorem liftError_eq_ok {ε F α : Type} {embed : ε → BatchError F W} {x : Except ε α} {a : α} :
    liftError embed x = .ok a ↔ x = .ok a := by
  cases x <;> simp [liftError]

/-! ## Checks -/

section Checks

variable {F : Type}

def checkedMillis (timestamp millisPart : ℕ) (overflow : BatchError F W) :
    Except (BatchError F W) ℕ := do
  require (timestamp * 1000 < 2 ^ 64) overflow
  require (timestamp * 1000 + millisPart < 2 ^ 64) overflow
  pure (timestamp * 1000 + millisPart)

def validateZoneBlockTimestamp (block : WitnessBlock W) (blockIndex : ℕ) (parent : ZoneHeader W) :
    Except (BatchError F W) Unit := do
  require (¬ block.timestampMillisPart ≥ 1000)
    (.invalidTimestampMillisPart blockIndex block.timestampMillisPart)
  let actual ← checkedMillis block.timestamp block.timestampMillisPart
    (.blockTimestampOverflow blockIndex)
  let previous ← checkedMillis parent.timestamp parent.timestampMillisPart
    (.parentTimestampOverflow blockIndex)
  require (¬ actual < previous) (.blockTimestampRegression previous actual)

/-- Loop of `validate_tempo_anchor` over the ancestry headers: the last hash. -/
def checkAncestry (decodeHeader : Bytes → Option (TempoHeader W)) :
    (index previousNumber : ℕ) → (previousHash : W) → List Bytes → Except (BatchError F W) W
  | _, _, hash, [] => pure hash
  | index, number, hash, rlp :: rest => do
      let header ← (decodeHeader rlp).elim (.error (.tempoAncestryHeaderDecoding index)) pure
      require (number + 1 < 2 ^ 64) .tempoAncestryBlockNumberOverflow
      require (header.number = number + 1)
        (.tempoAncestryHeaderNumberMismatch index (number + 1) header.number)
      require (header.parentHash = hash)
        (.tempoAncestryParentHashMismatch index hash header.parentHash)
      checkAncestry decodeHeader (index + 1) header.number (keccak256 [.raw rlp]) rest

def validateTempoAnchor (decodeHeader : Bytes → Option (TempoHeader W)) (tempoBlockNumber : ℕ)
    (tempoBlockHash : W) (inputs : PublicInputs W) (ancestryHeaders : List Bytes) :
    Except (BatchError F W) Unit := do
  require (¬ inputs.anchorBlockNumber < tempoBlockNumber)
    (.anchorBlockNumberBeforeTempo tempoBlockNumber inputs.anchorBlockNumber)
  if inputs.anchorBlockNumber = tempoBlockNumber then do
    require (ancestryHeaders.isEmpty = true) .unexpectedTempoAncestryHeaders
    require (tempoBlockHash = inputs.anchorBlockHash)
      (.tempoAnchorHashMismatch inputs.anchorBlockHash tempoBlockHash)
  else do
    require (ancestryHeaders.length = inputs.anchorBlockNumber - tempoBlockNumber)
      (.tempoAncestryLengthMismatch (inputs.anchorBlockNumber - tempoBlockNumber)
        ancestryHeaders.length)
    let hash ← checkAncestry decodeHeader 0 tempoBlockNumber tempoBlockHash ancestryHeaders
    require (hash = inputs.anchorBlockHash)
      (.tempoAnchorHashMismatch inputs.anchorBlockHash hash)

end Checks

/-! ## Replay -/

namespace Machine

variable (m : Machine W)

/-- A result, or an error of the batch proof around `m`. -/
abbrev Result (α : Type) := Except (BatchError m.Failure W) α

/-- `read_zone_storage`. -/
def readHash (s : m.ZoneState) (slot : ZoneSlot) : m.Result W :=
  liftError .outside (m.readZoneStorage s slot)

/-- `read_zone_storage(..)?.to::<u64>()`. -/
def readU64 (s : m.ZoneState) (slot : ZoneSlot) : m.Result ℕ := do
  let value ← m.readHash s slot
  require (EvmWord.toNat value < 2 ^ 64) .aborted
  pure (EvmWord.toNat value)

def checkpointState (pool : m.TempoNodePool) (headerRlp : Bytes) :
    m.Result (TempoWitnessDatabase m.TempoTrie W) := do
  let header ← (m.decodeHeader headerRlp).elim (.error .invalidTempoHeader) pure
  let state ← liftError .outside (m.tempoTrie pool header.stateRoot)
  pure ⟨state, keccak256 [.raw headerRlp], header.number⟩

/-- Header of an executed block. The environment of the block takes its number from the parent. -/
def assembleBlock (parent : ZoneHeader W) (block : WitnessBlock W) (stateRoot : W)
    (rest : List (Chunk W)) : ZoneHeader W where
  parentHash := block.parentHash
  number := parent.number + 1
  stateRoot := stateRoot
  timestamp := block.timestamp
  timestampMillisPart := block.timestampMillisPart
  rest := rest

def replayBlock (config : SpfConfig W) (pool : m.TempoNodePool) (blockIndex : ℕ) (isLast : Bool)
    (block : WitnessBlock W) (previous : ZoneHeader W) (s : m.ZoneState) :
    m.Result (ZoneHeader W × m.ZoneState) := do
  require (block.parentHash = previous.hashSlow) (.blockParentHashMismatch blockIndex
    block.number previous.hashSlow block.parentHash)
  require (previous.number + 1 < 2 ^ 64) .blockNumberOverflow
  require (block.number = previous.number + 1)
    (.blockNumberMismatch (previous.number + 1) block.number)
  validateZoneBlockTimestamp block blockIndex previous
  liftError .inputs (block.toZoneBlock.validateSystemInputs blockIndex)
  liftError .inputs (block.toZoneBlock.validateBatchBlockShape isLast)
  let headerRlp ← block.tempoImport.headersRlp.getLast?.elim (.error .aborted) pure
  let tempo ← m.checkpointState pool headerRlp
  let (s, stateRoot, rest) ← liftError .outside (m.executeZoneBlock config tempo previous block s)
  pure (assembleBlock previous block stateRoot rest, s)

def replayBlocks (config : SpfConfig W) (pool : m.TempoNodePool) :
    (blockIndex : ℕ) → List (WitnessBlock W) → ZoneHeader W → m.ZoneState →
      m.Result (ZoneHeader W × m.ZoneState)
  | _, [], previous, s => pure (previous, s)
  | blockIndex, block :: blocks, previous, s => do
      let (header, s) ← m.replayBlock config pool blockIndex blocks.isEmpty block previous s
      replayBlocks config pool (blockIndex + 1) blocks header s

/-- Withdrawal queue hash and batch index of the batch. The index occupies the low 64 bits of its
slot. -/
def readWithdrawals (witness : BatchWitness m) (s : m.ZoneState) : m.Result (W × ℕ) :=
  if witness.zoneBlocks.any (fun block => block.finalizeWithdrawalBatchCount.isSome) = true then do
    let hash ← m.readHash s .withdrawalQueueHash
    let index ← m.readHash s .withdrawalBatchIndex
    pure (hash, uint64 (EvmWord.toNat index))
  else pure (0, witness.publicInputs.expectedWithdrawalBatchIndex)

/-- Chain ID check of `prove_zone_batch`. -/
def checkChainId (config : SpfConfig W) (inputs : PublicInputs W) : m.Result Unit := do
  let expected ← liftError .zoneChainId (zoneChainId inputs.parentChainId inputs.zoneId)
  require (config.chainId = expected) (.chainIdMismatch config.chainId expected)

/-- Check that the witnessed Tempo header is the checkpoint of the parent state. -/
def checkInitialTempo (witness : BatchWitness m) (s : m.ZoneState) : m.Result Unit := do
  let tempo ← m.checkpointState witness.tempoNodePool witness.initialTempoHeaderRlp
  let hash ← m.readHash s .tempoBlockHash
  let number ← m.readU64 s .tempoBlockNumber
  require (number = tempo.tempoBlockNumber ∧ hash = tempo.tempoBlockHash)
    (.initialTempoCheckpointMismatch number hash tempo.tempoBlockNumber
      tempo.tempoBlockHash)

def proveZoneBatch (config : SpfConfig W) (witness : BatchWitness m) : m.Result (BatchOutput W) := do
  let first ← witness.zoneBlocks.head?.elim (.error .emptyZoneBatch) pure
  m.checkChainId config witness.publicInputs
  let s ← liftError .outside
    (m.fromZoneStateWitness witness.zoneStateWitness witness.parentHeader.stateRoot)
  let previousProcessedHash ← m.readHash s .processedDepositQueueHash
  let previousProcessedNumber ← m.readU64 s .processedDepositNumber
  let previousProcessedTokenCount ← m.readU64 s .processedEnabledTokenCount
  m.checkInitialTempo witness s
  -- the portal represents the parent of the first batch by the zero hash
  let outputParentHash := if first.number = 1 then 0 else witness.parentHeader.hashSlow
  let (last, s) ← m.replayBlocks config witness.tempoNodePool 0 witness.zoneBlocks
    witness.parentHeader s
  let nextProcessedHash ← m.readHash s .processedDepositQueueHash
  let nextProcessedNumber ← m.readU64 s .processedDepositNumber
  let nextProcessedTokenCount ← m.readU64 s .processedEnabledTokenCount
  let (withdrawalQueueHash, withdrawalBatchIndex) ← m.readWithdrawals witness s
  let finalTempoHash ← m.readHash s .tempoBlockHash
  let finalTempoNumber ← m.readU64 s .tempoBlockNumber
  require (finalTempoNumber = witness.publicInputs.tempoBlockNumber)
    (.finalTempoBlockNumberMismatch witness.publicInputs.tempoBlockNumber finalTempoNumber)
  validateTempoAnchor m.decodeHeader finalTempoNumber finalTempoHash witness.publicInputs
    witness.tempoAncestryHeaders
  require (withdrawalBatchIndex = witness.publicInputs.expectedWithdrawalBatchIndex)
    (.withdrawalBatchIndexMismatch witness.publicInputs.expectedWithdrawalBatchIndex
      withdrawalBatchIndex)
  pure
    { nextZoneHeight := last.number
      blockTransition := ⟨outputParentHash, last.hashSlow⟩
      depositQueueTransition := ⟨previousProcessedHash, nextProcessedHash, previousProcessedNumber,
        nextProcessedNumber⟩
      tokenEnablementTransition := ⟨previousProcessedTokenCount, nextProcessedTokenCount⟩
      withdrawalQueueHash := withdrawalQueueHash
      withdrawalBatchIndex := withdrawalBatchIndex }

end Machine

end TempoZones.Spf
