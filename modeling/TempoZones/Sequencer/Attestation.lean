import TempoZones.Lib.SortedMap
import TempoZones.Portal.Settlement
import TempoZones.Zone.Executor

/-!
# Settlement attestations of leader and follower

The leader derives a batch from its cursor and the events of the finalizing block
(`processFinalizedBatch`) and an attestation from it (`settlementAttestation`). A follower
recomputes the attestation from its own chain (`buildSettlementAttestation`) and signs a proposal
that equals it. The portal hashes the arguments of `submitBatch` and its storage. The portal before
T13 is not part of the repository and a parameter (`LegacyPortal`).
-/

namespace TempoZones.Settle

open Lib

variable {W : Type} [EvmWord W] [DecidableEq W]

/-! ## The zone chain as a provider shows it -/

/-- A zone block as the settlement reads it: its hash, and the logs of each receipt. -/
structure ZoneBlock (W : Type) where
  hash : W
  receipts : List (List (ReceiptLog W))

/-- Canonical blocks from block 1 on. -/
structure ZoneProvider (W : Type) where
  blocks : List (ZoneBlock W)

def ZoneProvider.block? (p : ZoneProvider W) (number : ℕ) : Option (ZoneBlock W) :=
  if number = 0 then none else p.blocks[number - 1]?

/-- What a `TempoAdvanced` event reports; the legacy event has no token count, which reads as
zero. -/
structure TempoAdvanced (W : Type) where
  tempoBlockHash : W
  tempoBlockNumber : ℕ
  processedDepositHash : W
  processedDepositNumber : ℕ
  processedTokenCount : ℕ
  deriving DecidableEq

def tempoAdvanced? (log : ReceiptLog W) : Option (TempoAdvanced W) :=
  if log.address = ZONE_INBOX_ADDRESS then
    match log.event with
    | some (.tempoAdvanced hash number _ depositHash depositNumber tokenCount) =>
      some ⟨hash, number, depositHash, depositNumber, tokenCount.getD 0⟩
    | _ => none
  else none

/-- Decode a log of the outbox: withdrawal queue hash and withdrawal batch index. -/
def batchFinalized? (log : ReceiptLog W) : Option (W × ℕ) :=
  if log.address = ZONE_OUTBOX_ADDRESS then
    match log.event with
    | some (.batchFinalized hash index) => some (hash, index)
    | _ => none
  else none

/-- Refusals of the leader and of the followers, and of their reads. -/
inductive SettleError where
  | missingReceipts (number : ℕ)
  | missingTempoAdvanced (number : ℕ)
  | repeatedTempoAdvanced (number : ℕ)
  | repeatedBatchFinalized (number : ℕ)
  | batchIndex (index previous : ℕ)
  | batchIndexOverflow
  | signerSetVersion
  | anchorPredatesTempoBlock
  | anchorAheadOfTip
  | anchorOutsideWindow
  | anchorMissing
  | anchorNotCanonical
  | tempoBlockNotCanonical
  | inconsistentCheckpoint
  | unknownPortalBlock
  | heightTooLarge
  | notDurable
  | unknownVerifierConfigHash
  | notABatchBoundary
  | proposalMismatch
  | zeroThreshold
  | portalAdvanced
  | quorumPending
  | malformed
  deriving DecidableEq

/-! ## The statement -/

/-- The verifier configurations that an attestation can name. -/
inductive VerifierMode where
  | nitroV1
  | noProof
  deriving DecidableEq

def VerifierMode.config : VerifierMode → Bytes
  | .nitroV1 => [1]
  | .noProof => [2]

def VerifierMode.configHash (mode : VerifierMode) : W := keccak256 [.raw mode.config]

def VerifierMode.ofHash (hash : W) : Except SettleError VerifierMode :=
  if hash = VerifierMode.configHash .nitroV1 then .ok .nitroV1
  else if hash = VerifierMode.configHash .noProof then .ok .noProof
  else .error .unknownVerifierConfigHash

inductive SettlementAbi where
  | legacy
  | t13
  deriving DecidableEq

def SettlementAbi.tokenTransitionHash (abi : SettlementAbi) (previous next : ℕ) : W :=
  match abi with
  | .legacy => 0
  | .t13 => keccak256 (TokenEnablementTransition.codec.encode ⟨previous, next⟩)

/-- Exact settlement statement verified by the portal. -/
structure SettlementAttestation (W : Type) where
  zoneId : ℕ
  sequencerSetVersion : ℕ
  zoneHeight : ℕ
  withdrawalBatchIndex : ℕ
  verifier : Address
  tempoBlockNumber : ℕ
  anchorBlockNumber : ℕ
  anchorBlockHash : W
  blockTransitionHash : W
  depositQueueTransitionHash : W
  tokenEnablementTransitionHash : W
  withdrawalQueueHash : W
  verifierConfigHash : W
  deriving DecidableEq

/-- Legacy attestations use a zero sentinel for the field absent from their wire format. -/
def SettlementAttestation.isLegacy (a : SettlementAttestation W) : Bool :=
  decide (a.tokenEnablementTransitionHash = 0)

def LEGACY_SETTLEMENT_ATTESTATION_TYPEHASH : W := keccak256 [.raw (utf8
  "SettlementAttestation(uint32 zoneId,uint64 sequencerSetVersion,uint256 zoneHeight,uint256 withdrawalBatchIndex,address verifier,uint64 tempoBlockNumber,uint64 anchorBlockNumber,bytes32 anchorBlockHash,bytes32 blockTransitionHash,bytes32 depositQueueTransitionHash,bytes32 withdrawalQueueHash,bytes32 verifierConfigHash)")]

def legacyCodec : Codec W (W × ℕ × ℕ × ℕ × ℕ × Address × ℕ × ℕ × W × W × W × W × W × Unit) :=
  Codec.tuple (.bytes32 (.uint (.uint (.uint (.uint (.address (.uint (.uint
    (.bytes32 (.bytes32 (.bytes32 (.bytes32 (.bytes32 .nil)))))))))))))

def SettlementAttestation.structHash (a : SettlementAttestation W) : W :=
  if a.isLegacy then
    keccak256 (legacyCodec.encode (LEGACY_SETTLEMENT_ATTESTATION_TYPEHASH, a.zoneId,
      a.sequencerSetVersion, a.zoneHeight, a.withdrawalBatchIndex, a.verifier, a.tempoBlockNumber,
      a.anchorBlockNumber, a.anchorBlockHash, a.blockTransitionHash, a.depositQueueTransitionHash,
      a.withdrawalQueueHash, a.verifierConfigHash, ()))
  else
    keccak256 (TempoZones.SettlementAttestation.codec.encode (SETTLEMENT_ATTESTATION_TYPEHASH,
      a.zoneId, a.sequencerSetVersion, a.zoneHeight, a.withdrawalBatchIndex, a.verifier,
      a.tempoBlockNumber, a.anchorBlockNumber, a.anchorBlockHash, a.blockTransitionHash,
      a.depositQueueTransitionHash, a.tokenEnablementTransitionHash, a.withdrawalQueueHash,
      a.verifierConfigHash, ()))

structure AttestationDomain where
  l1ChainId : ℕ
  portalAddress : Address
  zoneId : ℕ

def AttestationDomain.separator (d : AttestationDomain) : W :=
  keccak256 (domainCodec.encode (EIP712_DOMAIN_TYPEHASH, NAME_HASH, VERSION_HASH, d.l1ChainId,
    d.portalAddress, ()))

def AttestationDomain.settlementDigest (d : AttestationDomain) (a : SettlementAttestation W) : W :=
  keccak256 [.raw [0x19, 0x01], .word d.separator, .word a.structHash]

/-! ## The leader's batch -/

/-- Commitments at the tail of the prepared batch chain. -/
structure BatchCursor (W : Type) where
  zoneHeight : ℕ
  blockHash : W
  processedDepositHash : W
  processedDepositNumber : ℕ
  processedTokenCount : ℕ

structure BatchData (W : Type) where
  zoneHeight : ℕ
  tempoBlockNumber : ℕ
  prevBlockHash : W
  nextBlockHash : W
  prevProcessedDepositHash : W
  nextProcessedDepositHash : W
  prevDepositNumber : ℕ
  nextDepositNumber : ℕ
  prevProcessedTokenCount : ℕ
  nextProcessedTokenCount : ℕ
  withdrawalQueueHash : W
  withdrawalBatchIndex : ℕ

def BatchCursor.advance (batch : BatchData W) : BatchCursor W where
  zoneHeight := batch.zoneHeight
  blockHash := batch.nextBlockHash
  processedDepositHash := batch.nextProcessedDepositHash
  processedDepositNumber := batch.nextDepositNumber
  processedTokenCount := batch.nextProcessedTokenCount

structure ZoneBlockSnapshot (W : Type) where
  advanced : TempoAdvanced W
  blockHash : W

/-- One pass of `read_zone_block_snapshot` over the logs. -/
def scanSnapshot (number : ℕ) (found : Option (TempoAdvanced W)) :
    List (ReceiptLog W) → Except SettleError (Option (TempoAdvanced W))
  | [] => .ok found
  | log :: logs =>
    match tempoAdvanced? log with
    | none => scanSnapshot number found logs
    | some event =>
      if found.isSome then .error (.repeatedTempoAdvanced number)
      else scanSnapshot number (some event) logs

def readZoneBlockSnapshot (p : ZoneProvider W) (number : ℕ) :
    Except SettleError (ZoneBlockSnapshot W) :=
  match p.block? number with
  | none => .error (.missingReceipts number)
  | some block => do
      match ← scanSnapshot number none block.receipts.flatten with
      | none => .error (.missingTempoAdvanced number)
      | some event => .ok ⟨event, block.hash⟩

structure FinalizedBatchLog (W : Type) where
  blockNumber : ℕ
  withdrawalQueueHash : W
  withdrawalBatchIndex : ℕ

def finalizedBatchLogs (p : ZoneProvider W) (number : ℕ) :
    Except SettleError (List (FinalizedBatchLog W)) :=
  match p.block? number with
  | none => .error (.missingReceipts number)
  | some block => .ok ((block.receipts.flatten.filterMap batchFinalized?).map
      fun e => ⟨number, e.1, e.2⟩)

/-- `fetch_finalized_batch_boundaries` for one block. -/
def fetchFinalizedBatchBoundary (p : ZoneProvider W) (number : ℕ) :
    Except SettleError (Option (FinalizedBatchLog W)) := do
  match ← finalizedBatchLogs p number with
  | [] => .ok none
  | [boundary] => .ok (some boundary)
  | _ => .error (.repeatedBatchFinalized number)

/-- `process_finalized_batch` up to the batch data. -/
def processFinalizedBatch (p : ZoneProvider W) (cursor : BatchCursor W)
    (boundary : FinalizedBatchLog W) : Except SettleError (BatchData W) := do
  let endState ← readZoneBlockSnapshot p boundary.blockNumber
  .ok
    { zoneHeight := boundary.blockNumber
      tempoBlockNumber := endState.advanced.tempoBlockNumber
      prevBlockHash := cursor.blockHash
      nextBlockHash := endState.blockHash
      prevProcessedDepositHash := cursor.processedDepositHash
      nextProcessedDepositHash := endState.advanced.processedDepositHash
      prevDepositNumber := cursor.processedDepositNumber
      nextDepositNumber := endState.advanced.processedDepositNumber
      prevProcessedTokenCount := cursor.processedTokenCount
      nextProcessedTokenCount := endState.advanced.processedTokenCount
      withdrawalQueueHash := boundary.withdrawalQueueHash
      withdrawalBatchIndex := boundary.withdrawalBatchIndex }

/-- `process_block_range`: from the block after the cursor, over `count` blocks, the batches of all
boundaries in order. -/
def processBlockRange (p : ZoneProvider W) :
    ℕ → ℕ → BatchCursor W → Except SettleError (List (BatchData W))
  | _, 0, _ => .ok []
  | start, count + 1, cursor => do
      match ← fetchFinalizedBatchBoundary p start with
      | none => processBlockRange p (start + 1) count cursor
      | some boundary => do
          let batch ← processFinalizedBatch p cursor boundary
          let rest ← processBlockRange p (start + 1) count (BatchCursor.advance batch)
          .ok (batch :: rest)

/-- `resolve_portal_zone_anchor`: the number of the portal's zone block. -/
def resolvePortalZoneAnchor (p : ZoneProvider W) (portal : Portal W) : Except SettleError ℕ :=
  if portal.batches.blockHash = 0 then do
    require (portal.batches.zoneHeight = 0) .inconsistentCheckpoint
    pure 0
  else
    match p.blocks.findIdx? fun b => decide (b.hash = portal.batches.blockHash) with
    | none => .error .unknownPortalBlock
    | some i => do
        require (i + 1 = portal.batches.zoneHeight) .inconsistentCheckpoint
        pure (i + 1)

def preparationCursor (p : ZoneProvider W) (portal : Portal W) :
    Except SettleError (BatchCursor W) := do
  let number ← resolvePortalZoneAnchor p portal
  if number = 0 then .ok ⟨0, portal.batches.blockHash, 0, 0, 0⟩
  else do
    let snapshot ← readZoneBlockSnapshot p number
    .ok ⟨number, portal.batches.blockHash, snapshot.advanced.processedDepositHash,
      snapshot.advanced.processedDepositNumber, snapshot.advanced.processedTokenCount⟩

/-! ## The leader's attestation -/

inductive BatchAnchor (W : Type) where
  | direct (blockHash : W)
  | ancestry (blockNumber : ℕ) (blockHash : W)

def BatchAnchor.blockNumber (tempoBlockNumber : ℕ) : BatchAnchor W → ℕ
  | .direct _ => tempoBlockNumber
  | .ancestry number _ => number

def BatchAnchor.blockHash : BatchAnchor W → W
  | .direct hash | .ancestry _ hash => hash

/-- The `recentTempoBlockNumber` argument for `submitBatch`. -/
def BatchAnchor.recentBlockNumber : BatchAnchor W → ℕ
  | .direct _ => 0
  | .ancestry number _ => number

structure PreparedBatch (W : Type) where
  batch : BatchData W
  anchor : BatchAnchor W

def PreparedBatch.anchorBlockNumber (b : PreparedBatch W) : ℕ :=
  b.anchor.blockNumber b.batch.tempoBlockNumber

/-- Portal configuration that must remain fixed while collecting signatures. -/
structure SettlementConfig where
  abi : SettlementAbi
  sequencerSetVersion : ℕ
  verifier : Address
  deriving DecidableEq

def settlementAttestation (domain : AttestationDomain) (config : SettlementConfig)
    (prepared : PreparedBatch W) (mode : VerifierMode) : SettlementAttestation W :=
  let batch := prepared.batch
  { zoneId := domain.zoneId
    sequencerSetVersion := config.sequencerSetVersion
    zoneHeight := batch.zoneHeight
    withdrawalBatchIndex := batch.withdrawalBatchIndex
    verifier := config.verifier
    tempoBlockNumber := batch.tempoBlockNumber
    anchorBlockNumber := prepared.anchorBlockNumber
    anchorBlockHash := prepared.anchor.blockHash
    blockTransitionHash :=
      keccak256 (BlockTransition.codec.encode ⟨batch.prevBlockHash, batch.nextBlockHash⟩)
    depositQueueTransitionHash :=
      keccak256 (DepositQueueTransition.codec.encode ⟨batch.prevProcessedDepositHash,
        batch.nextProcessedDepositHash, batch.prevDepositNumber, batch.nextDepositNumber⟩)
    tokenEnablementTransitionHash :=
      config.abi.tokenTransitionHash batch.prevProcessedTokenCount batch.nextProcessedTokenCount
    withdrawalQueueHash := batch.withdrawalQueueHash
    verifierConfigHash := mode.configHash }

/-! ## The follower's attestation -/

/-- Commitments of a batch boundary. -/
structure BlockCommitments (W : Type) where
  advanced : TempoAdvanced W
  withdrawal : W × ℕ

/-- The last events that `block_commitments` has seen. -/
structure CommitmentScan (W : Type) where
  advanced : Option (TempoAdvanced W)
  withdrawal : Option (W × ℕ)

def scanCommitments (found : CommitmentScan W) (log : ReceiptLog W) : CommitmentScan W :=
  match tempoAdvanced? log with
  | some event => { found with advanced := some event }
  | none =>
    match batchFinalized? log with
    | some event => { found with withdrawal := some event }
    | none => found

/-- `block_commitments`: `none` for a block that does not finalize. -/
def blockCommitments (p : ZoneProvider W) (number : ℕ) :
    Except SettleError (Option (BlockCommitments W)) :=
  match p.block? number with
  | none => .error (.missingReceipts number)
  | some block =>
    let found := block.receipts.flatten.foldl scanCommitments ⟨none, none⟩
    match found.withdrawal with
    | none => .ok none
    | some withdrawal =>
      match found.advanced with
      | none => .error (.missingTempoAdvanced number)
      | some advanced => .ok (some ⟨advanced, withdrawal⟩)

/-- Hash, deposit hash and number, token count and batch index of the previous batch. -/
structure PreviousBatch (W : Type) where
  tip : W
  depositHash : W
  depositNumber : ℕ
  tokenCount : ℕ
  batchIndex : ℕ

/-- The scan of `previous_batch` from a candidate down to block 1; the first batch extends the zero
hash of a fresh portal. -/
def previousBatchFrom (p : ZoneProvider W) : ℕ → Except SettleError (PreviousBatch W)
  | 0 => .ok ⟨0, 0, 0, 0, 0⟩
  | candidate + 1 => do
      match ← blockCommitments p (candidate + 1) with
      | some commitments =>
        match p.block? (candidate + 1) with
        | none => .error (.missingReceipts (candidate + 1))
        | some block => .ok ⟨block.hash, commitments.advanced.processedDepositHash,
            commitments.advanced.processedDepositNumber,
            commitments.advanced.processedTokenCount, commitments.withdrawal.2⟩
      | none => previousBatchFrom p candidate

def previousBatch (p : ZoneProvider W) (number : ℕ) : Except SettleError (PreviousBatch W) :=
  previousBatchFrom p (number - 1)

/-- What a node reads from L1: head, canonical header hashes, the portal and the active ABI. -/
structure L1Reader (W : Type) where
  blockNumber : ℕ
  headerHash : ℕ → Option W
  portal : Portal W
  abi : SettlementAbi

/-- Shared validation context. -/
structure AttestationContext where
  domain : AttestationDomain
  pinnedSequencerSetVersion : Option ℕ
  historyWindow : ℕ

def AttestationContext.validateSequencerSetVersion (c : AttestationContext) (live : ℕ) :
    Except SettleError Unit :=
  match c.pinnedSequencerSetVersion with
  | none => .ok ()
  | some pinned => require (live = pinned) .signerSetVersion

/-- `validate_settlement_anchor` of the follower. -/
def AttestationContext.validateSettlementAnchor (c : AttestationContext) (l1 : L1Reader W)
    (tempoBlockNumber : ℕ) (tempoBlockHash : W) (anchorBlockNumber : ℕ) (anchorBlockHash : W) :
    Except SettleError Unit := do
  require (anchorBlockNumber ≥ tempoBlockNumber) .anchorPredatesTempoBlock
  require (anchorBlockNumber ≤ l1.blockNumber) .anchorAheadOfTip
  require (l1.blockNumber - anchorBlockNumber < c.historyWindow) .anchorOutsideWindow
  require (l1.headerHash anchorBlockNumber ≠ none) .anchorMissing
  require (l1.headerHash anchorBlockNumber = some anchorBlockHash) .anchorNotCanonical
  require (l1.headerHash tempoBlockNumber ≠ none) .anchorMissing
  require (l1.headerHash tempoBlockNumber = some tempoBlockHash) .tempoBlockNotCanonical

def buildSettlementAttestation (c : AttestationContext) (l1 : L1Reader W) (p : ZoneProvider W)
    (number : ℕ) (anchor : ℕ × W) (mode : VerifierMode) :
    Except SettleError (Option (SettlementAttestation W)) := do
  match ← blockCommitments p number with
  | none => .ok none
  | some commitments =>
    match p.block? number with
    | none => .error (.missingReceipts number)
    | some block => do
        let previous ← previousBatch p number
        require (previous.batchIndex + 1 < 2 ^ 64) .batchIndexOverflow
        require (commitments.withdrawal.2 = previous.batchIndex + 1)
          (.batchIndex commitments.withdrawal.2 previous.batchIndex)
        c.validateSequencerSetVersion l1.portal.gov.sequencerSetVersion
        c.validateSettlementAnchor l1 commitments.advanced.tempoBlockNumber
          commitments.advanced.tempoBlockHash anchor.1 anchor.2
        .ok (some
          { zoneId := c.domain.zoneId
            sequencerSetVersion := l1.portal.gov.sequencerSetVersion
            zoneHeight := number
            withdrawalBatchIndex := commitments.withdrawal.2
            verifier := l1.portal.gov.verifier
            tempoBlockNumber := commitments.advanced.tempoBlockNumber
            anchorBlockNumber := anchor.1
            anchorBlockHash := anchor.2
            blockTransitionHash :=
              keccak256 (BlockTransition.codec.encode ⟨previous.tip, block.hash⟩)
            depositQueueTransitionHash :=
              keccak256 (DepositQueueTransition.codec.encode ⟨previous.depositHash,
                commitments.advanced.processedDepositHash, previous.depositNumber,
                commitments.advanced.processedDepositNumber⟩)
            tokenEnablementTransitionHash :=
              l1.abi.tokenTransitionHash previous.tokenCount
                commitments.advanced.processedTokenCount
            withdrawalQueueHash := commitments.withdrawal.1
            verifierConfigHash := mode.configHash })

/-! ## Signatures -/

/-- Keys with their addresses, signing and recovery; a signature has 65 bytes. -/
structure Signing (W : Type) where
  Key : Type
  address : Key → Address
  sign : Key → W → Bytes
  recover : W → Bytes → Option Address
  recover_sign : ∀ key digest, recover digest (sign key digest) = some (address key)
  length_sign : ∀ key digest, (sign key digest).length = 65

structure SignedSettlementAttestation (W : Type) where
  attestation : SettlementAttestation W
  signature : Bytes

def SignedSettlementAttestation.sign (sg : Signing W) (attestation : SettlementAttestation W)
    (domain : AttestationDomain) (key : sg.Key) : SignedSettlementAttestation W :=
  ⟨attestation, sg.sign key (domain.settlementDigest attestation)⟩

def SignedSettlementAttestation.recoverSigner (sg : Signing W) (domain : AttestationDomain)
    (s : SignedSettlementAttestation W) : Option Address :=
  sg.recover (domain.settlementDigest s.attestation) s.signature

/-! ## The arguments of `submitBatch` -/

/-- `validate_anchor` of the leader. -/
def validateAnchor (historyWindow : ℕ) (l1 : L1Reader W) (prepared : PreparedBatch W) :
    Except SettleError Unit := do
  require (prepared.anchorBlockNumber ≥ prepared.batch.tempoBlockNumber)
    .anchorPredatesTempoBlock
  require (prepared.anchorBlockNumber ≤ l1.blockNumber) .anchorAheadOfTip
  require (l1.blockNumber - prepared.anchorBlockNumber < historyWindow)
    .anchorOutsideWindow
  require (l1.headerHash prepared.anchorBlockNumber ≠ none) .anchorMissing
  require (l1.headerHash prepared.anchorBlockNumber = some prepared.anchor.blockHash)
    .anchorNotCanonical

/-- Arguments of `submitBatch` for a prepared batch; the legacy selector has no token transition. -/
def submitBatchCall (prepared : PreparedBatch W) (mode : VerifierMode) (proof : Bytes)
    (signatures : List Bytes) : SubmitBatch W where
  tempoBlockNumber := prepared.batch.tempoBlockNumber
  recentTempoBlockNumber := prepared.anchor.recentBlockNumber
  blockTransition := ⟨prepared.batch.prevBlockHash, prepared.batch.nextBlockHash⟩
  depositQueueTransition := ⟨prepared.batch.prevProcessedDepositHash,
    prepared.batch.nextProcessedDepositHash, prepared.batch.prevDepositNumber,
    prepared.batch.nextDepositNumber⟩
  tokenEnablementTransition :=
    ⟨prepared.batch.prevProcessedTokenCount, prepared.batch.nextProcessedTokenCount⟩
  withdrawalQueueHash := prepared.batch.withdrawalQueueHash
  verifierConfig := mode.config
  proof := proof
  nextZoneHeight := prepared.batch.zoneHeight
  signatures := signatures

/-! ## The portal -/

/-- The part of `_verifySettlement` after the digest. -/
def quorumSigned (portal : Portal W) (ctx : CallCtx W) (call : SubmitBatch W) (digest : W) : Bool :=
  if call.nextZoneHeight ≤ portal.batches.zoneHeight ∨
      call.signatures.length < portal.gov.sequencerThreshold ∨
      call.signatures.length > portal.gov.sequencers.length then false
  else
    checkSignatures portal.gov ctx.ext.recover digest [] call.signatures &&
      decide (call.signatures.length ≥ portal.gov.sequencerThreshold)

/-- The portal before T13, which is not part of the repository. -/
structure LegacyPortal (W : Type) where
  digest : Portal W → CallCtx W → SubmitBatch W → ℕ → W → W
  verifySettlement : Portal W → CallCtx W → SubmitBatch W → ℕ → W → Bool

/-- What `attestation.rs` relies on: the legacy portal hashes the statement without the token
transition and counts signatures over it as the current one does. -/
structure LegacyPortal.Compatible (legacy : LegacyPortal W) : Prop where
  digest_eq : ∀ portal ctx call anchorBlockNumber anchorBlockHash,
    legacy.digest portal ctx call anchorBlockNumber anchorBlockHash =
      keccak256 [.raw [0x19, 0x01], .word (domainSeparator ctx), .word (keccak256
        (legacyCodec.encode (LEGACY_SETTLEMENT_ATTESTATION_TYPEHASH, portal.gov.zoneId,
          portal.gov.sequencerSetVersion, call.nextZoneHeight,
          portal.batches.withdrawalBatchIndex + 1, portal.gov.verifier, call.tempoBlockNumber,
          anchorBlockNumber, anchorBlockHash,
          keccak256 (BlockTransition.codec.encode call.blockTransition),
          keccak256 (DepositQueueTransition.codec.encode call.depositQueueTransition),
          call.withdrawalQueueHash, keccak256 [.raw call.verifierConfig], ())))]
  verify_eq : ∀ portal ctx call anchorBlockNumber anchorBlockHash,
    legacy.verifySettlement portal ctx call anchorBlockNumber anchorBlockHash = quorumSigned portal
      ctx call (legacy.digest portal ctx call anchorBlockNumber anchorBlockHash)

/-- The digest that the portal behind an ABI computes. -/
def portalDigest (legacy : LegacyPortal W) (abi : SettlementAbi) (portal : Portal W)
    (ctx : CallCtx W) (call : SubmitBatch W) (anchorBlockNumber : ℕ) (anchorBlockHash : W) : W :=
  match abi with
  | .t13 => (portal.attestation call anchorBlockNumber anchorBlockHash).digest ctx
  | .legacy => legacy.digest portal ctx call anchorBlockNumber anchorBlockHash

/-- `_verifySettlement` of the portal behind an ABI. -/
def verifySettlement (legacy : LegacyPortal W) (abi : SettlementAbi) (portal : Portal W)
    (ctx : CallCtx W) (call : SubmitBatch W) (anchorBlockNumber : ℕ) (anchorBlockHash : W) : Bool :=
  match abi with
  | .t13 => portal.verifySettlement ctx call anchorBlockNumber anchorBlockHash
  | .legacy => legacy.verifySettlement portal ctx call anchorBlockNumber anchorBlockHash

end TempoZones.Settle
