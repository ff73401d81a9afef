import TempoZones.Portal.Withdrawals

/-!
# Batch settlement

`submitBatch` with its anchor selection, the quorum certificate over the EIP-712 digest, the queue
cursor checks, the proof verifier and the state update.
-/

namespace TempoZones

open Lib Revert

variable {W : Type} [EvmWord W] [DecidableEq W]

def utf8 (s : String) : Bytes := s.toUTF8.toList

/-! ## Settlement digest -/

def EIP712_DOMAIN_TYPEHASH : W := keccak256 [.raw (utf8
  "EIP712Domain(string name,string version,uint256 chainId,address verifyingContract)")]
def NAME_HASH : W := keccak256 [.raw (utf8 "ZonePortal")]
def VERSION_HASH : W := keccak256 [.raw (utf8 "1")]
def SETTLEMENT_ATTESTATION_TYPEHASH : W := keccak256 [.raw (utf8
  "SettlementAttestation(uint32 zoneId,uint64 sequencerSetVersion,uint256 zoneHeight,uint256 withdrawalBatchIndex,address verifier,uint64 tempoBlockNumber,uint64 anchorBlockNumber,bytes32 anchorBlockHash,bytes32 blockTransitionHash,bytes32 depositQueueTransitionHash,bytes32 tokenEnablementTransitionHash,bytes32 withdrawalQueueHash,bytes32 verifierConfigHash)")]

def BlockTransition.codec : Codec W (BlockTransition W) :=
  (Codec.tuple (.bytes32 (.bytes32 .nil))).comap
    (fun t : BlockTransition W => (t.prevBlockHash, t.nextBlockHash, ()))
    (by
      rintro ⟨⟩ ⟨⟩ h
      simp only [Prod.mk.injEq] at h
      simp only [BlockTransition.mk.injEq]
      tauto)

def DepositQueueTransition.codec : Codec W (DepositQueueTransition W) :=
  (Codec.tuple (.bytes32 (.bytes32 (.uint (.uint .nil))))).comap
    (fun t : DepositQueueTransition W =>
      (t.prevProcessedHash, t.nextProcessedHash, t.prevDepositNumber, t.nextDepositNumber, ()))
    (by
      rintro ⟨⟩ ⟨⟩ h
      simp only [Prod.mk.injEq] at h
      simp only [DepositQueueTransition.mk.injEq]
      tauto)

def TokenEnablementTransition.codec : Codec W TokenEnablementTransition :=
  (Codec.tuple (.uint (.uint .nil))).comap
    (fun t : TokenEnablementTransition =>
      (t.prevProcessedTokenCount, t.nextProcessedTokenCount, ()))
    (by
      rintro ⟨⟩ ⟨⟩ h
      simp only [Prod.mk.injEq] at h
      simp only [TokenEnablementTransition.mk.injEq]
      tauto)

structure SettlementAttestation (W : Type) where
  zoneId : ℕ
  sequencerSetVersion : ℕ
  zoneHeight : ℕ
  withdrawalBatchIndex : ℕ
  verifier : Address
  tempoBlockNumber : ℕ
  anchorBlockNumber : ℕ
  anchorBlockHash : W
  blockTransition : BlockTransition W
  depositQueueTransition : DepositQueueTransition W
  tokenEnablementTransition : TokenEnablementTransition
  withdrawalQueueHash : W
  verifierConfig : Bytes

/-- ABI encoding of the attestation struct: the type hash, then one word per member. -/
def SettlementAttestation.codec : Codec W (W × ℕ × ℕ × ℕ × ℕ × Address × ℕ × ℕ × W × W × W × W ×
    W × W × Unit) :=
  Codec.tuple (.bytes32 (.uint (.uint (.uint (.uint (.address (.uint (.uint
    (.bytes32 (.bytes32 (.bytes32 (.bytes32 (.bytes32 (.bytes32 .nil))))))))))))))

def SettlementAttestation.structHash (a : SettlementAttestation W) : W :=
  keccak256 (codec.encode (SETTLEMENT_ATTESTATION_TYPEHASH, a.zoneId, a.sequencerSetVersion,
    a.zoneHeight, a.withdrawalBatchIndex, a.verifier, a.tempoBlockNumber, a.anchorBlockNumber,
    a.anchorBlockHash, keccak256 (BlockTransition.codec.encode a.blockTransition),
    keccak256 (DepositQueueTransition.codec.encode a.depositQueueTransition),
    keccak256 (TokenEnablementTransition.codec.encode a.tokenEnablementTransition),
    a.withdrawalQueueHash, keccak256 [.raw a.verifierConfig], ()))

def domainCodec : Codec W (W × W × W × ℕ × Address × Unit) :=
  Codec.tuple (.bytes32 (.bytes32 (.bytes32 (.uint (.address .nil)))))

def domainSeparator (ctx : CallCtx W) : W :=
  keccak256 (domainCodec.encode (EIP712_DOMAIN_TYPEHASH, NAME_HASH, VERSION_HASH,
    ctx.env.chainid, ctx.ext.self, ()))

/-- `keccak256(abi.encodePacked("\x19\x01", domainSeparator, structHash))`. -/
def SettlementAttestation.digest (ctx : CallCtx W) (a : SettlementAttestation W) : W :=
  keccak256 [.raw [0x19, 0x01], .word (domainSeparator ctx), .word a.structHash]

/-! ## Certificate check -/

def Portal.attestation (p : Portal W) (call : SubmitBatch W) (anchorBlockNumber : ℕ)
    (anchorBlockHash : W) : SettlementAttestation W where
  zoneId := p.gov.zoneId
  sequencerSetVersion := p.gov.sequencerSetVersion
  zoneHeight := call.nextZoneHeight
  withdrawalBatchIndex := p.batches.withdrawalBatchIndex + 1
  verifier := p.gov.verifier
  tempoBlockNumber := call.tempoBlockNumber
  anchorBlockNumber := anchorBlockNumber
  anchorBlockHash := anchorBlockHash
  blockTransition := call.blockTransition
  depositQueueTransition := call.depositQueueTransition
  tokenEnablementTransition := call.tokenEnablementTransition
  withdrawalQueueHash := call.withdrawalQueueHash
  verifierConfig := call.verifierConfig

/-- Signature loop of `_verifySettlement`: every signature recovers to a sequencer that has not
signed before; `recovered` holds the signers found so far. -/
def checkSignatures (g : Governance) (recover : W → Bytes → Option Address) (digest : W) :
    List Address → List Bytes → Bool
  | _, [] => true
  | recovered, signature :: rest =>
    match recover digest signature with
    | none => false
    | some signer =>
      if signer = 0 ∨ ¬ g.isSequencer signer then false
      else if signer ∈ recovered then false
      else checkSignatures g recover digest (recovered ++ [signer]) rest

def Portal.verifySettlement (p : Portal W) (ctx : CallCtx W) (call : SubmitBatch W)
    (anchorBlockNumber : ℕ) (anchorBlockHash : W) : Bool :=
  if call.nextZoneHeight ≤ p.batches.zoneHeight ∨
      call.signatures.length < p.gov.sequencerThreshold ∨
      call.signatures.length > p.gov.sequencers.length then false
  else
    let digest := (p.attestation call anchorBlockNumber anchorBlockHash).digest ctx
    checkSignatures p.gov ctx.ext.recover digest [] call.signatures &&
      decide (call.signatures.length ≥ p.gov.sequencerThreshold)

/-! ## Submission -/

/-- Anchor selection of `submitBatch`: direct mode reads the hash of `tempoBlockNumber`, ancestry
mode that of a later block. -/
def selectAnchor (ctx : CallCtx W) (call : SubmitBatch W) : Except Revert (ℕ × W) := do
  let anchorBlockNumber ← if call.recentTempoBlockNumber = 0 then do
      require (call.tempoBlockNumber ≤ ctx.env.number) invalidTempoBlockNumber
      pure call.tempoBlockNumber
    else do
      require (call.tempoBlockNumber < call.recentTempoBlockNumber) invalidTempoBlockNumber
      require (call.recentTempoBlockNumber ≤ ctx.env.number) invalidTempoBlockNumber
      pure call.recentTempoBlockNumber
  require (ctx.ext.getBlockHash anchorBlockNumber ≠ 0) invalidTempoBlockNumber
  pure (anchorBlockNumber, ctx.ext.getBlockHash anchorBlockNumber)

def DepositCursor.checkTransition (d : DepositCursor W) (t : DepositQueueTransition W) :
    Except Revert Unit :=
  require (¬ (t.prevDepositNumber ≠ d.lastProcessedDepositNumber ∨
    t.nextDepositNumber < t.prevDepositNumber ∨ t.nextDepositNumber > d.depositCount))
    .invalidDepositTransition

/-- Token-cursor checks of `submitBatch`. -/
def TokenRegistry.checkTransition (r : TokenRegistry W) (t : TokenEnablementTransition) :
    Except Revert Unit := do
  let enabledCount := uint64 r.enabledTokens.length
  let expectedPrev :=
    if r.tokenEnablementCursorInitialized then r.lastProcessedEnabledTokenCount else 0
  require (¬ (t.prevProcessedTokenCount ≠ expectedPrev ∨
    t.nextProcessedTokenCount < t.prevProcessedTokenCount ∨
    t.nextProcessedTokenCount > enabledCount)) invalidTokenEnablementTransition
  require (¬ (r.tokenEnablementCursorInitialized = false ∧ t.nextProcessedTokenCount ≠ 0 ∧
    enabledCount - t.nextProcessedTokenCount > MAX_UNPROCESSED_TOKEN_ENABLEMENTS))
    invalidTokenEnablementTransition

/-- Token-cursor update of `submitBatch`: the cursor stays uninitialized while batches report an
empty prefix. -/
def TokenRegistry.advance (r : TokenRegistry W) (t : TokenEnablementTransition) :
    TokenRegistry W :=
  if r.tokenEnablementCursorInitialized = true ∨ t.nextProcessedTokenCount ≠ 0 then
    { r with lastProcessedEnabledTokenCount := t.nextProcessedTokenCount
             tokenEnablementCursorInitialized := true }
  else r

def Portal.verifyCall (p : Portal W) (call : SubmitBatch W) (anchorBlockNumber : ℕ)
    (anchorBlockHash : W) : VerifyCall W where
  zoneId := p.gov.zoneId
  tempoBlockNumber := call.tempoBlockNumber
  anchorBlockNumber := anchorBlockNumber
  anchorBlockHash := anchorBlockHash
  expectedWithdrawalBatchIndex := p.batches.withdrawalBatchIndex + 1
  nextZoneHeight := call.nextZoneHeight
  blockTransition := call.blockTransition
  depositQueueTransition := call.depositQueueTransition
  tokenEnablementTransition := call.tokenEnablementTransition
  withdrawalQueueHash := call.withdrawalQueueHash
  verifierConfig := call.verifierConfig
  proof := call.proof

/-- State update of `submitBatch`, with the log and the history record of the accepted batch. -/
def L1.settle (s : L1 W) (ctx : CallCtx W) (call : SubmitBatch W) (anchorBlockNumber : ℕ)
    (anchorBlockHash : W) : L1 W :=
  let p := s.portal
  let batchIndex := p.batches.withdrawalBatchIndex + 1
  let registry := p.registry.advance call.tokenEnablementTransition
  let queue := p.withdrawalQueue.enqueue call.withdrawalQueueHash
  let accepted : AcceptedBatch W :=
    { call := call, anchorBlockNumber := anchorBlockNumber, anchorBlockHash := anchorBlockHash
      digest := (p.attestation call anchorBlockNumber anchorBlockHash).digest ctx
      batchIndex := batchIndex, gov := p.gov }
  L1.emit { s with
    portal := { p with
      batches := { withdrawalBatchIndex := batchIndex
                   blockHash := call.blockTransition.nextBlockHash
                   zoneHeight := call.nextZoneHeight
                   lastSyncedTempoBlockNumber := call.tempoBlockNumber }
      deposits := { p.deposits with
        lastProcessedDepositNumber := call.depositQueueTransition.nextDepositNumber }
      registry := registry
      withdrawalQueue := queue.1 }
    history := { s.history with accepted := s.history.accepted ++ [accepted] } }
    (.batchSubmitted batchIndex queue.2 call.depositQueueTransition.nextProcessedHash
      call.blockTransition.nextBlockHash call.withdrawalQueueHash
      call.depositQueueTransition.nextDepositNumber registry.lastProcessedEnabledTokenCount)

def L1.submitBatch (s : L1 W) (ctx : CallCtx W) (sender : Address) (call : SubmitBatch W) :
    Except Revert (L1 W) := do
  let p := s.portal
  require (p.gov.isSequencer sender) notSequencer
  require (call.blockTransition.prevBlockHash = p.batches.blockHash) invalidProof
  let (anchorBlockNumber, anchorBlockHash) ← selectAnchor ctx call
  require (p.verifySettlement ctx call anchorBlockNumber anchorBlockHash = true)
    invalidQuorumCertificate
  p.deposits.checkTransition call.depositQueueTransition
  p.registry.checkTransition call.tokenEnablementTransition
  let _ ← checkedAdd 64 p.batches.withdrawalBatchIndex 1
  require (ctx.ext.verify (p.verifyCall call anchorBlockNumber anchorBlockHash) = true)
    invalidProof
  pure (s.settle ctx call anchorBlockNumber anchorBlockHash)

/-! ## What an accepted batch passed -/

structure Accepted (ctx : CallCtx W) (sender : Address) (p : Portal W) (call : SubmitBatch W)
    (anchorBlockNumber : ℕ) (anchorBlockHash : W) : Prop where
  sequencer : p.gov.isSequencer sender
  chained : call.blockTransition.prevBlockHash = p.batches.blockHash
  anchor : selectAnchor ctx call = .ok (anchorBlockNumber, anchorBlockHash)
  certified : p.verifySettlement ctx call anchorBlockNumber anchorBlockHash = true
  deposit_prev : call.depositQueueTransition.prevDepositNumber =
    p.deposits.lastProcessedDepositNumber
  deposit_mono : call.depositQueueTransition.prevDepositNumber ≤
    call.depositQueueTransition.nextDepositNumber
  deposit_le : call.depositQueueTransition.nextDepositNumber ≤ p.deposits.depositCount
  token_prev : call.tokenEnablementTransition.prevProcessedTokenCount =
    if p.registry.tokenEnablementCursorInitialized then p.registry.lastProcessedEnabledTokenCount
    else 0
  token_mono : call.tokenEnablementTransition.prevProcessedTokenCount ≤
    call.tokenEnablementTransition.nextProcessedTokenCount
  token_le : call.tokenEnablementTransition.nextProcessedTokenCount ≤
    uint64 p.registry.enabledTokens.length
  token_start : p.registry.tokenEnablementCursorInitialized = false →
    call.tokenEnablementTransition.nextProcessedTokenCount ≠ 0 →
    uint64 p.registry.enabledTokens.length ≤
      call.tokenEnablementTransition.nextProcessedTokenCount + MAX_UNPROCESSED_TOKEN_ENABLEMENTS
  index_lt : p.batches.withdrawalBatchIndex + 1 < 2 ^ 64
  proven : ctx.ext.verify (p.verifyCall call anchorBlockNumber anchorBlockHash) = true

theorem submitBatch_ok {s s' : L1 W} {ctx : CallCtx W} {sender : Address} {call : SubmitBatch W}
    (h : s.submitBatch ctx sender call = .ok s') :
    ∃ anchorBlockNumber anchorBlockHash,
      Accepted ctx sender s.portal call anchorBlockNumber anchorBlockHash ∧
      s' = s.settle ctx call anchorBlockNumber anchorBlockHash := by
  simp only [L1.submitBatch, DepositCursor.checkTransition, TokenRegistry.checkTransition,
    ok_iff, checkedAdd_eq_ok] at h
  obtain ⟨-, hsequencer, -, hchained, ⟨n, hash⟩, hanchor, -, hcertified, -, hdeposits, -,
    ⟨-, htokens, hstart⟩, -, ⟨hindex, -⟩, -, hproven, rfl⟩ := h
  refine ⟨n, hash, ⟨hsequencer, hchained, hanchor, hcertified, ?_, ?_, ?_, ?_, ?_, ?_, ?_, hindex,
    hproven⟩, rfl⟩
  · by_contra hne
    exact hdeposits (.inl hne)
  · by_contra hlt
    exact hdeposits (.inr (.inl (Nat.lt_of_not_le hlt)))
  · by_contra hlt
    exact hdeposits (.inr (.inr (Nat.lt_of_not_le hlt)))
  · by_contra hne
    exact htokens (.inl hne)
  · by_contra hlt
    exact htokens (.inr (.inl (Nat.lt_of_not_le hlt)))
  · by_contra hlt
    exact htokens (.inr (.inr (Nat.lt_of_not_le hlt)))
  intro hinit hne
  by_contra hlt
  exact hstart ⟨hinit, hne, by omega⟩

end TempoZones
