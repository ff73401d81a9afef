import TempoZones.Portal.State

/-!
# Zone state

Storage of the native zone precompiles `TempoState`, `ZoneInbox` and `ZoneOutbox`, their events and
errors, and what a call finds around it: the zone block, the portal storage that L1 reads resolve
to, and the replies of code outside the precompiles. `ZoneHistory` records what the storage forgets.
-/

namespace TempoZones

open Lib

def MAX_CALLBACK_DATA_SIZE : ℕ := 1024
def WITHDRAWAL_BASE_GAS : ℕ := 50000
def MAX_TEMPO_HEADERS_PER_ZONE_BLOCK : ℕ := 1024
def COMPRESSED_PUBLIC_KEY_SIZE : ℕ := 33
/-- `COMPRESSED_PUBLIC_KEY_SIZE + 12 + AUTHENTICATED_WITHDRAWAL_PLAINTEXT_SIZE + 16`. -/
def AUTHENTICATED_WITHDRAWAL_ENCRYPTED_SIZE : ℕ := COMPRESSED_PUBLIC_KEY_SIZE + 12 + 52 + 16
def ZONE_INBOX_ADDRESS : Address := 0x1c00000000000000000000000000000000000001
def ZONE_OUTBOX_ADDRESS : Address := 0x1c00000000000000000000000000000000000002

/-! ## Storage -/

/-- Withdrawal waiting for the next batch; `recipient` is the source's `to`. -/
structure PendingWithdrawal (W : Type) where
  token : Address
  sender : Address
  txHash : W
  recipient : Address
  amount : ℕ
  memo : W
  gasLimit : ℕ
  fallbackNonce : ℕ
  callbackData : Bytes
  revealTo : Bytes
  deriving DecidableEq

/-- Arguments of `requestWithdrawal`; `recipient` is the source's `to`. -/
structure RequestWithdrawal (W : Type) where
  token : Address
  recipient : Address
  amount : ℕ
  memo : W
  gasLimit : ℕ
  zoneFallbackRecipient : Address
  data : Bytes
  revealTo : Bytes

structure TempoState (W : Type) where
  tempoBlockHash : W
  tempoBlockNumber : ℕ

structure ZoneInbox (W : Type) where
  processedDepositQueueHash : W
  processedDepositNumber : ℕ
  withdrawalBounceBacks : Address → Address → ℕ
  processedTokenEnablementHash : W
  processedEnabledTokenCount : ℕ

structure ZoneOutbox (W : Type) where
  tempoGasRate : ℕ
  nextWithdrawalIndex : ℕ
  withdrawalQueueHash : W
  withdrawalBatchIndex : ℕ
  maxWithdrawalsPerBlock : ℕ
  withdrawalsThisBlock : ℕ
  currentBlockNumber : ℕ
  lastFinalizedTimestamp : ℕ
  pendingWithdrawals : List (PendingWithdrawal W)
  lastFallbackNonce : ℕ
  fallbackRecipients : ℕ → Address

/-- TIP-20 tokens of the zone: which are initialized, and their total supply. -/
structure ZoneTokens where
  initialized : Address → Bool
  supply : Address → ℕ

/-- What the outbox and the inbox state commit to at the end of a batch, with the withdrawals behind
the queue hash. -/
structure FinalizedBatch (W : Type) where
  withdrawals : List (Withdrawal W)
  withdrawalQueueHash : W
  withdrawalBatchIndex : ℕ
  processedDepositQueueHash : W
  processedDepositNumber : ℕ
  processedEnabledTokenCount : ℕ
  tempoBlockNumber : ℕ

/-- History variables. `requests` lists the withdrawal requests and `consumed` the nonces consumed,
oldest first; `fullAnchor` is the Tempo block of the last full import. -/
structure ZoneHistory (W : Type) where
  processed : List (QueueEntry W)
  processedTokens : List EnabledToken
  requests : List (RequestWithdrawal W)
  consumed : List ℕ
  batches : List (FinalizedBatch W)
  burnedFees : Address → ℕ
  fullAnchor : Option ℕ

inductive ZoneEvent (W : Type) where
  | tempoBlockFinalized (blockHash : W) (blockNumber : ℕ) (stateRoot : W)
  | tempoAdvanced (tempoBlockHash : W) (tempoBlockNumber depositsProcessed : ℕ)
      (newProcessedDepositQueueHash : W) (lastProcessedDepositNumber : ℕ)
      (lastProcessedEnabledTokenCount : Option ℕ)
  | depositProcessed (depositHash : W) (sender recipient token : Address) (amount : ℕ) (memo : W)
  | depositFailed (depositHash : W) (sender token : Address) (amount : ℕ)
  | withdrawalBounceBackProcessed (zoneFallbackRecipient token : Address) (amount : ℕ)
  | withdrawalBounceBackPending (zoneFallbackRecipient token : Address) (amount : ℕ)
  | refundClaimed (recipient token : Address) (amount : ℕ)
  | tokenEnabled (token : EnabledToken)
  | withdrawalRequested (withdrawalIndex : ℕ) (withdrawal : PendingWithdrawal W) (fee : ℕ)
  | batchFinalized (withdrawalQueueHash : W) (withdrawalBatchIndex : ℕ)
  | tempoGasRateUpdated (tempoGasRate : ℕ)
  | maxWithdrawalsPerBlockUpdated (maxWithdrawalsPerBlock : ℕ)

structure Zone (W : Type) where
  tempo : TempoState W
  inbox : ZoneInbox W
  outbox : ZoneOutbox W
  tokens : ZoneTokens
  logs : List (ZoneEvent W)
  history : ZoneHistory W

def Zone.genesis {W : Type} [EvmWord W] (tempo : TempoState W) (initialized : Address → Bool) :
    Zone W where
  tempo := tempo
  inbox :=
    { processedDepositQueueHash := 0, processedDepositNumber := 0
      withdrawalBounceBacks := fun _ _ => 0, processedTokenEnablementHash := 0
      processedEnabledTokenCount := 0 }
  outbox :=
    { tempoGasRate := 0, nextWithdrawalIndex := 0, withdrawalQueueHash := 0
      withdrawalBatchIndex := 0, maxWithdrawalsPerBlock := 0, withdrawalsThisBlock := 0
      currentBlockNumber := 0, lastFinalizedTimestamp := 0, pendingWithdrawals := []
      lastFallbackNonce := 0, fallbackRecipients := fun _ => 0 }
  tokens := { initialized := initialized, supply := fun _ => 0 }
  logs := []
  history :=
    { processed := [], processedTokens := [], requests := [], consumed := [], batches := []
      burnedFees := fun _ => 0, fullAnchor := none }

/-! ## Errors -/

/-- Errors of zone precompile calls. `systemError` is a fatal or out-of-gas failure of code outside
the precompiles, `tokenError` an ordinary failure of a token call. -/
inductive ZoneError where
  | onlySequencer
  | onlyZoneInbox
  | invalidDepositQueueHash
  | invalidTokenEnablementHash
  | missingDecryptionData
  | extraDecryptionData
  | invalidSharedSecretProof
  | malformedCalldata
  | unknownSelector
  | invalidRlpData
  | invalidParentHash
  | invalidTempoBlockNumber
  | invalidTimestamp
  | advanceTempoConflict
  | storageUnavailable
  | invalidFallbackRecipient
  | zeroAmountWithdrawal
  | callbackDataTooLarge
  | gasLimitTooHigh
  | invalidCurrentTxHash
  | tooManyWithdrawalsThisBlock
  | invalidRevealTo
  | transferFailed
  | invalidBlockNumber
  | invalidWithdrawalCount (actual expected : ℕ)
  | invalidEncryptedSenderCount (actual expected : ℕ)
  | invalidEncryptedSenderLength (actual expected : ℕ)
  | gasFeeRateTooHigh
  | tokenNotEnabled
  | portalIsPaused
  | invalidCallbackTarget
  | accountNotAllowed (account : Address)
  | policyForbids
  | uninitialized
  | underOverflow
  | tokenError
  | systemError
  deriving DecidableEq

def zoneCheckedAdd (bits a b : ℕ) : Except ZoneError ℕ := do
  require (a + b < 2 ^ bits) .underOverflow
  pure (a + b)

theorem zoneCheckedAdd_eq_ok {bits a b c : ℕ} :
    zoneCheckedAdd bits a b = .ok c ↔ a + b < 2 ^ bits ∧ a + b = c := by
  rw [zoneCheckedAdd, require_bind_ok_iff, pure_ok_iff]

/-! ## Surroundings of a call -/

/-- Zone block of a call; `t13` says whether the hardfork T13 is active. -/
structure ZoneBlock where
  number : ℕ
  timestamp : ℕ
  timestampMillisPart : ℕ
  t13 : Bool

structure TempoHeader (W : Type) where
  parentHash : W
  number : ℕ
  stateRoot : W
  timestamp : ℕ
  timestampMillisPart : ℕ

structure DecryptionData (W : Type) where
  sharedSecret : W
  sharedSecretYParity : ℕ
  cpProof : W × W

/-- Libraries the precompiles call: RLP header decoding, strict ABI decoding of queue entries, the
Chaum-Pedersen check, key derivation, authenticated decryption, and point decompression. -/
structure ZoneLibraries (W : Type) where
  decodeHeader : Bytes → Option (TempoHeader W)
  decodeBounceBack : Bytes → Option WithdrawalBounceBackDeposit
  decodeDeposit : Bytes → Option (Deposit W)
  chaumPedersenVerify : (ephemeralX : W) → (ephemeralYParity : ℕ) → (sharedSecret : W) →
    (sharedSecretYParity : ℕ) → (keyX : W) → (keyYParity : ℕ) → (cpProof : W × W) → Bool
  hkdfSha256 : (ikm : W) → (salt : Bytes) → (info : List (Chunk W)) → W
  decrypt : (key : W) → (nonce : W) → (ciphertext : Bytes) → (tag : W) → Bytes × Bool
  recoverPoint : (x : Bytes) → (parity : UInt8) → Bool

/-- Surroundings of a zone call. `readPortal n` is the portal storage at Tempo block `n`, or `none`
when the provider cannot resolve it. A zero `portal` stands for execution without an L1. -/
structure ZoneCtx (W : Type) where
  block : ZoneBlock
  portal : Address
  readPortal : ℕ → Option (Portal W)
  lib : ZoneLibraries W

variable {W : Type}

def Zone.emit (z : Zone W) (e : ZoneEvent W) : Zone W := { z with logs := z.logs ++ [e] }

def Zone.anchoredPortal (z : Zone W) (ctx : ZoneCtx W) : Except ZoneError (Portal W) :=
  (ctx.readPortal z.tempo.tempoBlockNumber).elim (.error .storageUnavailable) .ok

def Zone.hasPortalRole (z : Zone W) (ctx : ZoneCtx W) (account : Address) (expected : Role) :
    Except ZoneError Bool := do
  let p ← z.anchoredPortal ctx
  pure (decide (p.gov.role account = expected))

def natOfBytes (bs : Bytes) : ℕ := bs.foldl (fun n b => n * 256 + b.toNat) 0

/-- The `width` low bytes of a number, big-endian. -/
def beBytes (width n : ℕ) : Bytes :=
  (List.range width).reverse.map fun i => UInt8.ofNat (n / 256 ^ i)

/-- `hkdf_info`: `[portal(20) | key_index(32) | eph_pub_x(32) | sender(20)]`. -/
def hkdfInfo (portal : Address) (keyIndex : ℕ) (ephPubX : W) (sender : Address) : List (Chunk W) :=
  [.raw (beBytes 20 portal ++ beBytes 32 keyIndex), .word ephPubX, .raw (beBytes 20 sender)]

/-- The key of a deposit's ciphertext. -/
def ZoneLibraries.aesKey (lib : ZoneLibraries W) (sharedSecret : W) (portal : Address)
    (keyIndex : ℕ) (ephPubX : W) (sender : Address) : W :=
  lib.hkdfSha256 sharedSecret "ecies-aes-key".toUTF8.toList (hkdfInfo portal keyIndex ephPubX sender)

variable [EvmWord W]

/-- `Withdrawal::sender_tag`. -/
def Withdrawal.senderTagOf (sender : Address) (txHash : W) (fallbackNonce : ℕ) : W :=
  if sender = 0 ∧ fallbackNonce = 0 then
    keccak256 [.raw (beBytes 20 0), .word 0]
  else keccak256 [.raw (beBytes 20 sender.val), .word txHash, .raw (beBytes 8 fallbackNonce)]

/-! ## Checkpoints -/

/-- Loop of `finalize_checkpoints` over the headers: the last hash and header. -/
def checkHeaders (ctx : ZoneCtx W) [DecidableEq W] :
    (previousHash : W) → (previousNumber : ℕ) → (last : Option (TempoHeader W)) → List Bytes →
      Except ZoneError (W × ℕ × Option (TempoHeader W))
  | hash, number, last, [] => pure (hash, number, last)
  | hash, number, _, rlp :: rest => do
      let header ← (ctx.lib.decodeHeader rlp).elim (.error .invalidRlpData) pure
      require (header.parentHash = hash) .invalidParentHash
      require (number + 1 < 2 ^ 64 ∧ number + 1 = header.number) .invalidTempoBlockNumber
      checkHeaders ctx (keccak256 [.raw rlp]) header.number (some header) rest

/-- `finalize_checkpoints`; the number written last is the anchor of later L1 reads. -/
def Zone.finalizeCheckpoints [DecidableEq W] (z : Zone W) (ctx : ZoneCtx W)
    (headers : List Bytes) : Except ZoneError (Zone W) := do
  require (¬ (headers = [] ∨ headers.length > MAX_TEMPO_HEADERS_PER_ZONE_BLOCK))
    .invalidRlpData
  require (z.tempo.tempoBlockHash ≠ 0) .invalidParentHash
  let (hash, number, last) ← checkHeaders ctx z.tempo.tempoBlockHash z.tempo.tempoBlockNumber
    none headers
  let finalMillis := last.elim 0 fun h => h.timestamp * 1000 + h.timestampMillisPart
  require (¬ ctx.block.timestamp * 1000 + ctx.block.timestampMillisPart < finalMillis)
    .invalidTimestamp
  require (z.tempo.tempoBlockNumber < number) .advanceTempoConflict
  pure ({ z with tempo := { tempoBlockHash := hash, tempoBlockNumber := number } }.emit
    (.tempoBlockFinalized hash number (last.elim 0 (·.stateRoot))))

theorem finalizeCheckpoints_ok [DecidableEq W] {z z' : Zone W} {ctx : ZoneCtx W}
    {headers : List Bytes} (h : z.finalizeCheckpoints ctx headers = .ok z') :
    ∃ tempo log, z.tempo.tempoBlockNumber < tempo.tempoBlockNumber ∧
      z' = { z with tempo := tempo }.emit log := by
  simp only [Zone.finalizeCheckpoints, ok_iff] at h
  obtain ⟨-, -, -, -, ⟨hash, number, last⟩, -, -, -, -, hlt, rfl⟩ := h
  exact ⟨⟨hash, number⟩, _, hlt, rfl⟩

end TempoZones
