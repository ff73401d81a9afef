import TempoZones.Portal.Tokens
import TempoZones.Zone.State

/-!
# Zone outbox

Withdrawal requests with their policy checks, block cap, fee and burn; the pending withdrawals of
failed deposits; the fallback recipients; and the finalization of a batch, which hashes the pending
withdrawals from the last to the first. A request ends in `Zone.withRequest`, a finalization in
`Zone.withBatch` with the queue hash of the withdrawals it lists.
-/

namespace TempoZones

open Lib Function ZoneError List

variable {W : Type} [EvmWord W] [DecidableEq W] {reply : BurnReply} {caller : Address}

/-! ## Checks -/

def Zone.ensureSequencer (z : Zone W) (ctx : ZoneCtx W) (caller : Address) :
    Except ZoneError Unit :=
  if caller = 0 then pure ()
  else do
    let sequencer ← z.hasPortalRole ctx caller .sequencer
    require (sequencer = true) onlySequencer

def Zone.validateWithdrawalPolicy (z : Zone W) (ctx : ZoneCtx W) (token recipient : Address)
    (gasLimit : ℕ) : Except ZoneError Unit := do
  let p ← z.anchoredPortal ctx
  require ((p.registry.tokenConfigs token).enabled = true) tokenNotEnabled
  require (¬ ctx.block.timestamp < p.gov.pauseExpiry) portalIsPaused
  if gasLimit = 0 then
    if p.gov.isAccessEnforced = false ∧ p.gov.isGatewayEnforced = false then pure ()
    else do
      require (¬ (p.gov.isGatewayEnforced = true ∧ p.gov.role recipient = .callbackGateway))
        invalidCallbackTarget
      require (¬ (p.gov.isAccessEnforced = true ∧ p.gov.role recipient ≠ .account))
        (accountNotAllowed recipient)
  else
    require (¬ (p.gov.isGatewayEnforced = true ∧ p.gov.role recipient ≠ .callbackGateway))
      invalidCallbackTarget

def validateGasLimit (gasLimit : ℕ) : Except ZoneError Unit :=
  require (¬ gasLimit > MAX_WITHDRAWAL_GAS_LIMIT) gasLimitTooHigh

def ZoneOutbox.calculateFeeUnchecked (o : ZoneOutbox W) (gasLimit : ℕ) : Except ZoneError ℕ := do
  let fee := (WITHDRAWAL_BASE_GAS + gasLimit) * o.tempoGasRate
  require (fee < 2 ^ 128) underOverflow
  pure fee

def ZoneOutbox.enforceWithdrawalBlockCap (o : ZoneOutbox W) (block : ZoneBlock) :
    Except ZoneError (ZoneOutbox W) :=
  if o.maxWithdrawalsPerBlock = 0 then pure o
  else do
    let o := if block.number ≠ o.currentBlockNumber then
      { o with currentBlockNumber := block.number, withdrawalsThisBlock := 0 } else o
    require (¬ o.withdrawalsThisBlock ≥ o.maxWithdrawalsPerBlock)
      tooManyWithdrawalsThisBlock
    let withdrawals ← zoneCheckedAdd 32 o.withdrawalsThisBlock 1
    pure { o with withdrawalsThisBlock := withdrawals }

/-- `decode_compressed_public_key(..).is_some()`. -/
def ZoneLibraries.isCompressedPublicKey (lib : ZoneLibraries W) (encoded : Bytes) : Bool :=
  match encoded with
  | parity :: x => decide (encoded.length = COMPRESSED_PUBLIC_KEY_SIZE) &&
      (decide (parity = 2) || decide (parity = 3)) && lib.recoverPoint x parity
  | [] => false

/-! ## Requests -/

def Zone.enqueue (z : Zone W) (pending : PendingWithdrawal W) (fee : ℕ) :
    Except ZoneError (Zone W) := do
  let index := z.outbox.nextWithdrawalIndex
  let nextIndex ← zoneCheckedAdd 64 index 1
  pure ({ z with outbox := { z.outbox with
    pendingWithdrawals := z.outbox.pendingWithdrawals ++ [pending]
    nextWithdrawalIndex := nextIndex } }.emit (.withdrawalRequested index pending fee))

def PendingWithdrawal.fromRequest (sender : Address) (txHash : W) (fallbackNonce : ℕ)
    (call : RequestWithdrawal W) : PendingWithdrawal W where
  token := call.token
  sender := sender
  txHash := txHash
  recipient := call.recipient
  amount := call.amount
  memo := call.memo
  gasLimit := call.gasLimit
  fallbackNonce := fallbackNonce
  callbackData := call.data
  revealTo := call.revealTo

def PendingWithdrawal.fromBounceBack (token : Address) (amount : ℕ)
    (tempoRefundRecipient : Address) : PendingWithdrawal W where
  token := token
  sender := 0
  txHash := 0
  recipient := tempoRefundRecipient
  amount := amount
  memo := 0
  gasLimit := 0
  fallbackNonce := 0
  callbackData := []
  revealTo := []

/-- Replies of the zone's tokens to a withdrawal request. -/
structure BurnReply where
  isTIP20 : (token : Address) → Bool
  transferFrom : (token owner : Address) → ℕ → TransferOutcome
  burns : (token : Address) → ℕ → Bool

/-- `transfer_and_burn`: the outbox can only burn tokens that exist. -/
def Zone.transferAndBurn (z : Zone W) (reply : BurnReply) (token owner : Address) (amount : ℕ) :
    Except ZoneError (Zone W) := do
  require (reply.transferFrom token owner amount ≠ .reverts) tokenError
  require (reply.transferFrom token owner amount ≠ .refuses) transferFailed
  require (reply.burns token amount = true ∧ amount ≤ z.tokens.supply token) tokenError
  pure { z with tokens := { z.tokens with
    supply := update z.tokens.supply token (z.tokens.supply token - amount) } }

/-- Collection of amount and fee in `request_withdrawal`. -/
def Zone.collectWithdrawal (z : Zone W) (reply : BurnReply) (caller feePayer token : Address)
    (amount fee : ℕ) : Except ZoneError (Zone W) :=
  if caller = feePayer then do
    let total ← zoneCheckedAdd 128 amount fee
    z.transferAndBurn reply token caller total
  else do
    let z ← z.transferAndBurn reply token caller amount
    if fee ≠ 0 then z.transferAndBurn reply token feePayer fee else pure z

def Zone.requestWithdrawal (z : Zone W) (ctx : ZoneCtx W) (reply : BurnReply)
    (caller feePayer : Address) (currentTxHash : W) (call : RequestWithdrawal W) :
    Except ZoneError (Zone W) := do
  require (call.zoneFallbackRecipient ≠ 0) invalidFallbackRecipient
  require (call.amount ≠ 0) zeroAmountWithdrawal
  require (¬ call.data.length > MAX_CALLBACK_DATA_SIZE) callbackDataTooLarge
  validateGasLimit call.gasLimit
  require (currentTxHash ≠ 0) invalidCurrentTxHash
  require (reply.isTIP20 call.token = true) tokenError
  require (z.tokens.initialized call.token = true) uninitialized
  z.validateWithdrawalPolicy ctx call.token call.recipient call.gasLimit
  let outbox ← z.outbox.enforceWithdrawalBlockCap ctx.block
  require (¬ (call.revealTo ≠ [] ∧ ctx.lib.isCompressedPublicKey call.revealTo = false))
    invalidRevealTo
  let fee ← z.outbox.calculateFeeUnchecked call.gasLimit
  let z ← { z with outbox := outbox }.collectWithdrawal reply caller feePayer call.token
    call.amount fee
  let fallbackNonce ← zoneCheckedAdd 64 z.outbox.lastFallbackNonce 1
  let z := { z with
    outbox := { z.outbox with
      lastFallbackNonce := fallbackNonce
      fallbackRecipients := update z.outbox.fallbackRecipients fallbackNonce
        call.zoneFallbackRecipient }
    history := { z.history with
      requests := z.history.requests ++ [call]
      burnedFees := update z.history.burnedFees call.token
        (z.history.burnedFees call.token + fee) } }
  z.enqueue (.fromRequest caller currentTxHash fallbackNonce call) fee

/-! ## Inbox entry points -/

def Zone.enqueueDepositBounceBack (z : Zone W) (caller token : Address) (amount : ℕ)
    (tempoRefundRecipient : Address) : Except ZoneError (Zone W) := do
  require (caller = ZONE_INBOX_ADDRESS) onlyZoneInbox
  z.enqueue (.fromBounceBack token amount tempoRefundRecipient) 0

/-- `consume_fallback_recipient`: the recipient and the state without it. -/
def Zone.consumeFallbackRecipient (z : Zone W) (caller : Address) (nonce : ℕ) :
    Except ZoneError (Address × Zone W) := do
  require (caller = ZONE_INBOX_ADDRESS) onlyZoneInbox
  let recipient := z.outbox.fallbackRecipients nonce
  require (recipient ≠ 0) invalidFallbackRecipient
  pure (recipient, { z with
    outbox := { z.outbox with
      fallbackRecipients := update z.outbox.fallbackRecipients nonce 0 }
    history := { z.history with consumed := z.history.consumed ++ [nonce] } })

/-! ## Finalization -/

def PendingWithdrawal.intoWithdrawal (p : PendingWithdrawal W) (encryptedSender : Bytes) :
    Except ZoneError (Withdrawal W) := do
  let expected := if p.revealTo = [] then 0 else AUTHENTICATED_WITHDRAWAL_ENCRYPTED_SIZE
  require (encryptedSender.length = expected)
    (invalidEncryptedSenderLength encryptedSender.length expected)
  pure { token := p.token, senderTag := Withdrawal.senderTagOf p.sender p.txHash p.fallbackNonce
         recipient := p.recipient, amount := p.amount, memo := p.memo, gasLimit := p.gasLimit
         fallbackNonce := p.fallbackNonce, callbackData := p.callbackData
         encryptedSender := encryptedSender }

/-- Loop of `finalize_withdrawal_batch` over the pending withdrawals in reverse: the withdrawals and
the hash of their queue. -/
def linkBatch : List (PendingWithdrawal W × Bytes) → Except ZoneError (List (Withdrawal W) × W)
  | [] => pure ([], 0)
  | (pending, encryptedSender) :: rest => do
      let (withdrawals, tail) ← linkBatch rest
      let withdrawal ← pending.intoWithdrawal encryptedSender
      pure (withdrawal :: withdrawals, withdrawal.hashWithTail tail)

/-- State after a batch with the given withdrawals and queue hash was finalized. -/
def Zone.withBatch (z : Zone W) (block : ZoneBlock) (withdrawals : List (Withdrawal W))
    (withdrawalQueueHash : W) : Zone W :=
  let index := z.outbox.withdrawalBatchIndex + 1
  let batch : FinalizedBatch W :=
    { withdrawals := withdrawals, withdrawalQueueHash := withdrawalQueueHash
      withdrawalBatchIndex := index
      processedDepositQueueHash := z.inbox.processedDepositQueueHash
      processedDepositNumber := z.inbox.processedDepositNumber
      processedEnabledTokenCount := z.inbox.processedEnabledTokenCount
      tempoBlockNumber := z.tempo.tempoBlockNumber }
  { z with
    outbox := { z.outbox with
      pendingWithdrawals := [], withdrawalBatchIndex := index
      withdrawalQueueHash := withdrawalQueueHash, lastFinalizedTimestamp := block.timestamp }
    history := { z.history with batches := z.history.batches ++ [batch] } }.emit
    (.batchFinalized withdrawalQueueHash index)

theorem withBatch_withdrawals (z : Zone W) (block : ZoneBlock) (withdrawals : List (Withdrawal W))
    (hash : W) : (z.withBatch block withdrawals hash).history.batches.flatMap (·.withdrawals) =
      z.history.batches.flatMap (·.withdrawals) ++ withdrawals := by
  show (z.history.batches ++ [_]).flatMap _ = _
  rw [flatMap_append, flatMap_singleton]

def Zone.finalizeWithdrawalBatch (z : Zone W) (ctx : ZoneCtx W) (caller : Address)
    (count blockNumber : ℕ) (encryptedSenders : List Bytes) : Except ZoneError (Zone W) := do
  require (caller = 0) onlySequencer
  require (blockNumber = ctx.block.number) invalidBlockNumber
  let pending := z.outbox.pendingWithdrawals
  require (count = pending.length) (invalidWithdrawalCount count pending.length)
  require (encryptedSenders.length = pending.length)
    (invalidEncryptedSenderCount encryptedSenders.length pending.length)
  let (withdrawals, withdrawalQueueHash) ← linkBatch (pending.zip encryptedSenders)
  let _ ← zoneCheckedAdd 64 z.outbox.withdrawalBatchIndex 1
  pure (z.withBatch ctx.block withdrawals withdrawalQueueHash)

/-! ## Settings -/

def Zone.setTempoGasRate (z : Zone W) (ctx : ZoneCtx W) (caller : Address) (tempoGasRate : ℕ) :
    Except ZoneError (Zone W) := do
  z.ensureSequencer ctx caller
  let p ← z.anchoredPortal ctx
  require (¬ tempoGasRate > p.params.maxTempoGasRate) gasFeeRateTooHigh
  pure ({ z with outbox := { z.outbox with tempoGasRate := tempoGasRate } }.emit
    (.tempoGasRateUpdated tempoGasRate))

def Zone.setMaxWithdrawalsPerBlock (z : Zone W) (ctx : ZoneCtx W) (caller : Address)
    (maxWithdrawalsPerBlock : ℕ) : Except ZoneError (Zone W) := do
  z.ensureSequencer ctx caller
  pure ({ z with outbox := { z.outbox with
    maxWithdrawalsPerBlock := maxWithdrawalsPerBlock } }.emit
    (.maxWithdrawalsPerBlockUpdated maxWithdrawalsPerBlock))

/-! ## What outbox calls can do -/

def Zone.burned (z : Zone W) (token : Address) (amount : ℕ) : Zone W :=
  { z with tokens := { z.tokens with
    supply := update z.tokens.supply token (z.tokens.supply token - amount) } }

/-- State after a withdrawal request that became `pending` and burned `fee` on top of its
amount. -/
def Zone.withRequest (z : Zone W) (currentBlockNumber withdrawalsThisBlock : ℕ)
    (pending : PendingWithdrawal W) (call : RequestWithdrawal W) (fee : ℕ) : Zone W :=
  { z.burned pending.token (pending.amount + fee) with
    outbox := { z.outbox with
      currentBlockNumber := currentBlockNumber
      withdrawalsThisBlock := withdrawalsThisBlock
      pendingWithdrawals := z.outbox.pendingWithdrawals ++ [pending]
      nextWithdrawalIndex := z.outbox.nextWithdrawalIndex + 1
      lastFallbackNonce := pending.fallbackNonce
      fallbackRecipients := update z.outbox.fallbackRecipients pending.fallbackNonce
        call.zoneFallbackRecipient }
    history := { z.history with
      requests := z.history.requests ++ [call]
      burnedFees := update z.history.burnedFees pending.token
        (z.history.burnedFees pending.token + fee) } }.emit
    (.withdrawalRequested z.outbox.nextWithdrawalIndex pending fee)

variable {z z' : Zone W} {ctx : ZoneCtx W}

theorem transferAndBurn_ok {token owner : Address} {amount : ℕ}
    (h : z.transferAndBurn reply token owner amount = .ok z') :
    amount ≤ z.tokens.supply token ∧ z' = z.burned token amount := by
  simp only [Zone.transferAndBurn, ok_iff] at h
  obtain ⟨-, -, -, -, -, ⟨-, hle⟩, rfl⟩ := h
  exact ⟨hle, rfl⟩

theorem burned_burned (z : Zone W) (token : Address) (a b : ℕ) :
    (z.burned token a).burned token b = z.burned token (a + b) := by
  simp only [Zone.burned, update_self, update_idem, Nat.sub_sub]

theorem collectWithdrawal_ok {feePayer token : Address} {amount fee : ℕ}
    (h : z.collectWithdrawal reply caller feePayer token amount fee = .ok z') :
    amount + fee ≤ z.tokens.supply token ∧ z' = z.burned token (amount + fee) := by
  unfold Zone.collectWithdrawal at h
  split at h
  · obtain ⟨total, htotal, h⟩ := bind_ok_iff.1 h
    obtain ⟨-, rfl⟩ := zoneCheckedAdd_eq_ok.1 htotal
    exact transferAndBurn_ok h
  obtain ⟨z₁, h₁, hrest⟩ := bind_ok_iff.1 h
  obtain ⟨hamount, rfl⟩ := transferAndBurn_ok h₁
  by_cases hzero : fee ≠ 0
  · rw [if_pos hzero] at hrest
    obtain ⟨hfee, rfl⟩ := transferAndBurn_ok hrest
    have hleft : (z.burned token amount).tokens.supply token = z.tokens.supply token - amount :=
      update_self _ _ _
    refine ⟨?_, burned_burned z token amount fee⟩
    omega
  rw [if_neg hzero] at hrest
  obtain rfl : fee = 0 := not_not.1 hzero
  cases pure_ok_iff.1 hrest
  exact ⟨hamount, rfl⟩

theorem enforceWithdrawalBlockCap_ok {o o' : ZoneOutbox W} {block : ZoneBlock}
    (h : o.enforceWithdrawalBlockCap block = .ok o') :
    ∃ currentBlockNumber withdrawalsThisBlock, o' = { o with
      currentBlockNumber := currentBlockNumber, withdrawalsThisBlock := withdrawalsThisBlock } := by
  unfold ZoneOutbox.enforceWithdrawalBlockCap at h
  split at h
  · cases pure_ok_iff.1 h
    exact ⟨_, _, rfl⟩
  simp only [ok_iff] at h
  obtain ⟨-, -, n, -, rfl⟩ := h
  split
  · exact ⟨_, _, rfl⟩
  · exact ⟨_, _, rfl⟩

theorem enqueue_ok {pending : PendingWithdrawal W} {fee : ℕ} (h : z.enqueue pending fee = .ok z') :
    z' = { z with outbox := { z.outbox with
      pendingWithdrawals := z.outbox.pendingWithdrawals ++ [pending]
      nextWithdrawalIndex := z.outbox.nextWithdrawalIndex + 1 } }.emit
      (.withdrawalRequested z.outbox.nextWithdrawalIndex pending fee) := by
  simp only [Zone.enqueue, ok_iff, zoneCheckedAdd_eq_ok] at h
  obtain ⟨_, ⟨-, rfl⟩, rfl⟩ := h
  rfl

/-- A successful request burns its amount and a fee, takes the next nonce and stores its nonzero
fallback recipient under it. -/
theorem requestWithdrawal_ok {feePayer : Address} {txHash : W} {call : RequestWithdrawal W}
    (h : z.requestWithdrawal ctx reply caller feePayer txHash call = .ok z') :
    ∃ currentBlockNumber withdrawalsThisBlock fee,
      call.zoneFallbackRecipient ≠ 0 ∧ z.outbox.lastFallbackNonce + 1 < 2 ^ 64 ∧
      call.amount + fee ≤ z.tokens.supply call.token ∧
      z' = z.withRequest currentBlockNumber withdrawalsThisBlock
        (.fromRequest caller txHash (z.outbox.lastFallbackNonce + 1) call) call fee := by
  simp only [Zone.requestWithdrawal, ok_iff] at h
  obtain ⟨-, hrecipient, -, -, -, -, -, -, -, -, -, -, -, -, -, -, o, ho, -, -, fee, -, z₁, hz₁,
    nonce, hnonce, h⟩ := h
  obtain ⟨current, this, rfl⟩ := enforceWithdrawalBlockCap_ok ho
  obtain ⟨hsupply, rfl⟩ := collectWithdrawal_ok hz₁
  obtain ⟨hlt, rfl⟩ := zoneCheckedAdd_eq_ok.1 hnonce
  exact ⟨current, this, fee, hrecipient, hlt, hsupply, enqueue_ok h⟩

/-- The loop over the pending withdrawals yields the queue hash of the withdrawals it lists, which
keep token, amount and nonce. -/
theorem linkBatch_ok {l : List (PendingWithdrawal W × Bytes)} {ws : List (Withdrawal W)} {hash : W}
    (h : linkBatch l = .ok (ws, hash)) :
    hash = Withdrawal.queueHash ws ∧
      List.Forall₂ (fun p w => w.token = p.1.token ∧ w.amount = p.1.amount ∧
        w.fallbackNonce = p.1.fallbackNonce) l ws := by
  induction l generalizing ws hash with
  | nil =>
    cases pure_ok_iff.1 h
    exact ⟨rfl, .nil⟩
  | cons x rest ih =>
    simp only [linkBatch, PendingWithdrawal.intoWithdrawal, ok_iff, Prod.mk.injEq] at h
    obtain ⟨⟨ws', tail⟩, hrest, w, ⟨-, -, rfl⟩, rfl, rfl⟩ := h
    obtain ⟨rfl, hlinked⟩ := ih hrest
    exact ⟨rfl, .cons ⟨rfl, rfl, rfl⟩ hlinked⟩

theorem finalizeWithdrawalBatch_ok {count blockNumber : ℕ} {encryptedSenders : List Bytes}
    (h : z.finalizeWithdrawalBatch ctx caller count blockNumber encryptedSenders = .ok z') :
    ∃ withdrawals, z.outbox.withdrawalBatchIndex + 1 < 2 ^ 64 ∧
      z' = z.withBatch ctx.block withdrawals (Withdrawal.queueHash withdrawals) ∧
      List.Forall₂ (fun p w => w.token = p.token ∧ w.amount = p.amount ∧
        w.fallbackNonce = p.fallbackNonce) z.outbox.pendingWithdrawals withdrawals := by
  simp only [Zone.finalizeWithdrawalBatch, ok_iff, zoneCheckedAdd_eq_ok] at h
  obtain ⟨-, -, -, -, -, -, -, hsenders, ⟨ws, hash⟩, hlink, -, ⟨hlt, -⟩, rfl⟩ := h
  obtain ⟨rfl, hlinked⟩ := linkBatch_ok hlink
  refine ⟨ws, hlt, rfl, ?_⟩
  have hfst : (z.outbox.pendingWithdrawals.zip encryptedSenders).map Prod.fst =
      z.outbox.pendingWithdrawals := map_fst_zip hsenders.ge
  rw [← hfst, forall₂_map_left_iff]
  exact hlinked

end TempoZones
