import TempoZones.Zone.Outbox

/-!
# Zone inbox

A full import (`advanceTempo`) selects the next Tempo checkpoint, applies the token enablements and
processes queue entries, and it fails unless both hash chains meet the portal's. A deposit is minted
or, when its payload or its mint fails, turned into a pending refund; a bounce-back is minted to the
fallback recipient of its nonce or parked for it. A checkpoint-only import (`advanceTempoHeaders`)
moves the checkpoint alone.
-/

namespace TempoZones

open Lib Function ZoneError

variable {W : Type} [EvmWord W] [DecidableEq W]

/-! ## Queue entries -/

/-- A queue entry as it is passed to `advanceTempo`. -/
structure QueuedDeposit where
  depositType : DepositType
  depositData : Bytes

def QueuedDeposit.decode (lib : ZoneLibraries W) (queued : QueuedDeposit) :
    Except ZoneError (QueueEntry W) :=
  match queued.depositType with
  | .withdrawalBounceBack => (lib.decodeBounceBack queued.depositData).elim
      (.error .malformedCalldata) fun d => .ok (.bounceBack d)
  | .deposit => (lib.decodeDeposit queued.depositData).elim
      (.error .malformedCalldata) fun d => .ok (.deposit d)

def decodeDeposits (lib : ZoneLibraries W) :
    List QueuedDeposit → Except ZoneError (List (QueueEntry W))
  | [] => pure []
  | queued :: rest => do
      let entry ← queued.decode lib
      let entries ← decodeDeposits lib rest
      pure (entry :: entries)

/-- `recover_encrypted_payload`: recipient and memo, or `none` for a payload that does not
authenticate. -/
def recoverEncryptedPayload (ctx : ZoneCtx W) (deposit : Deposit W)
    (decryption : DecryptionData W) (key : W × ℕ) : Option (Address × W) :=
  if ctx.lib.chaumPedersenVerify deposit.encrypted.ephemeralPubkeyX
      deposit.encrypted.ephemeralPubkeyYParity decryption.sharedSecret
      decryption.sharedSecretYParity key.1 key.2 decryption.cpProof then
    let aesKey := ctx.lib.aesKey decryption.sharedSecret ctx.portal deposit.keyIndex
      deposit.encrypted.ephemeralPubkeyX deposit.sender
    let (plaintext, valid) := ctx.lib.decrypt aesKey deposit.encrypted.nonce
      deposit.encrypted.ciphertext deposit.encrypted.tag
    if valid = false ∨ plaintext.length ≠ ENCRYPTED_PAYLOAD_PLAINTEXT_SIZE then none
    else some (Fin.ofNat _ (natOfBytes (plaintext.take 20)),
      EvmWord.ofNat (natOfBytes ((plaintext.drop 20).take 32)))
  else none

/-- `read_encryption_key`; a slot past the end of the key list reads as zero. -/
def Zone.readEncryptionKey (z : Zone W) (ctx : ZoneCtx W) (keyIndex : ℕ) :
    Except ZoneError (W × ℕ) := do
  require (keyIndex < 2 ^ 64) underOverflow
  let p ← z.anchoredPortal ctx
  match p.params.encryptionKeys[keyIndex]? with
  | none => .error .invalidSharedSecretProof
  | some key => do
      require (key.x ≠ 0) invalidSharedSecretProof
      pure (key.x, key.yParity)

/-! ## Minting -/

inductive PolicyReply where
  | authorized
  | rejected
  | fails
  | aborts

inductive MintReply where
  | minted
  | fails
  | aborts

/-- Replies to one attempt to mint. -/
structure TryMint where
  policy : PolicyReply
  mint : MintReply

def Zone.minted (z : Zone W) (token : Address) (amount : ℕ) : Zone W :=
  { z with tokens := { z.tokens with
    supply := update z.tokens.supply token (z.tokens.supply token + amount) } }

/-- `try_mint`: ordinary failures are caught, system failures abort the call. -/
def Zone.tryMint (z : Zone W) (reply : TryMint) (token : Address) (amount : ℕ) :
    Except ZoneError (Bool × Zone W) :=
  match reply.policy, reply.mint with
  | .aborts, _ => .error .systemError
  | .rejected, _ => .ok (false, z)
  | .fails, _ => .ok (false, z)
  | .authorized, .aborts => .error .systemError
  | .authorized, .fails => .ok (false, z)
  | .authorized, .minted => .ok (true, z.minted token amount)

theorem tryMint_ok {z z' : Zone W} {reply : TryMint} {token : Address} {amount : ℕ} {ok : Bool}
    (h : z.tryMint reply token amount = .ok (ok, z')) :
    (ok = true ∧ z' = z.minted token amount) ∨ (ok = false ∧ z' = z) := by
  unfold Zone.tryMint at h
  split at h
  · cases h
  · cases h
    exact .inr ⟨rfl, rfl⟩
  · cases h
    exact .inr ⟨rfl, rfl⟩
  · cases h
  · cases h
    exact .inr ⟨rfl, rfl⟩
  · cases h
    exact .inl ⟨rfl, rfl⟩

/-! ## Processing -/

def Zone.failDeposit (z : Zone W) (currentHash : W) (deposit : Deposit W) :
    Except ZoneError (Zone W) := do
  let z ← z.enqueueDepositBounceBack ZONE_INBOX_ADDRESS deposit.token deposit.amount
    deposit.tempoRefundRecipient
  pure (z.emit (.depositFailed currentHash deposit.sender deposit.token deposit.amount))

def Zone.processDeposit (z : Zone W) (ctx : ZoneCtx W) (currentHash : W) (deposit : Deposit W)
    (decryption : DecryptionData W) (key : W × ℕ) (reply : TryMint) : Except ZoneError (Zone W) :=
  match recoverEncryptedPayload ctx deposit decryption key with
  | none => z.failDeposit currentHash deposit
  | some (recipient, memo) => do
      let (minted, z) ← z.tryMint reply deposit.token deposit.amount
      if minted then
        pure (z.emit (.depositProcessed currentHash deposit.sender recipient deposit.token
          deposit.amount memo))
      else z.failDeposit currentHash deposit

def WithdrawalBounceBackDeposit.fallbackNonce (d : WithdrawalBounceBackDeposit) : ℕ :=
  uint64 d.recipient.val

/-- Add to a parked bounce-back; the slot is incremented as a 256-bit word. -/
def Zone.park (z : Zone W) (token owner : Address) (amount : ℕ) : Zone W :=
  { z with inbox := { z.inbox with
    withdrawalBounceBacks := update z.inbox.withdrawalBounceBacks token
      (update (z.inbox.withdrawalBounceBacks token) owner
        (z.inbox.withdrawalBounceBacks token owner + amount)) } }

def Zone.processWithdrawalBounceBack (z : Zone W) (deposit : WithdrawalBounceBackDeposit)
    (reply : TryMint) : Except ZoneError (Zone W) := do
  let (recipient, z) ← z.consumeFallbackRecipient ZONE_INBOX_ADDRESS deposit.fallbackNonce
  let (minted, z) ← z.tryMint reply deposit.token deposit.amount
  if minted then
    pure (z.emit (.withdrawalBounceBackProcessed recipient deposit.token deposit.amount))
  else do
    require (z.inbox.withdrawalBounceBacks deposit.token recipient + deposit.amount < 2 ^ 256)
      underOverflow
    pure ((z.park deposit.token recipient deposit.amount).emit
      (.withdrawalBounceBackPending recipient deposit.token deposit.amount))

def Zone.record (z : Zone W) (e : QueueEntry W) : Zone W :=
  { z with history := { z.history with processed := z.history.processed ++ [e] } }

/-- Loop of `advance_tempo` over the queue entries: the hash chain, the decryption data left over
and the state. `mints i` answers for the `i`-th entry. -/
def processQueue (ctx : ZoneCtx W) (mints : ℕ → TryMint) :
    ℕ → List (QueueEntry W) → List (DecryptionData W) → W → Zone W →
      Except ZoneError (W × List (DecryptionData W) × Zone W)
  | _, [], decryptions, hash, z => pure (hash, decryptions, z)
  | i, .bounceBack d :: rest, decryptions, hash, z => do
      let z ← z.processWithdrawalBounceBack d (mints i)
      processQueue ctx mints (i + 1) rest decryptions (QueueEntry.hashWithTail (.bounceBack d) hash)
        (z.record (.bounceBack d))
  | _, .deposit _ :: _, [], _, _ => .error .missingDecryptionData
  | i, .deposit d :: rest, decryption :: decryptions, hash, z => do
      let key ← z.readEncryptionKey ctx d.keyIndex
      let hash := QueueEntry.hashWithTail (.deposit d) hash
      let z ← z.processDeposit ctx hash d decryption key (mints i)
      processQueue ctx mints (i + 1) rest decryptions hash (z.record (.deposit d))

/-! ## Token enablements -/

/-- `enable_tokens`; `enables i` says whether initializing the `i`-th token succeeds. -/
def enableTokens (enables : ℕ → Bool) : ℕ → List EnabledToken → Zone W → Except ZoneError (Zone W)
  | _, [], z => pure z
  | i, token :: rest, z => do
      require (enables i = true) tokenError
      enableTokens enables (i + 1) rest ({ z with tokens := { z.tokens with
        initialized := update z.tokens.initialized token.token true } }.emit
        (.tokenEnabled token))

/-- Portal check of the token commitment, with the count that T13 bootstraps once. -/
def Zone.checkTokenEnablements (z : Zone W) (ctx : ZoneCtx W) (hash : W) :
    Except ZoneError (Option ℕ) :=
  if ctx.portal ≠ 0 then do
    let p ← z.anchoredPortal ctx
    require (p.registry.tokenEnablementHash = hash) invalidTokenEnablementHash
    pure (if ctx.block.t13 = true ∧ z.inbox.processedEnabledTokenCount = 0 then
      some p.registry.enabledTokens.length else none)
  else pure none

def Zone.nextTokenCount (z : Zone W) (ctx : ZoneCtx W) (portalCount : Option ℕ) (supplied : ℕ) :
    Except ZoneError ℕ :=
  if ctx.block.t13 = true then
    match portalCount with
    | some count => do
        require (count < 2 ^ 64) underOverflow
        pure count
    | none => zoneCheckedAdd 64 z.inbox.processedEnabledTokenCount supplied
  else pure z.inbox.processedEnabledTokenCount

/-- Token part of `advance_tempo`. -/
def Zone.advanceTokens (z : Zone W) (ctx : ZoneCtx W) (tokens : List EnabledToken)
    (enables : ℕ → Bool) : Except ZoneError (Zone W) := do
  let hash := prefixChain EnabledToken.hashWithPrevious z.inbox.processedTokenEnablementHash tokens
  let portalCount ← z.checkTokenEnablements ctx hash
  let z ← enableTokens enables 0 tokens z
  let count ← z.nextTokenCount ctx portalCount tokens.length
  pure { z with
    inbox := { z.inbox with
      processedTokenEnablementHash := hash, processedEnabledTokenCount := count }
    history := { z.history with processedTokens := z.history.processedTokens ++ tokens } }

/-! ## Imports -/

structure AdvanceTempo (W : Type) where
  header : Bytes
  deposits : List QueuedDeposit
  decryptions : List (DecryptionData W)
  enabledTokens : List EnabledToken

/-- Replies of the zone's tokens to a full import. -/
structure AdvanceReply where
  enables : ℕ → Bool
  mints : ℕ → TryMint

def Zone.commit (z : Zone W) (hash : W) (number : ℕ) (log : ZoneEvent W) : Zone W :=
  { z with
    inbox := { z.inbox with
      processedDepositQueueHash := hash, processedDepositNumber := number }
    history := { z.history with fullAnchor := some z.tempo.tempoBlockNumber } }.emit log

def Zone.advanceTempo (z : Zone W) (ctx : ZoneCtx W) (caller : Address) (call : AdvanceTempo W)
    (reply : AdvanceReply) : Except ZoneError (Zone W) := do
  require (caller = 0) onlySequencer
  let deposits ← decodeDeposits ctx.lib call.deposits
  let z ← z.finalizeCheckpoints ctx [call.header]
  let z ← z.advanceTokens ctx call.enabledTokens reply.enables
  let (hash, leftover, z) ← processQueue ctx reply.mints 0 deposits call.decryptions
    z.inbox.processedDepositQueueHash z
  require (leftover.isEmpty = true) extraDecryptionData
  if ctx.portal ≠ 0 then do
    let p ← z.anchoredPortal ctx
    require (p.deposits.currentDepositQueueHash = hash) invalidDepositQueueHash
  let number ← zoneCheckedAdd 64 z.inbox.processedDepositNumber call.deposits.length
  pure (z.commit hash number (.tempoAdvanced z.tempo.tempoBlockHash z.tempo.tempoBlockNumber
    call.deposits.length hash number
    (if ctx.block.t13 then some z.inbox.processedEnabledTokenCount else none)))

/-- `advance_tempo_headers`, dispatched since T13. -/
def Zone.advanceTempoHeaders (z : Zone W) (ctx : ZoneCtx W) (caller : Address)
    (headers : List Bytes) : Except ZoneError (Zone W) := do
  require (ctx.block.t13 = true) unknownSelector
  require (caller = 0) onlySequencer
  z.finalizeCheckpoints ctx headers

/-- `claim_refund`; the parked amount is read as a 128-bit value. -/
def Zone.claimRefund (z : Zone W) (reply : TryMint) (caller token : Address) :
    Except ZoneError (Zone W) := do
  let amount := uint128 (z.inbox.withdrawalBounceBacks token caller)
  let (minted, z) ← z.tryMint reply token amount
  require (minted = true) policyForbids
  pure ({ z with inbox := { z.inbox with
    withdrawalBounceBacks := update z.inbox.withdrawalBounceBacks token
      (update (z.inbox.withdrawalBounceBacks token) caller 0) } }.emit
    (.refundClaimed caller token amount))

end TempoZones
