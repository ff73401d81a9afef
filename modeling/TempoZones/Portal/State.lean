import TempoZones.Lib.Ledger
import TempoZones.Lib.Outcome
import TempoZones.Types

/-!
# State of the zone portal on Tempo

Storage of `ZonePortal`, grouped by the functions that write it. `L1` adds what portal calls observe
and change around it: token balances, the messenger's re-entrancy guard, the portal's logs, and
history variables that record committed effects but are not storage. Every portal call is a function
`L1 W → Except Revert (L1 W)`: a revert leaves the state to the caller unchanged.
-/

namespace TempoZones

open Lib

/-! ## Constants -/

def FIXED_DEPOSIT_GAS : ℕ := 100000
def MAX_UNPROCESSED_DEPOSITS : ℕ := 230
def MAX_UNPROCESSED_TOKEN_ENABLEMENTS : ℕ := 8
def MAX_TOKEN_METADATA_BYTES : ℕ := 31
def WITHDRAWAL_PROCESSING_DEPOSIT_RESERVE : ℕ := 20
def TEMPO_BASE_FEE_SCALE : ℕ := 1000000000000
def MAX_WITHDRAWAL_GAS_LIMIT : ℕ := 10000000
def MAX_GAS_FEE_RATE : ℕ := 1000000000000000000
def MAX_SEQUENCERS : ℕ := 8
def PAUSE_DURATION : ℕ := 2592000
def ABDICATION_DELAY : ℕ := PAUSE_DURATION
def ENCRYPTED_PAYLOAD_PLAINTEXT_SIZE : ℕ := 64
def ENCRYPTION_KEY_GRACE_PERIOD : ℕ := 86400
/-- `type(uint256).max`, returned when a batch consumes no queue index. -/
def NO_QUEUE_INDEX : ℕ := 2 ^ 256 - 1
def ZONE_FACTORY_ADDRESS : Address := 0x5aF2000000000000000000000000000000000000
def ZONE_PORTAL_IMPL_ADDRESS : Address := 0x5AD1000000000000000000000000000000000000
def TIP403_REGISTRY_ADDRESS : Address := 0x403C000000000000000000000000000000000000

/-! ## Storage -/

/-- Roles, sequencer set, leadership, admin, enforcement modes, pause and abdication. -/
structure Governance where
  initialized : Bool
  zoneId : ℕ
  messenger : Address
  verifier : Address
  admin : Address
  pendingAdmin : Address
  sequencerSetVersion : ℕ
  sequencerThreshold : ℕ
  sequencers : List Address
  role : Address → Role
  isAccessEnforced : Bool
  isGatewayEnforced : Bool
  leader : Address
  leaderEpoch : ℕ
  leaderActivationTempoBlock : ℕ
  pauseExpiry : ℕ
  abdicationEffectiveAt : Capability → ℕ

/-- Rates, operator endpoint and encryption-key history. -/
structure Params (W : Type) where
  zoneGasRate : ℕ
  maxTempoGasRate : ℕ
  bouncebackGas : ℕ
  rpcUrl : Bytes
  encryptionKeys : List (EncryptionKeyEntry W)

/-- Enabled tokens and the zone's progress through them. -/
structure TokenRegistry (W : Type) where
  tokenConfigs : Address → TokenConfig
  enabledTokens : List Address
  tokenEnablementHash : W
  lastProcessedEnabledTokenCount : ℕ
  tokenEnablementCursorInitialized : Bool

structure DepositCursor (W : Type) where
  currentDepositQueueHash : W
  depositCount : ℕ
  lastProcessedDepositNumber : ℕ

/-- Last settled batch. -/
structure BatchCursor (W : Type) where
  withdrawalBatchIndex : ℕ
  blockHash : W
  zoneHeight : ℕ
  lastSyncedTempoBlockNumber : ℕ

/-- FIFO of withdrawal batches: one hash chain per slot from `head` to `tail`. -/
structure WithdrawalQueue (W : Type) where
  head : ℕ
  tail : ℕ
  slots : ℕ → W

/-- Values of `_withdrawalReentrancyStatus`. -/
inductive WithdrawalStatus where
  | notEntered
  | processing
  | callbackDepositAvailable
  | callbackDepositConsumed
  deriving DecidableEq, Repr

structure Portal (W : Type) where
  gov : Governance
  params : Params W
  registry : TokenRegistry W
  deposits : DepositCursor W
  batches : BatchCursor W
  withdrawalQueue : WithdrawalQueue W
  refunds : Address → Address → ℕ
  withdrawalReentrancyStatus : WithdrawalStatus

/-- Governance storage before `initialize`. -/
def Governance.empty : Governance where
  initialized := false
  zoneId := 0
  messenger := 0
  verifier := 0
  admin := 0
  pendingAdmin := 0
  sequencerSetVersion := 0
  sequencerThreshold := 0
  sequencers := []
  role := fun _ => .none
  isAccessEnforced := false
  isGatewayEnforced := false
  leader := 0
  leaderEpoch := 0
  leaderActivationTempoBlock := 0
  pauseExpiry := 0
  abdicationEffectiveAt := fun _ => 0

/-- Storage of a portal account before `initialize`. -/
def Portal.empty {W : Type} [EvmWord W] : Portal W where
  gov := .empty
  params :=
    { zoneGasRate := 0, maxTempoGasRate := 0, bouncebackGas := 0, rpcUrl := []
      encryptionKeys := [] }
  registry :=
    { tokenConfigs := fun _ => ⟨false, false⟩, enabledTokens := [], tokenEnablementHash := 0
      lastProcessedEnabledTokenCount := 0, tokenEnablementCursorInitialized := false }
  deposits :=
    { currentDepositQueueHash := 0, depositCount := 0, lastProcessedDepositNumber := 0 }
  batches :=
    { withdrawalBatchIndex := 0, blockHash := 0, zoneHeight := 0
      lastSyncedTempoBlockNumber := 0 }
  withdrawalQueue := { head := 0, tail := 0, slots := fun _ => 0 }
  refunds := fun _ _ => 0
  withdrawalReentrancyStatus := .notEntered

/-! ## Events and reverts -/

/-- Logs of the portal. `depositMade` lists the fields of the queued deposit, the fee and the
deposit number. -/
inductive PortalEvent (W : Type) where
  | batchSubmitted (withdrawalBatchIndex withdrawalQueueIndex : ℕ)
      (nextProcessedDepositQueueHash nextBlockHash withdrawalQueueHash : W)
      (lastProcessedDepositNumber lastProcessedEnabledTokenCount : ℕ)
  | withdrawalProcessed (recipient : Address) (senderTag : W) (token : Address) (amount : ℕ)
      (callbackSuccess : Bool)
  | withdrawalBounceBack (newCurrentDepositQueueHash : W) (fallbackNonce : ℕ) (token : Address)
      (amount depositNumber : ℕ)
  | adminTransferStarted (currentAdmin pendingAdmin : Address)
  | adminTransferred (previousAdmin newAdmin : Address)
  | depositMade (newCurrentDepositQueueHash : W) (deposit : Deposit W) (fee depositNumber : ℕ)
  | depositBounceBack (recipient token : Address) (amount bouncebackFee : ℕ)
  | depositBounceBackPending (recipient token : Address) (amount bouncebackFee : ℕ)
  | refundClaimed (recipient token : Address) (amount : ℕ)
  | sequencerEncryptionKeyUpdated (x : W) (yParity : ℕ) (pubkey : Address)
      (keyIndex activationBlock : ℕ)
  | zoneGasRateUpdated (zoneGasRate : ℕ)
  | maxTempoGasRateUpdated (maxTempoGasRate : ℕ)
  | bouncebackGasUpdated (bouncebackGas : ℕ)
  | tokenEnabled (token : EnabledToken)
  | depositsPaused (token : Address)
  | depositsResumed (token : Address)
  | portalPaused (account : Address)
  | portalResumed (account : Address)
  | abdicationScheduled (capability : Capability) (effectiveAt : ℕ)
  | rpcUrlUpdated (rpcUrl : Bytes)
  | sequencerSetUpdated (nonce threshold : ℕ) (sequencers : List Address)
  | leaderUpdated (previousLeader newLeader : Address) (epoch activationTempoBlock : ℕ)
  | enforcementModesUpdated (accessMode gatewayMode : Bool)
  | roleUpdated (account : Address) (prev next : Role)

/-- Queue entry announced by a log, as a zone node decodes it. The log of a bounce-back carries the
nonce that the entry stores as `address(uint160(nonce))`. -/
def PortalEvent.queueEntry? {W : Type} : PortalEvent W → Option (QueueEntry W)
  | .depositMade _ deposit _ _ => some (.deposit deposit)
  | .withdrawalBounceBack _ fallbackNonce token amount _ =>
    some (.bounceBack ⟨token, Fin.ofNat _ fallbackNonce, amount⟩)
  | _ => none

def queueEntries {W : Type} (logs : List (PortalEvent W)) : List (QueueEntry W) :=
  logs.filterMap PortalEvent.queueEntry?

structure LeaderUpdate where
  previousLeader : Address
  newLeader : Address
  epoch : ℕ
  activationTempoBlock : ℕ
  deriving DecidableEq

def PortalEvent.leaderUpdate? {W : Type} : PortalEvent W → Option LeaderUpdate
  | .leaderUpdated previousLeader newLeader epoch activationTempoBlock =>
    some ⟨previousLeader, newLeader, epoch, activationTempoBlock⟩
  | _ => none

def leaderUpdates {W : Type} (logs : List (PortalEvent W)) : List LeaderUpdate :=
  logs.filterMap PortalEvent.leaderUpdate?

def PortalEvent.tokenEnablement? {W : Type} : PortalEvent W → Option EnabledToken
  | .tokenEnabled token => some token
  | _ => none

def tokenEnablements {W : Type} (logs : List (PortalEvent W)) : List EnabledToken :=
  logs.filterMap PortalEvent.tokenEnablement?

/-- Logs that announce neither a queue entry, nor a leadership transition, nor a token. -/
structure PortalEvent.Quiet {W : Type} (log : PortalEvent W) : Prop where
  entry : log.queueEntry? = none
  leader : log.leaderUpdate? = none
  token : log.tokenEnablement? = none

/-- Reverts of portal and messenger calls. `requireFailed` is a bare `require`, `panic` a checked
arithmetic failure, `externalRevert` a revert bubbled up from a called contract. -/
inductive Revert where
  | notSequencer
  | notAdmin
  | notPauseAuthority
  | capabilityAbdicated (capability : Capability)
  | abdicationAlreadyScheduled (capability : Capability)
  | portalIsPaused
  | notFactory
  | notSelf
  | alreadyInitialized
  | mustDelegateCall
  | notPendingAdmin
  | invalidProof
  | invalidTempoBlockNumber
  | callbackRejected
  | transferFailed
  | reentrantWithdrawal
  | encryptionKeyExpired (keyIndex activationBlock supersededAtBlock : ℕ)
  | invalidEncryptionKeyIndex (keyIndex : ℕ)
  | invalidEphemeralPubkey
  | invalidCiphertextLength (actual expected : ℕ)
  | invalidProofOfPossession
  | depositTooSmall
  | depositBlockCapacityExceeded (maximum : ℕ)
  | tokenEnablementBlockCapacityExceeded (maximum : ℕ)
  | tokenMetadataTooLong
  | gasFeeRateTooHigh
  | tokenNotEnabled
  | depositsNotActive
  | tokenAlreadyEnabled
  | tokenTransferPolicyNotSet
  | tokenEnablementCursorNotInitialized
  | invalidBouncebackRecipient
  | invalidDepositTransition
  | invalidTokenEnablementTransition
  | invalidSequencerSet
  | sequencerConfigurationUnchanged
  | invalidLeader
  | activeLeaderRemoved
  | leaderAlreadyUpdatedThisBlock
  | staleLeadershipEpoch (expected actual : ℕ)
  | invalidQuorumCertificate
  | invalidCallbackTarget
  | callbackDidNotReturnToZone
  | accountNotAllowed (account : Address)
  | policyForbids
  | invalidWithdrawalProof
  | unauthorizedPortal
  | reentrantRelay
  | requireFailed
  | panic
  | externalRevert
  deriving DecidableEq

def checkedAdd (bits a b : ℕ) : Except Revert ℕ := do
  require (a + b < 2 ^ bits) Revert.panic
  pure (a + b)

def checkedSub (a b : ℕ) : Except Revert ℕ := do
  require (b ≤ a) Revert.panic
  pure (a - b)

theorem checkedAdd_eq_ok {bits a b c : ℕ} :
    checkedAdd bits a b = .ok c ↔ a + b < 2 ^ bits ∧ a + b = c := by
  rw [checkedAdd, require_bind_ok_iff, pure_ok_iff]

theorem checkedSub_eq_ok {a b c : ℕ} : checkedSub a b = .ok c ↔ b ≤ a ∧ a - b = c := by
  rw [checkedSub, require_bind_ok_iff, pure_ok_iff]

/-! ## Calls and their surroundings -/

structure SubmitBatch (W : Type) where
  tempoBlockNumber : ℕ
  recentTempoBlockNumber : ℕ
  blockTransition : BlockTransition W
  depositQueueTransition : DepositQueueTransition W
  tokenEnablementTransition : TokenEnablementTransition
  withdrawalQueueHash : W
  verifierConfig : Bytes
  proof : Bytes
  nextZoneHeight : ℕ
  signatures : List Bytes

structure VerifyCall (W : Type) where
  zoneId : ℕ
  tempoBlockNumber : ℕ
  anchorBlockNumber : ℕ
  anchorBlockHash : W
  expectedWithdrawalBatchIndex : ℕ
  nextZoneHeight : ℕ
  blockTransition : BlockTransition W
  depositQueueTransition : DepositQueueTransition W
  tokenEnablementTransition : TokenEnablementTransition
  withdrawalQueueHash : W
  verifierConfig : Bytes
  proof : Bytes

/-- Contracts and precompiles the portal calls without giving up control, as they answer during one
transaction. -/
structure Externals (W : Type) where
  self : Address
  zones : ℕ → Address
  recover : W → Bytes → Option Address
  verify : VerifyCall W → Bool
  getBlockHash : ℕ → W
  isTIP20 : Address → Bool
  metadata : Address → EnabledToken
  transferPolicyIsSet : Address → Bool
  transferPolicyMigrates : Address → Bool
  isAuthorizedRecipient : Address → Address → Bool
  ecrecover : W → ℕ → W → W → Address

/-- Block context and external contracts of a transaction. -/
structure CallCtx (W : Type) where
  env : BlockEnv
  ext : Externals W

/-- A batch accepted by `submitBatch`: its arguments, the anchor and digest computed for it, the
index it was given and the governance state at that moment. -/
structure AcceptedBatch (W : Type) where
  call : SubmitBatch W
  anchorBlockNumber : ℕ
  anchorBlockHash : W
  digest : W
  batchIndex : ℕ
  gov : Governance

/-- History variables: tokens that reached the portal outside the bridge, whether a transfer of a
deposit returned `false`, withdrawals dequeued and batches accepted, oldest first. They are rolled
back with the storage. -/
structure History (W : Type) where
  gifts : Address → ℕ
  refused : Bool
  dequeued : List (Withdrawal W)
  accepted : List (AcceptedBatch W)

/-- Portal storage with the part of the Tempo state that portal calls observe and change. -/
structure L1 (W : Type) where
  portal : Portal W
  ledger : Ledger
  relayEntered : Bool
  logs : List (PortalEvent W)
  history : History W

variable {W : Type}

def L1.emit (s : L1 W) (e : PortalEvent W) : L1 W := { s with logs := s.logs ++ [e] }

def L1.setStatus (s : L1 W) (status : WithdrawalStatus) : L1 W :=
  { s with portal := { s.portal with withdrawalReentrancyStatus := status } }

abbrev L1.status (s : L1 W) : WithdrawalStatus := s.portal.withdrawalReentrancyStatus

def Governance.isSequencer (g : Governance) (account : Address) : Prop :=
  g.role account = .sequencer

instance (g : Governance) (account : Address) : Decidable (g.isSequencer account) :=
  inferInstanceAs (Decidable (_ = _))

def Governance.hasRole (g : Governance) (account : Address) (expected : Role) : Prop :=
  g.role account = expected

/-- Whether deposits and withdrawal processing are paused at the block's time. -/
def Governance.paused (g : Governance) (env : BlockEnv) : Prop :=
  env.timestamp < g.pauseExpiry

instance (g : Governance) (env : BlockEnv) : Decidable (g.paused env) :=
  inferInstanceAs (Decidable (_ < _))

def Governance.isAllowed (g : Governance) (account : Address) : Prop :=
  g.isAccessEnforced = false ∨ g.role account = .account

instance (g : Governance) (account : Address) : Decidable (g.isAllowed account) :=
  inferInstanceAs (Decidable (_ ∨ _))

def DepositCursor.outstanding (d : DepositCursor W) : ℕ :=
  d.depositCount - d.lastProcessedDepositNumber

end TempoZones
