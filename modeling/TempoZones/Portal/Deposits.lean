import TempoZones.Portal.Tokens

/-!
# Deposits and the deposit queue

`_deposit` with its argument checks, fee collection and the capacity rule: public deposits stop
`WITHDRAWAL_PROCESSING_DEPOSIT_RESERVE` entries below the cap, and a withdrawal callback may use the
reserve once. `_enqueueBounceBack` appends the entry of a failed withdrawal.
-/

namespace TempoZones

open Lib Revert DepositQueueLib

variable {W : Type} [EvmWord W]

def checkedMul (bits a b : ℕ) : Except Revert ℕ := do
  require (a * b < 2 ^ bits) panic
  pure (a * b)

theorem checkedMul_eq_ok {bits a b c : ℕ} :
    checkedMul bits a b = .ok c ↔ a * b < 2 ^ bits ∧ a * b = c := by
  rw [checkedMul, require_bind_ok_iff, pure_ok_iff]

/-! ## Fees and checks -/

def Params.calculateDepositFee (p : Params W) : Except Revert ℕ :=
  checkedMul 128 FIXED_DEPOSIT_GAS p.zoneGasRate

/-- `calculateBouncebackFee`; the scaled fee is truncated to `uint128`. -/
def Params.calculateBouncebackFee (p : Params W) (env : BlockEnv) : Except Revert ℕ := do
  let gasFee ← checkedMul 256 p.bouncebackGas env.basefee
  let raised ← checkedAdd 256 gasFee TEMPO_BASE_FEE_SCALE
  pure (uint128 ((raised - 1) / TEMPO_BASE_FEE_SCALE))

/-- `isEncryptionKeyValid`: the latest key is valid, an older one until the grace period after its
successor's activation ends. -/
def Params.isEncryptionKeyValid (p : Params W) (env : BlockEnv) (keyIndex : ℕ) :
    Except Revert (Bool × ℕ) :=
  match p.encryptionKeys[keyIndex]?, p.encryptionKeys[keyIndex + 1]? with
  | none, _ => pure (false, 0)
  | some _, none => pure (true, 0)
  | some _, some nextKey => do
      let expiration ← checkedAdd 64 nextKey.activationBlock ENCRYPTION_KEY_GRACE_PERIOD
      pure (decide (env.number < expiration), expiration)

def Governance.requireAllowedDepositor (g : Governance) (account : Address) :
    Except Revert Unit :=
  if g.isAccessEnforced = false then pure ()
  else if g.isGatewayEnforced = true ∧ g.role account = .callbackGateway then pure ()
  else require (g.role account = .account) (accountNotAllowed account)

def TokenRegistry.validateDepositsActive (r : TokenRegistry W) (token : Address) :
    Except Revert Unit := do
  require ((r.tokenConfigs token).enabled = true) tokenNotEnabled
  require ((r.tokenConfigs token).depositsActive = true) depositsNotActive

structure DepositArgs (W : Type) where
  token : Address
  amount : ℕ
  keyIndex : ℕ
  encrypted : DepositPayload W
  tempoRefundRecipient : Address

def DepositArgs.queued (args : DepositArgs W) (sender : Address) (fee : ℕ) :
    Deposit W :=
  { token := args.token, sender := sender, amount := args.amount - fee
    tempoRefundRecipient := args.tempoRefundRecipient, keyIndex := args.keyIndex
    encrypted := args.encrypted }

/-- Key check of `_deposit`, with the errors for unknown and for expired keys. -/
def Params.requireEncryptionKey (p : Params W) (env : BlockEnv) (keyIndex : ℕ) :
    Except Revert Unit := do
  let (valid, _) ← p.isEncryptionKeyValid env keyIndex
  if valid then pure ()
  else
    match p.encryptionKeys[keyIndex]?, p.encryptionKeys[keyIndex + 1]? with
    | some key, some nextKey =>
      .error (.encryptionKeyExpired keyIndex key.activationBlock nextKey.activationBlock)
    | _, _ => .error (.invalidEncryptionKeyIndex keyIndex)

def Portal.checkDeposit (p : Portal W) (ctx : CallCtx W) (sender : Address)
    (args : DepositArgs W) : Except Revert Unit := do
  require (args.tempoRefundRecipient ≠ 0) invalidBouncebackRecipient
  p.gov.requireAllowedDepositor sender
  require (p.gov.isAllowed args.tempoRefundRecipient)
    (accountNotAllowed args.tempoRefundRecipient)
  p.registry.validateDepositsActive args.token
  require (ctx.ext.isAuthorizedRecipient args.token args.tempoRefundRecipient = true)
    policyForbids
  require (Secp256k1Lib.isCompressedYParity args.encrypted.ephemeralPubkeyYParity = true)
    invalidEphemeralPubkey
  require (Secp256k1Lib.isValidX args.encrypted.ephemeralPubkeyX = true)
    invalidEphemeralPubkey
  require (args.encrypted.ciphertext.length = ENCRYPTED_PAYLOAD_PLAINTEXT_SIZE)
    (invalidCiphertextLength args.encrypted.ciphertext.length
      ENCRYPTED_PAYLOAD_PLAINTEXT_SIZE)
  p.params.requireEncryptionKey ctx.env args.keyIndex

/-! ## Queue cursor -/

/-- `_recordDeposit`: the new cursor and the number of the recorded deposit. -/
def DepositCursor.recordDeposit (d : DepositCursor W) (newCurrentDepositQueueHash : W)
    (maximum : ℕ) : Except Revert (DepositCursor W × ℕ) := do
  let unprocessed ← checkedSub d.depositCount d.lastProcessedDepositNumber
  require (unprocessed < maximum) (depositBlockCapacityExceeded maximum)
  let thisDeposit ← checkedAdd 64 d.depositCount 1
  pure ({ d with currentDepositQueueHash := newCurrentDepositQueueHash
                 depositCount := thisDeposit }, thisDeposit)

/-- Room for one more entry under the given maximum. -/
structure DepositCursor.Accepts (d : DepositCursor W) (maximum : ℕ) : Prop where
  le : d.lastProcessedDepositNumber ≤ d.depositCount
  room : d.depositCount < d.lastProcessedDepositNumber + maximum
  count_lt : d.depositCount + 1 < 2 ^ 64

theorem DepositCursor.recordDeposit_ok {d : DepositCursor W} {hash : W} {maximum : ℕ}
    {result : DepositCursor W × ℕ} :
    d.recordDeposit hash maximum = .ok result ↔ d.Accepts maximum ∧
      ({ d with currentDepositQueueHash := hash, depositCount := d.depositCount + 1 },
        d.depositCount + 1) = result := by
  simp only [recordDeposit, ok_iff, checkedSub_eq_ok, checkedAdd_eq_ok]
  constructor
  · rintro ⟨_, ⟨hle, rfl⟩, _, hroom, _, ⟨hlt, rfl⟩, h⟩
    exact ⟨⟨hle, by omega, hlt⟩, h⟩
  · rintro ⟨⟨hle, hroom, hlt⟩, h⟩
    exact ⟨_, ⟨hle, rfl⟩, (), by omega, _, ⟨hlt, rfl⟩, h⟩

/-- Number of outstanding entries up to which a deposit is accepted in each status. -/
def WithdrawalStatus.depositLimit : WithdrawalStatus → ℕ
  | .callbackDepositAvailable => MAX_UNPROCESSED_DEPOSITS
  | _ => MAX_UNPROCESSED_DEPOSITS - WITHDRAWAL_PROCESSING_DEPOSIT_RESERVE

def WithdrawalStatus.afterDeposit : WithdrawalStatus → WithdrawalStatus
  | .callbackDepositAvailable => .callbackDepositConsumed
  | status => status

namespace L1

def pull (s : L1 W) (token src dst : Address) (amount : ℕ) : L1 W :=
  { s with ledger := s.ledger.move token src dst amount }

def appendEntry (s : L1 W) (e : QueueEntry W) (log : PortalEvent W) : L1 W :=
  { s with
    portal := { s.portal with
      deposits := { s.portal.deposits with
        currentDepositQueueHash := e.hashWithTail s.portal.deposits.currentDepositQueueHash
        depositCount := s.portal.deposits.depositCount + 1 } }
    logs := s.logs ++ [log] }

/-- The flag that a transfer of a deposit returned is not looked at; history keeps a `false`. -/
def ignoreFlag (s : L1 W) (ok : Bool) : L1 W :=
  { s with history := { s.history with refused := !ok || s.history.refused } }

/-- `ITIP20(token).transferFrom(sender, self, amount)` of a deposit. -/
def transferFrom (s : L1 W) (ts : TokenSystem) (token sender self : Address) (amount : ℕ) :
    Except Revert (L1 W) :=
  match ts.transfer token sender self amount with
  | .succeeds =>
    if amount ≤ s.ledger token sender then .ok (s.pull token sender self amount)
    else .error externalRevert
  | .refuses => .ok (s.ignoreFlag false)
  | .reverts => .error externalRevert

/-- `_collectDepositFunds`: pull the amount into the portal and pass the fee on to the admin.
Neither call looks at the flag that the token returns. -/
def collectDepositFunds (s : L1 W) (ctx : CallCtx W) (ts : TokenSystem) (sender token : Address)
    (amount : ℕ) : Except Revert (ℕ × ℕ × L1 W) := do
  let self := ctx.ext.self
  let fee ← s.portal.params.calculateDepositFee
  let bouncebackFee ← s.portal.params.calculateBouncebackFee ctx.env
  let reserved ← checkedAdd 128 fee bouncebackFee
  require (reserved ≤ amount) depositTooSmall
  let s ← s.transferFrom ts token sender self amount
  if 0 < fee then do
    let (ok, s) ← s.tip20Transfer ts self token self s.portal.gov.admin fee
    pure (fee, amount - fee, s.ignoreFlag ok)
  else pure (fee, amount - fee, s)

/-- Tail of `_deposit`: choose the capacity, record the entry and emit its log. -/
def appendDeposit (s : L1 W) (deposit : Deposit W) (fee : ℕ) : Except Revert (L1 W) := do
  let newHash := enqueueDeposit s.portal.deposits.currentDepositQueueHash deposit
  let reserved := s.status = .callbackDepositAvailable
  let maximum := if reserved then MAX_UNPROCESSED_DEPOSITS
    else MAX_UNPROCESSED_DEPOSITS - WITHDRAWAL_PROCESSING_DEPOSIT_RESERVE
  let status := if reserved then .callbackDepositConsumed
    else s.status
  let (deposits, thisDeposit) ← s.portal.deposits.recordDeposit newHash maximum
  pure (L1.emit { s with portal := { s.portal with
      deposits := deposits, withdrawalReentrancyStatus := status } }
    (.depositMade newHash deposit fee thisDeposit))

/-- `deposit` and its alias `depositEncrypted`. -/
def deposit (s : L1 W) (ctx : CallCtx W) (ts : TokenSystem) (sender : Address)
    (args : DepositArgs W) : Except Revert (L1 W) := do
  require (¬ s.portal.gov.paused ctx.env) portalIsPaused
  s.portal.checkDeposit ctx sender args
  let (fee, netAmount, s) ← s.collectDepositFunds ctx ts sender args.token args.amount
  s.appendDeposit
    { token := args.token, sender := sender, amount := netAmount
      tempoRefundRecipient := args.tempoRefundRecipient, keyIndex := args.keyIndex
      encrypted := args.encrypted } fee

/-- `_enqueueBounceBack`; the recipient field carries the nonce as `address(uint160(nonce))`. -/
def enqueueBounceBack (s : L1 W) (token : Address) (amount fallbackNonce : ℕ) :
    Except Revert (L1 W) := do
  let newHash := enqueue s.portal.deposits.currentDepositQueueHash
    ⟨token, Fin.ofNat _ fallbackNonce, amount⟩
  let (deposits, thisDeposit) ← s.portal.deposits.recordDeposit newHash MAX_UNPROCESSED_DEPOSITS
  pure (L1.emit { s with portal := { s.portal with deposits := deposits } }
    (.withdrawalBounceBack newHash fallbackNonce token amount thisDeposit))

/-! ## What deposits and bounce-backs can do -/

/-- Token movements of a deposit: the pull, then the fee to the account the admin resolves to. If a
transfer returned `false`, the deposit goes on with the portal as it was. -/
inductive Collected (ctx : CallCtx W) (sender token : Address) (amount : ℕ) (s : L1 W) :
    ℕ → L1 W → Prop
  | free (funded : amount ≤ s.ledger token sender) :
      Collected ctx sender token amount s 0 (s.pull token sender ctx.ext.self amount)
  | charged {fee : ℕ} {account : Address} (funded : amount ≤ s.ledger token sender)
      (positive : 0 < fee) (le : fee ≤ amount)
      (covered : fee ≤ (s.pull token sender ctx.ext.self amount).ledger token ctx.ext.self) :
      Collected ctx sender token amount s fee
        ((s.pull token sender ctx.ext.self amount).pay ctx.ext.self token ctx.ext.self account fee)
  | refused {fee : ℕ} {funds : L1 W} (portal : funds.portal = s.portal) (logs : funds.logs = s.logs)
      (dequeued : funds.history.dequeued = s.history.dequeued)
      (accepted : funds.history.accepted = s.history.accepted)
      (refused : funds.history.refused = true) : Collected ctx sender token amount s fee funds

variable {ctx : CallCtx W} {ts : TokenSystem} {sender token : Address} {amount fee net : ℕ}
  {s s' funds : L1 W}

theorem transferFrom_ok {self : Address} (h : s.transferFrom ts token sender self amount = .ok s') :
    (amount ≤ s.ledger token sender ∧ s' = s.pull token sender self amount) ∨
      s' = s.ignoreFlag false := by
  unfold transferFrom at h
  split at h
  · split at h
    · next hfunded =>
      cases h
      exact .inl ⟨hfunded, rfl⟩
    · cases h
  · cases h
    exact .inr rfl
  · cases h

theorem collectDepositFunds_ok
    (h : s.collectDepositFunds ctx ts sender token amount = .ok (fee, net, funds)) :
    net = amount - fee ∧ Collected ctx sender token amount s fee funds := by
  simp only [collectDepositFunds, ok_iff, checkedAdd_eq_ok] at h
  obtain ⟨fee', -, bounce, -, -, ⟨-, rfl⟩, -, hle, pulled, hpull, h⟩ := h
  split at h
  · next hpos =>
    simp only [ok_iff, Prod.mk.injEq] at h
    obtain ⟨⟨ok, paid⟩, hpay, rfl, rfl, rfl⟩ := h
    refine ⟨rfl, ?_⟩
    rcases transferFrom_ok hpull with ⟨hfunded, rfl⟩ | rfl <;>
      rcases tip20Transfer_ok hpay with ⟨rfl, account, -, hcovered, rfl⟩ | ⟨rfl, rfl⟩
    · exact .charged hfunded hpos (by omega) hcovered
    all_goals exact .refused rfl rfl rfl rfl rfl
  · next hzero =>
    simp only [pure_ok_iff, Prod.mk.injEq] at h
    obtain ⟨rfl, rfl, rfl⟩ := h
    obtain rfl : fee' = 0 := by omega
    rcases transferFrom_ok hpull with ⟨hfunded, rfl⟩ | rfl
    · exact ⟨rfl, .free hfunded⟩
    · exact ⟨rfl, .refused rfl rfl rfl rfl rfl⟩

theorem Collected.portal_eq (h : Collected ctx sender token amount s fee funds) :
    funds.portal = s.portal := by
  cases h with
  | refused portal _ _ _ _ => exact portal
  | _ => rfl

theorem appendDeposit_ok {deposit : Deposit W} (h : s.appendDeposit deposit fee = .ok s') :
    s.portal.deposits.Accepts s.status.depositLimit ∧
      s' = (s.setStatus s.status.afterDeposit).appendEntry (.deposit deposit)
        (.depositMade (enqueueDeposit s.portal.deposits.currentDepositQueueHash
          deposit) deposit fee (s.portal.deposits.depositCount + 1)) := by
  obtain ⟨⟨d, n⟩, hrecord, h⟩ := bind_ok_iff.1 h
  obtain ⟨haccepts, heq⟩ := DepositCursor.recordDeposit_ok.1 hrecord
  cases heq
  rw [pure_ok_iff] at h
  subst h
  cases hstatus : s.status <;>
    simp only [hstatus, if_true, if_false, reduceCtorEq] at haccepts ⊢ <;>
    exact ⟨haccepts, rfl⟩

theorem deposit_ok {args : DepositArgs W} (h : s.deposit ctx ts sender args = .ok s') :
    ∃ fee funds, Collected ctx sender args.token args.amount s fee funds ∧
      s.portal.deposits.Accepts s.status.depositLimit ∧
      s' = (funds.setStatus s.status.afterDeposit).appendEntry (.deposit (args.queued sender fee))
        (.depositMade (enqueueDeposit s.portal.deposits.currentDepositQueueHash
          (args.queued sender fee)) (args.queued sender fee) fee
          (s.portal.deposits.depositCount + 1)) := by
  simp only [deposit, bind_ok_iff] at h
  obtain ⟨-, -, -, -, ⟨fee, net, funds⟩, hcollect, happend⟩ := h
  obtain ⟨rfl, hcollected⟩ := collectDepositFunds_ok hcollect
  obtain ⟨haccepts, heq⟩ := appendDeposit_ok happend
  have hportal := hcollected.portal_eq
  rw [L1.status, hportal] at haccepts heq
  exact ⟨fee, funds, hcollected, haccepts, heq⟩

theorem enqueueBounceBack_ok {fallbackNonce : ℕ}
    (h : s.enqueueBounceBack token amount fallbackNonce = .ok s') :
    s.portal.deposits.Accepts MAX_UNPROCESSED_DEPOSITS ∧
      s' = s.appendEntry (.bounceBack ⟨token, Fin.ofNat _ fallbackNonce, amount⟩)
        (.withdrawalBounceBack (enqueue
          s.portal.deposits.currentDepositQueueHash ⟨token, Fin.ofNat _ fallbackNonce, amount⟩)
          fallbackNonce token amount (s.portal.deposits.depositCount + 1)) := by
  obtain ⟨⟨d, n⟩, hrecord, h⟩ := bind_ok_iff.1 h
  obtain ⟨haccepts, heq⟩ := DepositCursor.recordDeposit_ok.1 hrecord
  cases heq
  rw [pure_ok_iff] at h
  exact ⟨haccepts, h.symm⟩

end L1

end TempoZones
