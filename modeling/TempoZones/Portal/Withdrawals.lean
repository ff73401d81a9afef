import TempoZones.Portal.Deposits

/-!
# Withdrawal processing

`WithdrawalQueueLib`, the messenger's `relayMessage`, and the portal's `processWithdrawals` with its
three outcomes per withdrawal. Control leaves the contracts at one point only, the call of
`onWithdrawalReceived`; what the target does there is a parameter (`Reply.callback`), as are the
other replies of outside contracts. A self-call or relay that fails returns `Except.error`, so its
effects are dropped.
-/

namespace TempoZones

open Lib Revert

variable {W : Type} [EvmWord W] [DecidableEq W]

/-! ## Queue library -/

namespace WithdrawalQueue

/-- `WithdrawalQueueLib.enqueue`: the new queue and the assigned index. -/
def enqueue (q : WithdrawalQueue W) (withdrawalQueueHash : W) : WithdrawalQueue W × ℕ :=
  if withdrawalQueueHash = 0 then (q, NO_QUEUE_INDEX)
  else ({ q with slots := Function.update q.slots q.tail withdrawalQueueHash
                 tail := q.tail + 1 }, q.tail)

/-- `WithdrawalQueueLib.dequeue`. -/
def dequeue (q : WithdrawalQueue W) (withdrawal : Withdrawal W) (remainingQueue : W) :
    Except Revert (WithdrawalQueue W) := do
  require (withdrawal.hashWithTail remainingQueue = q.slots q.head) invalidWithdrawalProof
  pure { q with slots := Function.update q.slots q.head remainingQueue
                head := if remainingQueue = 0 then q.head + 1 else q.head }

end WithdrawalQueue

/-! ## Outside contracts -/

/-- Arguments and gas of the call to `onWithdrawalReceived`. -/
structure WithdrawalMessage (W : Type) where
  zoneId : ℕ
  portal : Address
  senderTag : W
  token : Address
  amount : ℕ
  data : Bytes
  gasLimit : ℕ

/-- Behaviour of outside contracts while one withdrawal is processed: the token system at its three
transfers, and the callback target, which yields the selector check and the state it leaves, or
`none` when it reverts. -/
structure Reply (W : Type) where
  fee : TokenSystem
  payout : TokenSystem
  relay : TokenSystem
  callback : (target : Address) → WithdrawalMessage W → L1 W → Option (Bool × L1 W)

/-! ## Messenger -/

namespace L1

/-- Part of `relayMessage` before control passes to the target. -/
def openRelay (s : L1 W) (ctx : CallCtx W) (r : Reply W) (sender : Address) (zoneId : ℕ)
    (token target : Address) (amount : ℕ) : Except Revert (L1 W) := do
  require (s.relayEntered = false) reentrantRelay
  require (ctx.ext.zones zoneId = sender) unauthorizedPortal
  require (¬ (s.portal.gov.isGatewayEnforced = true ∧
    s.portal.gov.role target ≠ .callbackGateway)) invalidCallbackTarget
  let effectiveRecipient ← (r.relay.resolveRecipient target).elim
    (.error externalRevert) pure
  let authorized ← (r.relay.validateReceivePolicy token s.portal.gov.messenger
    effectiveRecipient).elim (.error externalRevert) pure
  require (authorized = true) transferFailed
  let (ok, s) ← L1.tip20Transfer { s with relayEntered := true } r.relay ctx.ext.self token
    s.portal.gov.messenger target amount
  require (ok = true) transferFailed
  pure s

def relayMessage (s : L1 W) (ctx : CallCtx W) (r : Reply W) (sender : Address) (zoneId : ℕ)
    (token : Address) (senderTag : W) (target : Address) (amount gasLimit : ℕ) (data : Bytes) :
    Except Revert (L1 W) := do
  let s ← s.openRelay ctx r sender zoneId token target amount
  let message := WithdrawalMessage.mk zoneId sender senderTag token amount data gasLimit
  match r.callback target message s with
  | none => .error .callbackRejected
  | some (selector, s) => do
      require (selector = true) callbackRejected
      pure { s with relayEntered := false }

/-! ## Delivery -/

/-- Part of `deliverWithdrawal` before the relay. A portal that were its own messenger would not
answer `relayMessage`. -/
def openDelivery (s : L1 W) (ctx : CallCtx W) (r : Reply W) (sender token target : Address)
    (amount : ℕ) : Except Revert (L1 W) := do
  require (sender = ctx.ext.self) notSelf
  require (¬ (s.portal.gov.isGatewayEnforced = true ∧
    s.portal.gov.role target ≠ .callbackGateway)) invalidCallbackTarget
  let (ok, s) ← s.tip20Transfer r.payout ctx.ext.self token ctx.ext.self
    s.portal.gov.messenger amount
  require (ok = true) transferFailed
  require (s.portal.gov.messenger ≠ ctx.ext.self) externalRevert
  pure (s.setStatus .callbackDepositAvailable)

def deliverWithdrawal (s : L1 W) (ctx : CallCtx W) (r : Reply W) (sender token target : Address)
    (amount : ℕ) (senderTag : W) (gasLimit : ℕ) (data : Bytes) : Except Revert (L1 W) := do
  let depositQueueHashBefore := s.portal.deposits.currentDepositQueueHash
  let s ← s.openDelivery ctx r sender token target amount
  let s ← s.relayMessage ctx r ctx.ext.self s.portal.gov.zoneId token senderTag target amount
    gasLimit data
  let s := s.setStatus .processing
  require (¬ (s.portal.gov.isAccessEnforced = true ∧
    s.portal.deposits.currentDepositQueueHash = depositQueueHashBefore))
    callbackDidNotReturnToZone
  pure s

/-! ## Processing -/

/-- `_processDepositBounceBack`: the fee is deducted only when the admin received it. -/
def processDepositBounceBack (s : L1 W) (ctx : CallCtx W) (r : Reply W) (w : Withdrawal W) :
    Except Revert (L1 W) := do
  let self := ctx.ext.self
  let calculated ← s.portal.params.calculateBouncebackFee ctx.env
  let bouncebackFee := min calculated w.amount
  let (collected, s) := s.tryTransferIf (0 < bouncebackFee) r.fee self w.token
    s.portal.gov.admin bouncebackFee
  let collectedFee := if collected then bouncebackFee else 0
  let refundAmount ← checkedSub w.amount collectedFee
  let (success, s) := s.tryTransferIf (s.portal.gov.isAllowed w.recipient) r.payout self w.token
    w.recipient refundAmount
  if success then
    pure (s.emit (.depositBounceBack w.recipient w.token refundAmount collectedFee))
  else do
    let refund ← checkedAdd 128 (s.portal.refunds w.token w.recipient) refundAmount
    pure ((s.setRefund w.token w.recipient refund).emit
      (.depositBounceBackPending w.recipient w.token refundAmount collectedFee))

/-- New withdrawal queue, with the withdrawal taken from it recorded in the history. -/
def withDequeued (s : L1 W) (queue : WithdrawalQueue W) (w : Withdrawal W) : L1 W :=
  { s with
    portal := { s.portal with withdrawalQueue := queue }
    history := { s.history with dequeued := s.history.dequeued ++ [w] } }

/-- `_withdrawalQueue.dequeue`, recording the withdrawal in the history. -/
def dequeueWithdrawal (s : L1 W) (w : Withdrawal W) (remainingQueue : W) :
    Except Revert (L1 W) := do
  let queue ← s.portal.withdrawalQueue.dequeue w remainingQueue
  pure (s.withDequeued queue w)

/-- Delivery of a user withdrawal: the plain transfer with the role checks, or the callback in a
self-call frame. Returns whether it succeeded and the state, unchanged on failure. -/
def tryDeliver (s : L1 W) (ctx : CallCtx W) (r : Reply W) (w : Withdrawal W) : Bool × L1 W :=
  if w.gasLimit = 0 then
    s.tryTransferIf ((s.portal.gov.isGatewayEnforced = false ∨
        s.portal.gov.role w.recipient ≠ .callbackGateway) ∧
        s.portal.gov.isAllowed w.recipient)
      r.payout ctx.ext.self w.token w.recipient w.amount
  else
    match s.deliverWithdrawal ctx r ctx.ext.self w.token w.recipient w.amount w.senderTag
        w.gasLimit w.callbackData with
    | .ok s' => (true, s')
    | .error _ => (false, s)

def processWithdrawal (s : L1 W) (ctx : CallCtx W) (r : Reply W) (w : Withdrawal W)
    (remainingQueue : W) : Except Revert (L1 W) := do
  let s ← s.dequeueWithdrawal w remainingQueue
  if w.fallbackNonce = 0 then s.processDepositBounceBack ctx r w
  else if w.gasLimit > MAX_WITHDRAWAL_GAS_LIMIT then do
    let s ← s.enqueueBounceBack w.token w.amount w.fallbackNonce
    pure (s.emit (.withdrawalProcessed w.recipient w.senderTag w.token w.amount false))
  else do
    let (success, s) := s.tryDeliver ctx r w
    let s ← if success then pure s else s.enqueueBounceBack w.token w.amount w.fallbackNonce
    pure (s.emit (.withdrawalProcessed w.recipient w.senderTag w.token w.amount success))

/-- Second loop of `processWithdrawals`. -/
def processLoop (ctx : CallCtx W) (replies : ℕ → Reply W) :
    ℕ → List (Withdrawal W × W) → L1 W → Except Revert (L1 W)
  | _, [], s => pure s
  | i, (w, remainingQueue) :: rest, s => do
      let s ← s.processWithdrawal ctx (replies i) w remainingQueue
      processLoop ctx replies (i + 1) rest s

end L1

/-- First loop of `processWithdrawals`, from the last withdrawal to the first: each withdrawal with
the queue that remains after it, and the queue before the first. -/
def remainingQueues (ws : List (Withdrawal W)) (remainingQueue : W) :
    List (Withdrawal W × W) × W :=
  ws.foldr (fun w (acc, nextQueue) => ((w, nextQueue) :: acc, w.hashWithTail nextQueue))
    ([], remainingQueue)

namespace L1

/-- Checks of `processWithdrawals` on entry, and the entered guard. -/
def enterProcessing (s : L1 W) (ctx : CallCtx W) (sender : Address) (count : ℕ) :
    Except Revert (L1 W) := do
  require (s.portal.gov.isSequencer sender) notSequencer
  require (¬ s.portal.gov.paused ctx.env) portalIsPaused
  require (s.status = .notEntered) reentrantWithdrawal
  let unprocessed ← checkedSub s.portal.deposits.depositCount
    s.portal.deposits.lastProcessedDepositNumber
  require (¬ (unprocessed > MAX_UNPROCESSED_DEPOSITS ∨
    count > MAX_UNPROCESSED_DEPOSITS - unprocessed))
    (depositBlockCapacityExceeded MAX_UNPROCESSED_DEPOSITS)
  pure (s.setStatus .processing)

/-- `processWithdrawals`; `replies i` answers for the `i`-th withdrawal. -/
def processWithdrawals (s : L1 W) (ctx : CallCtx W) (sender : Address)
    (withdrawals : List (Withdrawal W)) (remainingQueue : W) (replies : ℕ → Reply W) :
    Except Revert (L1 W) := do
  let s ← s.enterProcessing ctx sender withdrawals.length
  let s ← processLoop ctx replies 0 (remainingQueues withdrawals remainingQueue).1 s
  pure (s.setStatus .notEntered)

/-! ## What processing a withdrawal can do -/

variable {ctx : CallCtx W} {r : Reply W} {w : Withdrawal W} {remainingQueue : W} {s s' d : L1 W}

theorem dequeueWithdrawal_ok (h : s.dequeueWithdrawal w remainingQueue = .ok d) :
    ∃ queue, s.portal.withdrawalQueue.dequeue w remainingQueue = .ok queue ∧
      d = s.withDequeued queue w := by
  simp only [dequeueWithdrawal, ok_iff] at h
  obtain ⟨queue, hqueue, rfl⟩ := h
  exact ⟨queue, hqueue, rfl⟩

/-- Refund of a failed deposit: the fee that was collected, then payout or parking of the rest. -/
inductive Refunded (self : Address) (w : Withdrawal W) (s : L1 W) : L1 W → Prop
  | paid {fee refund : ℕ} {collected : Bool} {s₁ s₂ : L1 W}
      (feeAttempt : Attempt self w.token fee s collected s₁)
      (total : (if collected then fee else 0) + refund = w.amount)
      (payout : Attempt self w.token refund s₁ true s₂) :
      Refunded self w s (s₂.emit (.depositBounceBack w.recipient w.token refund
        (if collected then fee else 0)))
  | parked {fee refund : ℕ} {collected : Bool} {s₁ : L1 W}
      (feeAttempt : Attempt self w.token fee s collected s₁)
      (total : (if collected then fee else 0) + refund = w.amount)
      (fits : s₁.portal.refunds w.token w.recipient + refund < 2 ^ 128) :
      Refunded self w s ((s₁.setRefund w.token w.recipient
        (s₁.portal.refunds w.token w.recipient + refund)).emit
        (.depositBounceBackPending w.recipient w.token refund (if collected then fee else 0)))

theorem processDepositBounceBack_ok (h : s.processDepositBounceBack ctx r w = .ok s') :
    Refunded ctx.ext.self w s s' := by
  simp only [processDepositBounceBack, bind_ok_iff] at h
  obtain ⟨calculated, -, h⟩ := h
  rcases hfee : s.tryTransferIf (0 < min calculated w.amount) r.fee ctx.ext.self w.token
    s.portal.gov.admin (min calculated w.amount) with ⟨collected, s₁⟩
  rw [hfee] at h
  obtain ⟨refund, hsub, h⟩ := h
  obtain ⟨hle, rfl⟩ := checkedSub_eq_ok.1 hsub
  have htotal := Nat.add_sub_cancel' hle
  rcases hpay : s₁.tryTransferIf (s₁.portal.gov.isAllowed w.recipient) r.payout ctx.ext.self
    w.token w.recipient (w.amount - if collected = true then min calculated w.amount else 0)
    with ⟨success, s₂⟩
  simp only [hpay] at h
  cases success with
  | true =>
    cases pure_ok_iff.1 h
    exact .paid (tryTransferIf_attempt hfee) htotal (tryTransferIf_attempt hpay)
  | false =>
    simp only [Bool.false_eq_true, if_false, ok_iff, checkedAdd_eq_ok] at h
    obtain ⟨_, ⟨hfits, rfl⟩, rfl⟩ := h
    cases tryTransferIf_attempt hpay
    exact .parked (tryTransferIf_attempt hfee) htotal hfits

/-- State in which a callback receives control: the amount went through the messenger to the
target, both guards are set and the reserved deposit is available. -/
def opened (s : L1 W) (self : Address) (w : Withdrawal W) (messengerAccount target : Address) :
    L1 W :=
  L1.pay { (s.pay self w.token self messengerAccount w.amount).setStatus .callbackDepositAvailable
    with relayEntered := true } self w.token s.portal.gov.messenger target w.amount

def closed (s : L1 W) : L1 W :=
  L1.setStatus { s with relayEntered := false } .processing

end L1

/-- `a` is the state in which the callback of `w` receives control, when `w` is processed in `s`
with `remainingQueue` left after it. -/
def CallbackEntry (ctx : CallCtx W) (r : Reply W) (w : Withdrawal W) (remainingQueue : W)
    (s a : L1 W) : Prop :=
  w.fallbackNonce ≠ 0 ∧ w.gasLimit ≠ 0 ∧ w.gasLimit ≤ MAX_WITHDRAWAL_GAS_LIMIT ∧
    ∃ d o, s.dequeueWithdrawal w remainingQueue = .ok d ∧
      d.openDelivery ctx r ctx.ext.self w.token w.recipient w.amount = .ok o ∧
      o.openRelay ctx r ctx.ext.self o.portal.gov.zoneId w.token w.recipient w.amount = .ok a

open L1

variable {ctx : CallCtx W} {r : Reply W} {w : Withdrawal W} {remainingQueue : W} {s s' d a : L1 W}

theorem openDelivery_openRelay_ok {o : L1 W} {zoneId : ℕ}
    (ho : d.openDelivery ctx r ctx.ext.self w.token w.recipient w.amount = .ok o)
    (ha : o.openRelay ctx r ctx.ext.self zoneId w.token w.recipient w.amount = .ok a) :
    w.amount ≤ d.ledger w.token ctx.ext.self ∧ d.portal.gov.messenger ≠ ctx.ext.self ∧
      ∃ messengerAccount target,
        r.payout.resolveRecipient d.portal.gov.messenger = some messengerAccount ∧
        r.relay.resolveRecipient w.recipient = some target ∧
        a = d.opened ctx.ext.self w messengerAccount target := by
  simp only [openDelivery, ok_iff] at ho
  obtain ⟨-, -, -, -, ⟨ok, d₁⟩, hpay, -, rfl, -, hmessenger, rfl⟩ := ho
  obtain ⟨-, account, haccount, hcovered, rfl⟩ | ⟨hfalse, -⟩ := tip20Transfer_ok hpay
  · simp only [openRelay, ok_iff] at ha
    obtain ⟨-, -, -, -, -, -, -, -, -, -, -, -, ⟨ok, a₁⟩, hrelay, -, rfl, rfl⟩ := ha
    obtain ⟨-, target, htarget, -, rfl⟩ | ⟨hfalse, -⟩ := tip20Transfer_ok hrelay
    · exact ⟨hcovered, hmessenger, account, target, haccount, htarget, rfl⟩
    · cases hfalse
  · cases hfalse

/-- A delivery that succeeds opened the callback, which returned the selector, and in closed access
the callback appended to the deposit queue. -/
theorem deliverWithdrawal_ok {data : Bytes} {gasLimit : ℕ} {senderTag : W}
    (h : d.deliverWithdrawal ctx r ctx.ext.self w.token w.recipient w.amount senderTag gasLimit
      data = .ok s') :
    ∃ o a b message, d.openDelivery ctx r ctx.ext.self w.token w.recipient w.amount = .ok o ∧
      o.openRelay ctx r ctx.ext.self o.portal.gov.zoneId w.token w.recipient w.amount = .ok a ∧
      r.callback w.recipient message a = some (true, b) ∧ s' = b.closed ∧
      ¬ (b.portal.gov.isAccessEnforced = true ∧
        b.portal.deposits.currentDepositQueueHash = d.portal.deposits.currentDepositQueueHash) := by
  simp only [deliverWithdrawal, relayMessage, ok_iff] at h
  obtain ⟨o, ho, b', ⟨a, ha, hcall⟩, -, hreturned, rfl⟩ := h
  split at hcall
  · cases hcall
  · next selector b hb =>
    simp only [ok_iff] at hcall
    obtain ⟨-, rfl, rfl⟩ := hcall
    exact ⟨o, a, b, _, ho, ha, hb, rfl, hreturned⟩

inductive Processed (ctx : CallCtx W) (r : Reply W) (w : Withdrawal W) (remainingQueue : W)
    (s : L1 W) : L1 W → Prop
  | refunded {d s' : L1 W} (nonce : w.fallbackNonce = 0)
      (dequeue : s.dequeueWithdrawal w remainingQueue = .ok d)
      (refund : Refunded ctx.ext.self w d s') : Processed ctx r w remainingQueue s s'
  | bounced {d s' : L1 W} (nonce : w.fallbackNonce ≠ 0)
      (dequeue : s.dequeueWithdrawal w remainingQueue = .ok d)
      (bounce : d.enqueueBounceBack w.token w.amount w.fallbackNonce = .ok s') :
      Processed ctx r w remainingQueue s
        (s'.emit (.withdrawalProcessed w.recipient w.senderTag w.token w.amount false))
  | paid {d s' : L1 W} (nonce : w.fallbackNonce ≠ 0)
      (dequeue : s.dequeueWithdrawal w remainingQueue = .ok d)
      (payout : Attempt ctx.ext.self w.token w.amount d true s') :
      Processed ctx r w remainingQueue s
        (s'.emit (.withdrawalProcessed w.recipient w.senderTag w.token w.amount true))
  | delivered {a b : L1 W} {message : WithdrawalMessage W}
      (entry : CallbackEntry ctx r w remainingQueue s a)
      (callback : r.callback w.recipient message a = some (true, b))
      (returned : ¬ (b.portal.gov.isAccessEnforced = true ∧
        b.portal.deposits.currentDepositQueueHash = s.portal.deposits.currentDepositQueueHash)) :
      Processed ctx r w remainingQueue s
        (b.closed.emit (.withdrawalProcessed w.recipient w.senderTag w.token w.amount true))

theorem tryDeliver_cases {success : Bool} (h : d.tryDeliver ctx r w = (success, s')) :
    (success = false ∧ s' = d) ∨
    (success = true ∧ Attempt ctx.ext.self w.token w.amount d true s') ∨
    (success = true ∧ w.gasLimit ≠ 0 ∧ ∃ o a b message,
      d.openDelivery ctx r ctx.ext.self w.token w.recipient w.amount = .ok o ∧
      o.openRelay ctx r ctx.ext.self o.portal.gov.zoneId w.token w.recipient w.amount = .ok a ∧
      r.callback w.recipient message a = some (true, b) ∧ s' = b.closed ∧
      ¬ (b.portal.gov.isAccessEnforced = true ∧ b.portal.deposits.currentDepositQueueHash =
          d.portal.deposits.currentDepositQueueHash)) := by
  unfold tryDeliver at h
  split at h
  · have hattempt := tryTransferIf_attempt h
    cases success with
    | false =>
      cases hattempt
      exact .inl ⟨rfl, rfl⟩
    | true => exact .inr (.inl ⟨rfl, hattempt⟩)
  · next hgas =>
    split at h
    · next s₁ hdeliver =>
      cases h
      exact .inr (.inr ⟨rfl, hgas, deliverWithdrawal_ok hdeliver⟩)
    · cases h
      exact .inl ⟨rfl, rfl⟩

theorem processWithdrawal_ok (h : s.processWithdrawal ctx r w remainingQueue = .ok s') :
    Processed ctx r w remainingQueue s s' := by
  obtain ⟨d, hd, h⟩ := bind_ok_iff.1 h
  by_cases hnonce : w.fallbackNonce = 0
  · rw [if_pos hnonce] at h
    exact .refunded hnonce hd (processDepositBounceBack_ok h)
  rw [if_neg hnonce] at h
  by_cases hgas : w.gasLimit > MAX_WITHDRAWAL_GAS_LIMIT
  · rw [if_pos hgas] at h
    obtain ⟨b, hb, h⟩ := bind_ok_iff.1 h
    cases pure_ok_iff.1 h
    exact .bounced hnonce hd hb
  rw [if_neg hgas] at h
  rcases hdeliver : d.tryDeliver ctx r w with ⟨success, s₁⟩
  simp only [hdeliver] at h
  rcases tryDeliver_cases hdeliver with
    ⟨rfl, rfl⟩ | ⟨rfl, hpaid⟩ | ⟨rfl, hgas', o, a, b, message, ho, ha, hb, rfl, hreturned⟩
  · obtain ⟨b, hb, h⟩ := bind_ok_iff.1 h
    cases pure_ok_iff.1 h
    exact .bounced hnonce hd hb
  · obtain ⟨b, hb, h⟩ := bind_ok_iff.1 h
    cases pure_ok_iff.1 hb
    cases pure_ok_iff.1 h
    exact .paid hnonce hd hpaid
  obtain ⟨b', hb', h⟩ := bind_ok_iff.1 h
  cases pure_ok_iff.1 hb'
  cases pure_ok_iff.1 h
  obtain ⟨queue, -, rfl⟩ := dequeueWithdrawal_ok hd
  exact .delivered ⟨hnonce, hgas', Nat.le_of_not_lt hgas, _, o, hd, ho, ha⟩ hb hreturned

theorem enterProcessing_ok {sender : Address} {count : ℕ}
    (h : s.enterProcessing ctx sender count = .ok s') :
    s.portal.gov.isSequencer sender ∧ ¬ s.portal.gov.paused ctx.env ∧ s.status = .notEntered ∧
      s.portal.deposits.lastProcessedDepositNumber ≤ s.portal.deposits.depositCount ∧
      s.portal.deposits.outstanding + count ≤ MAX_UNPROCESSED_DEPOSITS ∧
      s' = s.setStatus .processing := by
  simp only [enterProcessing, ok_iff] at h
  obtain ⟨-, hsequencer, -, hrunning, -, hstatus, unprocessed, hsub, -, hroom, rfl⟩ := h
  obtain ⟨hle, rfl⟩ := checkedSub_eq_ok.1 hsub
  refine ⟨hsequencer, hrunning, hstatus, hle, ?_, rfl⟩
  rw [DepositCursor.outstanding]
  omega

end TempoZones
