import Mathlib.Algebra.BigOperators.Fin
import Mathlib.Algebra.Order.BigOperators.Group.Finset
import TempoZones.Portal.Capacity

/-!
# No recipient can block the withdrawal queue

Processing the withdrawal at the head of the queue does not revert, whatever outside code does, as
long as its hash check passes, a deposit slot is free and the portal covers it. It ends in exactly
one of three ways (`EndsAs`): paid, bounced with one entry for the full amount and the same nonce,
or, for the refund of a failed deposit, split into a fee and a payout or parked refund. While a
callback runs, the withdrawal queue only grows at its end (`Control.queue_extends`).
-/

namespace TempoZones

open Lib

variable {W : Type} [EvmWord W] [DecidableEq W]

/-! ## The queue during a callback -/

/-- `q'` is `q` with possibly more batches at its end. -/
structure Extends (q q' : WithdrawalQueue W) : Prop where
  head_eq : q'.head = q.head
  tail_le : q.tail ≤ q'.tail
  slots_eq : ∀ i, i < q.tail → q'.slots i = q.slots i

theorem Extends.refl (q : WithdrawalQueue W) : Extends q q := ⟨rfl, le_rfl, fun _ _ => rfl⟩

theorem Extends.trans {a b c : WithdrawalQueue W} (hab : Extends a b) (hbc : Extends b c) :
    Extends a c := by
  refine ⟨hbc.head_eq.trans hab.head_eq, hab.tail_le.trans hbc.tail_le, fun i hi => ?_⟩
  have hi' : i < b.tail := hi.trans_le hab.tail_le
  exact (hbc.slots_eq i hi').trans (hab.slots_eq i hi)

theorem WithdrawalQueue.enqueue_extends (q : WithdrawalQueue W) (hash : W) :
    Extends q (q.enqueue hash).1 := by
  unfold WithdrawalQueue.enqueue
  split
  · exact .refl q
  refine ⟨rfl, Nat.le_succ _, fun i hi => ?_⟩
  have hne : i ≠ q.tail := hi.ne
  exact Function.update_of_ne hne _ _

section Callback

variable {ctx : CallCtx W} {s s' : L1 W}

theorem CallStep.queue_extends (h : CallStep ctx s s') :
    Extends s.portal.withdrawalQueue s'.portal.withdrawalQueue ∧
      s'.history.dequeued = s.history.dequeued := by
  cases h with
  | deposit _ collected _ =>
    obtain ⟨hportal, -, hdequeued, -⟩ := collected.frame
    have hqueue : ∀ q, q = s.portal.withdrawalQueue → Extends s.portal.withdrawalQueue q := by
      rintro q rfl
      exact .refl _
    exact ⟨hqueue _ (congrArg (·.withdrawalQueue) hportal), hdequeued⟩
  | submitBatch _ => exact ⟨WithdrawalQueue.enqueue_extends _ _, rfl⟩
  | _ => exact ⟨.refl _, rfl⟩

theorem Control.queue_extends (h : Control ctx s s') (init : s.portal.gov.initialized = true)
    (entered : s.status ≠ .notEntered) :
    Extends s.portal.withdrawalQueue s'.portal.withdrawalQueue ∧
      s'.history.dequeued = s.history.dequeued := by
  induction h with
  | refl s => exact ⟨.refl _, rfl⟩
  | call before outside run ih =>
    have hinit := (before.traced init).1.initialized_eq.trans init
    obtain ⟨hqueue, hdequeued⟩ := ih init entered
    obtain ⟨hqueue', hdequeued'⟩ := (exec_step hinit outside run).queue_extends
    exact ⟨hqueue.trans hqueue', hdequeued'.trans hdequeued⟩
  | process before _ _ run _ _ =>
    -- a nested `processWithdrawals` fails at its guard
    simp only [L1.processWithdrawals, bind_ok_iff] at run
    obtain ⟨e, he, -⟩ := run
    obtain ⟨-, -, hstatus, -⟩ := enterProcessing_ok he
    exact absurd hstatus (before.entered init entered)
  | outside _ move ih =>
    obtain ⟨hqueue, hdequeued⟩ := ih init entered
    rw [move.portal_eq]
    exact ⟨hqueue, move.dequeued_eq.trans hdequeued⟩

end Callback

/-! ## Outcomes -/

inductive Outcome where
  | paid
  | bounced
  | refunded
  deriving DecidableEq

/-- Bounce-back entry of a withdrawal: its token, its full amount and its nonce. -/
def Withdrawal.bounceBack (w : Withdrawal W) : WithdrawalBounceBackDeposit :=
  ⟨w.token, Fin.ofNat _ w.fallbackNonce, w.amount⟩

/-- State after `w` bounced. It depends on the state `d` in which `w` had left the queue only. -/
def L1.bounced (d : L1 W) (w : Withdrawal W) : L1 W :=
  (d.appendEntry (.bounceBack w.bounceBack)
    (.withdrawalBounceBack (DepositQueueLib.enqueue d.portal.deposits.currentDepositQueueHash
      w.bounceBack) w.fallbackNonce w.token w.amount (d.portal.deposits.depositCount + 1))).emit
    (.withdrawalProcessed w.recipient w.senderTag w.token w.amount false)

/-- `amount` of `token` leaves the portal, whose balance covers it, for the account that the registry
resolves `recipient` to. -/
def SentTo (ctx : CallCtx W) (ts : TokenSystem) (token recipient : Address) (amount : ℕ)
    (d s' : L1 W) : Prop :=
  ∃ account, ts.resolveRecipient recipient = some account ∧
    amount ≤ d.ledger token ctx.ext.self ∧
    s' = d.pay ctx.ext.self token ctx.ext.self account amount

/-- Payout through the messenger to the account that the registry resolves the target to, followed
by a callback that returned. During the callback the withdrawal queue only grew. -/
def PaidCallback (ctx : CallCtx W) (r : Reply W) (w : Withdrawal W) (d s' : L1 W) : Prop :=
  ∃ messengerAccount target b,
    r.payout.resolveRecipient d.portal.gov.messenger = some messengerAccount ∧
    r.relay.resolveRecipient w.recipient = some target ∧
    w.amount ≤ d.ledger w.token ctx.ext.self ∧
    Control ctx (d.opened ctx.ext.self w messengerAccount target) b ∧ s' = b.closed ∧
    Extends d.portal.withdrawalQueue s'.portal.withdrawalQueue ∧
    s'.history.dequeued = d.history.dequeued

/-- Refund of the failed deposit `w` out of state `d`: the admin received `fee`, or nothing and then
`fee` is zero; the rest was paid to the recipient or parked for it. -/
inductive RefundSplit (ctx : CallCtx W) (r : Reply W) (w : Withdrawal W) (d : L1 W) :
    L1 W → Prop
  | paid {fee refund : ℕ} {s₁ s₂ : L1 W}
      (charged : fee = 0 ∧ s₁ = d ∨ SentTo ctx r.fee w.token d.portal.gov.admin fee d s₁)
      (total : fee + refund = w.amount)
      (payout : SentTo ctx r.payout w.token w.recipient refund s₁ s₂) :
      RefundSplit ctx r w d (s₂.emit (.depositBounceBack w.recipient w.token refund fee))
  | parked {fee refund : ℕ} {s₁ : L1 W}
      (charged : fee = 0 ∧ s₁ = d ∨ SentTo ctx r.fee w.token d.portal.gov.admin fee d s₁)
      (total : fee + refund = w.amount) :
      RefundSplit ctx r w d ((s₁.setRefund w.token w.recipient
        (d.portal.refunds w.token w.recipient + refund)).emit
        (.depositBounceBackPending w.recipient w.token refund fee))

/-- `s'` is the state after `w`, which had left the queue in state `d`, ended as given. -/
def EndsAs (ctx : CallCtx W) (r : Reply W) (w : Withdrawal W) (d s' : L1 W) : Outcome → Prop
  | .paid => w.fallbackNonce ≠ 0 ∧ ∃ paid,
      (SentTo ctx r.payout w.token w.recipient w.amount d paid ∨ PaidCallback ctx r w d paid) ∧
      s' = paid.emit (.withdrawalProcessed w.recipient w.senderTag w.token w.amount true)
  | .bounced => w.fallbackNonce ≠ 0 ∧ s' = d.bounced w
  | .refunded => w.fallbackNonce = 0 ∧ RefundSplit ctx r w d s'

/-- The outcomes exclude each other: refunds have nonce zero, and the last log of the others says
whether the withdrawal was paid. -/
theorem EndsAs.unique {ctx : CallCtx W} {r : Reply W} {w : Withdrawal W} {d s' : L1 W}
    {a b : Outcome} (ha : EndsAs ctx r w d s' a) (hb : EndsAs ctx r w d s' b) : a = b := by
  -- the last log of a payout
  have hpaid : EndsAs ctx r w d s' .paid → s'.logs.getLast? =
      some (.withdrawalProcessed w.recipient w.senderTag w.token w.amount true) := by
    rintro ⟨-, paid, -, rfl⟩
    exact List.getLast?_concat
  -- the last log of a bounce-back
  have hbounced : EndsAs ctx r w d s' .bounced → s'.logs.getLast? =
      some (.withdrawalProcessed w.recipient w.senderTag w.token w.amount false) := by
    rintro ⟨-, rfl⟩
    exact List.getLast?_concat
  have hexclusive : EndsAs ctx r w d s' .paid → EndsAs ctx r w d s' .bounced → False := by
    intro hp hb
    have := (hpaid hp).symm.trans (hbounced hb)
    simp at this
  cases a with
  | paid =>
    cases b with
    | paid => rfl
    | bounced => exact (hexclusive ha hb).elim
    | refunded => exact absurd hb.1 ha.1
  | bounced =>
    cases b with
    | paid => exact (hexclusive hb ha).elim
    | bounced => rfl
    | refunded => exact absurd hb.1 ha.1
  | refunded =>
    cases b with
    | paid => exact absurd ha.1 hb.1
    | bounced => exact absurd ha.1 hb.1
    | refunded => rfl

/-! ## Processing does not revert -/

section Total

variable {ctx : CallCtx W} {r : Reply W} {w : Withdrawal W} {d s s' : L1 W}

theorem tryTransferIf_sentTo {guard : Prop} [Decidable guard] {ts : TokenSystem}
    {token recipient : Address} {amount : ℕ} {ok : Bool}
    (h : d.tryTransferIf guard ts ctx.ext.self token recipient amount = (ok, s')) :
    (ok = true ∧ SentTo ctx ts token recipient amount d s') ∨ (ok = false ∧ s' = d) := by
  unfold L1.tryTransferIf at h
  split at h
  · rcases d.tryTransfer_cases ts ctx.ext.self token recipient amount with
      ⟨account, hresolve, hle, heq⟩ | heq
    · cases heq.symm.trans h
      exact .inl ⟨rfl, account, hresolve, hle, rfl⟩
    · cases heq.symm.trans h
      exact .inr ⟨rfl, rfl⟩
  · cases h
    exact .inr ⟨rfl, rfl⟩

theorem SentTo.portal_eq {ts : TokenSystem} {token recipient : Address} {amount : ℕ}
    (h : SentTo ctx ts token recipient amount d s') : s'.portal = d.portal := by
  obtain ⟨account, -, -, rfl⟩ := h
  rfl

theorem Params.calculateBouncebackFee_total {p : Params W} (gas : p.bouncebackGas < 2 ^ 64)
    (env : BlockEnv) : ∃ fee, p.calculateBouncebackFee env = .ok fee := by
  have hproduct : p.bouncebackGas * env.basefee < 2 ^ 64 * 2 ^ 64 :=
    Nat.mul_lt_mul'' gas env.basefee_lt
  have hmul : p.bouncebackGas * env.basefee < 2 ^ 256 := by omega
  have hadd : p.bouncebackGas * env.basefee + TEMPO_BASE_FEE_SCALE < 2 ^ 256 := by
    unfold TEMPO_BASE_FEE_SCALE
    omega
  have hgasFee := checkedMul_eq_ok.2 ⟨hmul, rfl⟩
  have hraised := checkedAdd_eq_ok.2 ⟨hadd, rfl⟩
  exact ⟨_, bind_ok_iff.2 ⟨_, hgasFee, bind_ok_iff.2 ⟨_, hraised, rfl⟩⟩⟩

theorem processDepositBounceBack_total (ctx : CallCtx W) (r : Reply W) (gas : d.portal.params.bouncebackGas < 2 ^ 64)
    (room : d.portal.refunds w.token w.recipient + w.amount < 2 ^ 128) :
    ∃ s', d.processDepositBounceBack ctx r w = .ok s' ∧ RefundSplit ctx r w d s' := by
  obtain ⟨calculated, hcalculated⟩ := d.portal.params.calculateBouncebackFee_total gas ctx.env
  rcases hfee : d.tryTransferIf (0 < min calculated w.amount) r.fee ctx.ext.self w.token
    d.portal.gov.admin (min calculated w.amount) with ⟨collected, s₁⟩
  -- the fee that counts is the one that was collected
  obtain ⟨fee, hfee_eq, hle, hcharged⟩ : ∃ fee,
      (if collected = true then min calculated w.amount else 0) = fee ∧ fee ≤ w.amount ∧
      (fee = 0 ∧ s₁ = d ∨ SentTo ctx r.fee w.token d.portal.gov.admin fee d s₁) := by
    rcases tryTransferIf_sentTo hfee with ⟨rfl, hsent⟩ | ⟨rfl, rfl⟩
    · exact ⟨_, rfl, Nat.min_le_right _ _, .inr hsent⟩
    · exact ⟨0, rfl, Nat.zero_le _, .inl ⟨rfl, rfl⟩⟩
  have hportal : s₁.portal = d.portal := by
    rcases hcharged with ⟨-, rfl⟩ | hsent
    · rfl
    · exact hsent.portal_eq
  have hsub : checkedSub w.amount fee = .ok (w.amount - fee) := checkedSub_eq_ok.2 ⟨hle, rfl⟩
  have htotal : fee + (w.amount - fee) = w.amount := Nat.add_sub_cancel' hle
  rcases hpay : s₁.tryTransferIf (s₁.portal.gov.isAllowed w.recipient) r.payout ctx.ext.self
    w.token w.recipient (w.amount - fee) with ⟨success, s₂⟩
  simp only [L1.processDepositBounceBack, hcalculated, bind_ok_iff, Except.ok.injEq,
    exists_eq_left', hfee, hfee_eq, hsub, hpay]
  rcases tryTransferIf_sentTo hpay with ⟨rfl, hsent⟩ | ⟨rfl, rfl⟩
  · exact ⟨_, rfl, .paid hcharged htotal hsent⟩
  have hadd : d.portal.refunds w.token w.recipient + (w.amount - fee) < 2 ^ 128 := by omega
  rw [hportal]
  exact ⟨_, bind_ok_iff.2 ⟨_, checkedAdd_eq_ok.2 ⟨hadd, rfl⟩, rfl⟩, .parked hcharged htotal⟩

theorem enqueueBounceBack_total (slot : d.portal.deposits.Accepts MAX_UNPROCESSED_DEPOSITS) :
    ∃ b, d.enqueueBounceBack w.token w.amount w.fallbackNonce = .ok b ∧
      b.emit (.withdrawalProcessed w.recipient w.senderTag w.token w.amount false) =
        d.bounced w := by
  have hrecord : d.portal.deposits.recordDeposit (DepositQueueLib.enqueue
      d.portal.deposits.currentDepositQueueHash w.bounceBack) MAX_UNPROCESSED_DEPOSITS = .ok _ :=
    DepositCursor.recordDeposit_ok.2 ⟨slot, rfl⟩
  exact ⟨_, bind_ok_iff.2 ⟨_, hrecord, rfl⟩, rfl⟩

theorem tryDeliver_total (confined : Confined ctx r)
    (init : d.portal.gov.initialized = true) {success : Bool}
    (h : d.tryDeliver ctx r w = (success, s')) :
    (success = false ∧ s' = d) ∨ (success = true ∧
      (SentTo ctx r.payout w.token w.recipient w.amount d s' ∨ PaidCallback ctx r w d s')) := by
  unfold L1.tryDeliver at h
  split at h
  · rcases tryTransferIf_sentTo h with ⟨rfl, hsent⟩ | ⟨rfl, rfl⟩
    · exact .inr ⟨rfl, .inl hsent⟩
    · exact .inl ⟨rfl, rfl⟩
  split at h
  · next s₁ hdeliver =>
    cases h
    obtain ⟨o, a, b, message, ho, ha, hb, rfl, -⟩ := deliverWithdrawal_ok hdeliver
    obtain ⟨hcovered, -, messengerAccount, target, hmessenger, htarget, rfl⟩ :=
      openDelivery_openRelay_ok ho ha
    have hcontrol := confined hb
    obtain ⟨hqueue, hdequeued⟩ := hcontrol.queue_extends init (fun hstatus => by cases hstatus)
    exact .inr ⟨rfl, .inr ⟨messengerAccount, target, b, hmessenger, htarget, hcovered,
      hcontrol, rfl, hqueue, hdequeued⟩⟩
  · cases h
    exact .inl ⟨rfl, rfl⟩

theorem processWithdrawal_total {remainingQueue : W} {queue : WithdrawalQueue W}
    (confined : Confined ctx r) (init : s.portal.gov.initialized = true)
    (check : s.portal.withdrawalQueue.dequeue w remainingQueue = .ok queue)
    (slot : s.portal.deposits.Accepts MAX_UNPROCESSED_DEPOSITS)
    (gas : s.portal.params.bouncebackGas < 2 ^ 64)
    (room : s.portal.refunds w.token w.recipient + w.amount < 2 ^ 128) :
    ∃ s' outcome, s.processWithdrawal ctx r w remainingQueue = .ok s' ∧
      EndsAs ctx r w (s.withDequeued queue w) s' outcome := by
  have hd : s.dequeueWithdrawal w remainingQueue = .ok (s.withDequeued queue w) :=
    bind_ok_iff.2 ⟨queue, check, rfl⟩
  obtain ⟨b, hb, hbounced⟩ := enqueueBounceBack_total (d := s.withDequeued queue w) (w := w) slot
  simp only [L1.processWithdrawal, hd, bind_ok_iff, Except.ok.injEq, exists_eq_left']
  by_cases hnonce : w.fallbackNonce = 0
  · obtain ⟨s', hs', hsplit⟩ := processDepositBounceBack_total ctx r
      (d := s.withDequeued queue w) (w := w) gas room
    exact ⟨s', .refunded, by rw [if_pos hnonce, hs'], hnonce, hsplit⟩
  simp only [if_neg hnonce]
  by_cases hgas : w.gasLimit > MAX_WITHDRAWAL_GAS_LIMIT
  · simp only [if_pos hgas]
    exact ⟨_, .bounced, bind_ok_iff.2 ⟨b, hb, rfl⟩, hnonce, hbounced⟩
  simp only [if_neg hgas]
  rcases hdeliver : (s.withDequeued queue w).tryDeliver ctx r w with ⟨success, paid⟩
  rcases tryDeliver_total (d := s.withDequeued queue w) confined init hdeliver with ⟨rfl, rfl⟩ | ⟨rfl, hpaid⟩
  · exact ⟨_, .bounced, bind_ok_iff.2 ⟨b, hb, rfl⟩, hnonce, hbounced⟩
  · exact ⟨_, .paid, rfl, hnonce, paid, hpaid, rfl⟩

end Total

/-- The portal's balance covers `w` and every parked refund of its token. -/
def Covered (self : Address) (w : Withdrawal W) (s : L1 W) : Prop :=
  ∑ a, s.portal.refunds w.token a + w.amount ≤ s.ledger w.token self

theorem Covered.refund_room {self : Address} {w : Withdrawal W} {s : L1 W}
    (h : Covered self w s) (supply : s.ledger w.token self < 2 ^ 128) :
    s.portal.refunds w.token w.recipient + w.amount < 2 ^ 128 := by
  have hsingle : s.portal.refunds w.token w.recipient ≤ ∑ a, s.portal.refunds w.token a :=
    Finset.single_le_sum (fun a _ => Nat.zero_le (s.portal.refunds w.token a))
      (Finset.mem_univ w.recipient)
  have hcovered : ∑ a, s.portal.refunds w.token a + w.amount ≤ s.ledger w.token self := h
  omega

theorem EndsAs.dequeued {ctx : CallCtx W} {r : Reply W} {w : Withdrawal W} {d s' : L1 W}
    {outcome : Outcome} (h : EndsAs ctx r w d s' outcome) :
    Extends d.portal.withdrawalQueue s'.portal.withdrawalQueue ∧
      s'.history.dequeued = d.history.dequeued := by
  cases outcome with
  | paid =>
    obtain ⟨-, paid, hpaid, rfl⟩ := h
    rcases hpaid with ⟨account, -, -, rfl⟩ | ⟨_, _, _, -, -, -, -, -, hqueue, hdequeued⟩
    · exact ⟨.refl _, rfl⟩
    · exact ⟨hqueue, hdequeued⟩
  | bounced =>
    obtain ⟨-, rfl⟩ := h
    exact ⟨.refl _, rfl⟩
  | refunded =>
    obtain ⟨-, hsplit⟩ := h
    cases hsplit with
    | paid charged _ payout =>
      obtain ⟨account, -, -, rfl⟩ := payout
      rcases charged with ⟨-, rfl⟩ | ⟨admin, -, -, rfl⟩
      · exact ⟨.refl _, rfl⟩
      · exact ⟨.refl _, rfl⟩
    | parked charged _ =>
      rcases charged with ⟨-, rfl⟩ | ⟨admin, -, -, rfl⟩
      · exact ⟨.refl _, rfl⟩
      · exact ⟨.refl _, rfl⟩

section Run

variable {P : CallCtx W → Prop} {ctx : CallCtx W} {m : L1 W} {sender : Address}
  {w : Withdrawal W} {remainingQueue : W} {queue : WithdrawalQueue W}

/-- **The withdrawal queue cannot be blocked by a recipient.** Let the portal not be paused, its
balance cover `w` and all parked refunds of the token, the hash check of `w` pass, and the deposit
queue take one more entry. Then, whatever outside contracts answer (`r`), a sequencer's call that
processes `w` succeeds. The withdrawal leaves the queue, which otherwise changes only by batches
settled during the callback, and exactly one outcome describes the state `s'`. A bounce-back starts
from the state `d` before the delivery. TIP-20 balances are 128-bit values (`supply`). -/
theorem withdrawal_queue_not_blocked (h : Reached P ctx.env m)
    (sequencer : m.portal.gov.isSequencer sender) (running : ¬ m.portal.gov.paused ctx.env)
    (idle : m.status = .notEntered) (covered : Covered ctx.ext.self w m)
    (supply : m.ledger w.token ctx.ext.self < 2 ^ 128)
    (slot : m.portal.deposits.Accepts MAX_UNPROCESSED_DEPOSITS)
    (check : m.portal.withdrawalQueue.dequeue w remainingQueue = .ok queue)
    (r : Reply W) (confined : Confined ctx r) :
    ∃ s', m.processWithdrawals ctx sender [w] remainingQueue (fun _ => r) =
        .ok (s'.setStatus .notEntered) ∧
      s'.history.dequeued = m.history.dequeued ++ [w] ∧
      Extends queue s'.portal.withdrawalQueue ∧
      ∃! outcome, EndsAs ctx r w ((m.setStatus .processing).withDequeued queue w) s' outcome := by
  have henter : m.enterProcessing ctx sender 1 = .ok (m.setStatus .processing) := by
    have hle := slot.le
    have hroom := slot.room
    simp only [L1.enterProcessing, ok_iff, checkedSub_eq_ok]
    exact ⟨(), sequencer, (), running, (), idle, _, ⟨hle, rfl⟩, (), by omega, trivial⟩
  obtain ⟨s', outcome, hprocess, hends⟩ := processWithdrawal_total
    (s := m.setStatus .processing) confined h.initialized check slot h.bouncebackGas_lt
    (covered.refund_room supply)
  obtain ⟨hqueue, hdequeued⟩ := hends.dequeued
  refine ⟨s', ?_, hdequeued, hqueue, outcome, hends, fun other hother => hother.unique hends⟩
  simp only [L1.processWithdrawals, bind_ok_iff]
  exact ⟨_, henter, s', bind_ok_iff.2 ⟨s', hprocess, rfl⟩, rfl⟩

end Run

/-! ## The example run: every outside contract reverts -/

namespace Example

def funded : L1 Sym :=
  { settled with
    ledger := fun t a => if t = 50 ∧ a = 100 then 1000 else 0
    history := { settled.history with gifts := fun t => if t = 50 then 1000 else 0 } }

theorem funded_outside : Outside settleCtx settled funded where
  portal_eq := rfl
  logs_eq := rfl
  refused_eq := rfl
  dequeued_eq := rfl
  accepted_eq := rfl
  received t := by
    refine ⟨if t = 50 then 1000 else 0, ?_, ?_⟩
    · have hself : settleCtx.ext.self = 100 := rfl
      have hzero : settled.ledger t 100 = 0 := rfl
      simp [funded, hself, hzero]
    · have hzero : settled.history.gifts t = 0 := rfl
      simp [funded, hzero]

theorem funded_reached : Reached (fun _ => True) env funded :=
  ⟨env, start, started trivial, env, funded, settleCtx,
    .tx (settled_later trivial) (.refl _) trivial (.outside (.refl _) funded_outside), .refl _,
    trivial, rfl, .reached (.refl _)⟩

def revertingTokens : TokenSystem where
  resolveRecipient := fun _ => none
  validateReceivePolicy := fun _ _ _ => none
  transfer := fun _ _ _ _ => .reverts

def reverting : Reply Sym where
  fee := revertingTokens
  payout := revertingTokens
  relay := revertingTokens
  callback := fun _ _ _ => none

theorem funded_covered : Covered settleCtx.ext.self payout funded := by
  have hzero : ∑ a, funded.portal.refunds payout.token a = 0 := Finset.sum_eq_zero fun _ _ => rfl
  rw [Covered, hzero]
  decide

end Example

open Example

/-- With every outside contract reverting, the queued withdrawal of the example leaves the queue. -/
theorem withdrawal_queue_not_blocked_example :
    ∃ s' : L1 Sym, funded.processWithdrawals settleCtx 1 [payout] 0
        (fun _ => reverting) = .ok (s'.setStatus .notEntered) ∧
      s'.history.dequeued = [payout] := by
  have hsequencer : funded.portal.gov.isSequencer 1 := by decide
  have hcheck : funded.portal.withdrawalQueue.dequeue payout 0 = .ok _ := rfl
  have hconfined : Confined settleCtx reverting := nofun
  obtain ⟨s', hrun, hdequeued, -⟩ := withdrawal_queue_not_blocked funded_reached hsequencer
    (by decide) rfl funded_covered (by decide) ⟨by decide, by decide, by decide⟩ hcheck
    reverting hconfined
  exact ⟨s', hrun, hdequeued⟩

end TempoZones
