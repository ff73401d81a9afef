import TempoZones.Portal.Delivery

/-!
# The deposit reserve of withdrawal processing

Public deposits stop `WITHDRAWAL_PROCESSING_DEPOSIT_RESERVE` entries below the cap; a bounce-back
and the first deposit of a callback may use the rest. `Reserve` bounds the outstanding entries by a
base plus the withdrawals dequeued, where a callback that has not deposited yet counts in advance.
While the cap is above that bound, `processWithdrawals` and the reserved deposit never stop with
`DepositBlockCapacityExceeded` (`NeverFull`).
-/

namespace TempoZones

open Lib List

variable {W : Type} [EvmWord W] [DecidableEq W]

/-! ## The bound -/

def WithdrawalStatus.reserved : WithdrawalStatus → ℕ
  | .callbackDepositAvailable => 1
  | _ => 0

def publicLimit : ℕ := MAX_UNPROCESSED_DEPOSITS - WITHDRAWAL_PROCESSING_DEPOSIT_RESERVE

/-- The outstanding entries and the reserved deposit stay within `base` plus the number of
withdrawals dequeued after the first `start`. -/
structure Reserve (base start : ℕ) (s : L1 W) : Prop where
  le : s.portal.deposits.lastProcessedDepositNumber ≤ s.portal.deposits.depositCount
  started : start ≤ s.history.dequeued.length
  bound : s.portal.deposits.depositCount + s.status.reserved + start ≤
    s.portal.deposits.lastProcessedDepositNumber + base + s.history.dequeued.length

section Step

variable {ctx : CallCtx W} {s s' : L1 W} {base start : ℕ}

section

variable (hs : Reserve base start s)
include hs

theorem Reserve.of_eq (deposits : s'.portal.deposits = s.portal.deposits)
    (status : s'.status.reserved ≤ s.status.reserved)
    (dequeued : s'.history.dequeued = s.history.dequeued) : Reserve base start s' := by
  obtain ⟨hle, hstarted, hbound⟩ := hs
  refine ⟨?_, ?_, ?_⟩
  · rw [deposits]
    exact hle
  · rw [dequeued]
    exact hstarted
  · rw [deposits, dequeued]
    omega

theorem Reserve.deposit (hbase : publicLimit ≤ base)
    (accepts : s.portal.deposits.Accepts s.status.depositLimit)
    (count : s'.portal.deposits.depositCount = s.portal.deposits.depositCount + 1)
    (last : s'.portal.deposits.lastProcessedDepositNumber = s.portal.deposits.lastProcessedDepositNumber)
    (status : s'.status = s.status.afterDeposit)
    (dequeued : s'.history.dequeued = s.history.dequeued) : Reserve base start s' := by
  obtain ⟨hle, hstarted, hbound⟩ := hs
  have hroom := accepts.room
  refine ⟨?_, ?_, ?_⟩
  · omega
  · rw [dequeued]
    exact hstarted
  rw [dequeued, status, count, last]
  by_cases havailable : s.status = .callbackDepositAvailable
  · rw [havailable] at hbound ⊢
    exact hbound
  · -- without the reserve, the entry is one of the public ones
    have hlimit : s.status.depositLimit = publicLimit := by
      cases hstatus : s.status <;> first | rfl | exact absurd hstatus havailable
    have hreserved : s.status.afterDeposit.reserved = 0 := by
      cases hstatus : s.status <;> rfl
    omega

theorem Reserve.callStep (hbase : publicLimit ≤ base) (h : CallStep ctx s s') :
    Reserve base start s' := by
  cases h with
  | @deposit funds _ _ _ _ collected accepts =>
    obtain ⟨hportal, -, hdequeued, -⟩ := collected.frame
    refine hs.deposit hbase accepts ?_ ?_ rfl hdequeued
    · exact congrArg (·.deposits.depositCount + 1) hportal
    · exact congrArg (·.deposits.lastProcessedDepositNumber) hportal
  | submitBatch accepted =>
    have hmono := accepted.deposit_mono
    rw [accepted.deposit_prev] at hmono
    obtain ⟨-, hstarted, hbound⟩ := hs
    have hbound' := hbound.trans (Nat.add_le_add_right (Nat.add_le_add_right hmono _) _)
    exact ⟨accepted.deposit_le, hstarted, hbound'⟩
  | _ => exact hs.of_eq rfl le_rfl rfl

theorem Reserve.withDequeued (status : s.status = .processing) (queue : WithdrawalQueue W)
    (w : Withdrawal W) :
    Reserve base start (s.withDequeued queue w) ∧
      (s.withDequeued queue w).portal.deposits.depositCount + 1 + start ≤
        s.portal.deposits.lastProcessedDepositNumber + base +
          (s.withDequeued queue w).history.dequeued.length := by
  obtain ⟨hle, hstarted, hbound⟩ := hs
  have hlength : (s.withDequeued queue w).history.dequeued.length =
      s.history.dequeued.length + 1 := length_append
  rw [status] at hbound
  have hbound' : s.portal.deposits.depositCount + 0 + start ≤
      s.portal.deposits.lastProcessedDepositNumber + base + s.history.dequeued.length := hbound
  have hcount : (s.withDequeued queue w).portal.deposits = s.portal.deposits := rfl
  have hreserved : (s.withDequeued queue w).status.reserved = 0 := by
    rw [show (s.withDequeued queue w).status = s.status from rfl, status]
    rfl
  refine ⟨⟨hle, ?_, ?_⟩, ?_⟩
  · omega
  · rw [hreserved, hlength, hcount]
    omega
  · rw [hlength, hcount]
    omega

theorem Reserve.step (hbase : publicLimit ≤ base) (h : Micro ctx s s') : Reserve base start s' := by
  cases h with
  | call step => exact hs.callStep hbase step
  | enter _
  | exit _
  | closeCallback _ => exact hs.of_eq rfl (Nat.zero_le _) rfl
  | @withdraw _ w _ queue status _ disposed =>
    obtain ⟨hd, hroom⟩ := hs.withDequeued status queue w
    cases disposed with
    | refunded _ refund =>
      obtain ⟨⟨refunds, hportal⟩, -, hdequeued, -⟩ := refund.frame
      have hdeposits := congrArg (·.deposits) hportal
      have hstatus := congrArg (·.withdrawalReentrancyStatus.reserved) hportal
      exact hd.of_eq hdeposits hstatus.le hdequeued
    | bounced _ _ =>
      have hreserved : s.status.reserved = 0 := by
        rw [status]
        rfl
      refine ⟨hd.le.trans (Nat.le_succ _), hd.started, ?_⟩
      exact (congrArg (_ + 1 + · + start) hreserved).le.trans hroom
    | paid _ _ => exact hd.of_eq rfl le_rfl rfl
    | opened _ _ _ => exact ⟨hd.le, hd.started, hroom⟩
  | outside move =>
    have hstatus := congrArg (·.withdrawalReentrancyStatus.reserved) move.portal_eq
    exact hs.of_eq (congrArg (·.deposits) move.portal_eq) hstatus.le move.dequeued_eq

theorem Reserve.path (hbase : publicLimit ≤ base) (h : MicroPath ctx s s') :
    Reserve base start s' :=
  MicroPath.invariant (I := fun _ s => Reserve base start s)
    (fun hs hstep => hs.step hbase hstep) h hs

end

end Step

/-! ## What is dequeued -/

section Dequeued

variable {ctx : CallCtx W} {s s' : L1 W} {remainingQueue : W}

theorem processWithdrawal_dequeued {r : Reply W} {w : Withdrawal W} (confined : Confined ctx r)
    (init : s.portal.gov.initialized = true)
    (h : s.processWithdrawal ctx r w remainingQueue = .ok s') :
    s'.history.dequeued = s.history.dequeued ++ [w] := by
  cases processWithdrawal_ok h with
  | refunded _ dequeue refund =>
    obtain ⟨queue, -, rfl⟩ := L1.dequeueWithdrawal_ok dequeue
    exact refund.frame.2.2.1
  | bounced _ dequeue bounce =>
    obtain ⟨queue, -, rfl⟩ := L1.dequeueWithdrawal_ok dequeue
    obtain ⟨-, rfl⟩ := L1.enqueueBounceBack_ok bounce
    rfl
  | paid _ dequeue payout =>
    obtain ⟨queue, -, rfl⟩ := L1.dequeueWithdrawal_ok dequeue
    exact payout.frame.2.2.1
  | delivered entry callback _ =>
    obtain ⟨-, -, -, d, o, hd, ho, ha⟩ := entry
    obtain ⟨queue, -, rfl⟩ := L1.dequeueWithdrawal_ok hd
    obtain ⟨-, -, messengerAccount, target, -, -, rfl⟩ := openDelivery_openRelay_ok ho ha
    exact ((confined callback).queue_extends init nofun).2

theorem CallbackEntry.dequeued {r : Reply W} {w : Withdrawal W}
    (h : CallbackEntry ctx r w remainingQueue s s') :
    s'.history.dequeued = s.history.dequeued ++ [w] := by
  obtain ⟨-, -, -, d, o, hd, ho, ha⟩ := h
  obtain ⟨queue, -, rfl⟩ := L1.dequeueWithdrawal_ok hd
  obtain ⟨-, -, messengerAccount, target, -, -, rfl⟩ := openDelivery_openRelay_ok ho ha
  rfl

variable {replies : ℕ → Reply W}

theorem processLoop_dequeued (confined : ∀ i, Confined ctx (replies i))
    {i : ℕ} {l : List (Withdrawal W × W)} (init : s.portal.gov.initialized = true)
    (status : s.status = .processing) (h : L1.processLoop ctx replies i l s = .ok s') :
    s'.history.dequeued = s.history.dequeued ++ l.map Prod.fst := by
  induction l generalizing i s with
  | nil =>
    cases pure_ok_iff.1 h
    exact (append_nil _).symm
  | cons x rest ih =>
    obtain ⟨p, hp, h⟩ := bind_ok_iff.1 h
    have hfirst := processWithdrawal_dequeued (confined i) init hp
    obtain ⟨hpath, hstatus⟩ := processWithdrawal_micro (fun h => (confined i h).traced) init status hp
    have hrest := ih (hpath.initialized_eq.trans init) hstatus h
    rw [hrest, hfirst, append_assoc]
    rfl

theorem remainingQueues_fst (ws : List (Withdrawal W)) (remainingQueue : W) :
    (remainingQueues ws remainingQueue).1.map Prod.fst = ws := by
  induction ws with
  | nil => rfl
  | cons w ws ih => exact congrArg (w :: ·) ih

theorem processWithdrawals_dequeued {sender : Address} {ws : List (Withdrawal W)}
    (confined : ∀ i, Confined ctx (replies i)) (init : s.portal.gov.initialized = true)
    (h : s.processWithdrawals ctx sender ws remainingQueue replies = .ok s') :
    s'.history.dequeued = s.history.dequeued ++ ws := by
  simp only [L1.processWithdrawals, ok_iff] at h
  obtain ⟨e, he, p, hp, rfl⟩ := h
  obtain ⟨-, -, -, -, -, rfl⟩ := enterProcessing_ok he
  have hloop := processLoop_dequeued (s := s.setStatus .processing) confined init rfl hp
  rw [remainingQueues_fst] at hloop
  exact hloop

end Dequeued

/-! ## The cap is not hit -/

/-- The computation does not stop with `DepositBlockCapacityExceeded`. -/
def NeverFull {α : Type} (x : Except Revert α) : Prop :=
  ∀ maximum, x ≠ .error (.depositBlockCapacityExceeded maximum)

namespace NeverFull

variable {α β : Type}

theorem pure (a : α) : NeverFull (Pure.pure a : Except Revert α) := fun _ => Avoids.pure a

theorem ok (a : α) : NeverFull (.ok a : Except Revert α) := fun _ => Avoids.ok a

theorem bind {x : Except Revert α} {f : α → Except Revert β} (hx : NeverFull x)
    (hf : ∀ a, x = .ok a → NeverFull (f a)) : NeverFull (x >>= f) :=
  fun maximum => Avoids.bind (hx maximum) fun a ha => hf a ha maximum

theorem require {c : Prop} [Decidable c] {e : Revert}
    (h : ∀ maximum, e ≠ .depositBlockCapacityExceeded maximum) :
    NeverFull (Lib.require c e : Except Revert PUnit.{1}) :=
  fun maximum => Avoids.require fun _ => h maximum

theorem checkedAdd (bits a b : ℕ) : NeverFull (TempoZones.checkedAdd bits a b) :=
  bind (require nofun) fun _ _ => pure _

theorem checkedSub (a b : ℕ) : NeverFull (TempoZones.checkedSub a b) :=
  bind (require nofun) fun _ _ => pure _

theorem checkedMul (bits a b : ℕ) : NeverFull (TempoZones.checkedMul bits a b) :=
  bind (require nofun) fun _ _ => pure _

theorem ite {c : Prop} [Decidable c] {x y : Except Revert α} (hx : c → NeverFull x)
    (hy : ¬ c → NeverFull y) : NeverFull (if c then x else y) :=
  fun maximum => Avoids.ite (fun h => hx h maximum) fun h => hy h maximum

end NeverFull

theorem DepositCursor.recordDeposit_neverFull {d : DepositCursor W} {maximum : ℕ} (hash : W)
    (room : d.outstanding < maximum) : NeverFull (d.recordDeposit hash maximum) := by
  refine .bind (.checkedSub _ _) fun unprocessed hsub => ?_
  obtain ⟨-, rfl⟩ := checkedSub_eq_ok.1 hsub
  intro maximum' h
  rcases require_bind_error_iff.1 h with ⟨hfull, -⟩ | ⟨-, h⟩
  · exact hfull room
  · exact NeverFull.bind (.checkedAdd _ _ _) (fun _ _ => .pure _) maximum' h

section Processing

variable {ctx : CallCtx W} {s s' : L1 W} {r : Reply W} {w : Withdrawal W}

theorem Params.calculateBouncebackFee_neverFull (p : Params W) (env : BlockEnv) :
    NeverFull (p.calculateBouncebackFee env) :=
  .bind (.checkedMul _ _ _) fun _ _ => .bind (.checkedAdd _ _ _) fun _ _ => .pure _

theorem processDepositBounceBack_neverFull (s : L1 W) (ctx : CallCtx W) (r : Reply W)
    (w : Withdrawal W) : NeverFull (s.processDepositBounceBack ctx r w) := by
  refine .bind (s.portal.params.calculateBouncebackFee_neverFull ctx.env) fun _ _ => ?_
  refine .bind (.checkedSub _ _) fun _ _ => .ite (fun _ => .pure _) fun _ => ?_
  exact .bind (.checkedAdd _ _ _) fun _ _ => .pure _

theorem enqueueBounceBack_neverFull {token : Address} {amount nonce : ℕ}
    (room : s.portal.deposits.outstanding < MAX_UNPROCESSED_DEPOSITS) :
    NeverFull (s.enqueueBounceBack token amount nonce) :=
  .bind (DepositCursor.recordDeposit_neverFull _ room) fun _ _ => .pure _

theorem tryDeliver_failed (h : s.tryDeliver ctx r w = (false, s')) : s' = s := by
  rcases tryDeliver_cases h with ⟨-, heq⟩ | ⟨hsuccess, -⟩ | ⟨hsuccess, -⟩
  · exact heq
  · cases hsuccess
  · cases hsuccess

theorem processWithdrawal_neverFull {remainingQueue : W}
    (room : s.portal.deposits.outstanding < MAX_UNPROCESSED_DEPOSITS) :
    NeverFull (s.processWithdrawal ctx r w remainingQueue) := by
  have hdequeue : NeverFull (s.dequeueWithdrawal w remainingQueue) :=
    .bind (.bind (.require nofun) fun _ _ => .pure _) fun _ _ => .pure _
  refine .bind hdequeue fun d hd => ?_
  obtain ⟨queue, -, rfl⟩ := L1.dequeueWithdrawal_ok hd
  have hbounce : NeverFull ((s.withDequeued queue w).enqueueBounceBack w.token w.amount
      w.fallbackNonce) := enqueueBounceBack_neverFull room
  refine .ite (fun _ => processDepositBounceBack_neverFull _ ctx r w) fun _ => ?_
  refine .ite (fun _ => .bind hbounce fun _ _ => .pure _) fun _ => ?_
  rcases hdeliver : (s.withDequeued queue w).tryDeliver ctx r w with ⟨success, d⟩
  cases success with
  | true => exact .bind (.pure _) fun _ _ => .pure _
  | false =>
    obtain rfl := tryDeliver_failed hdeliver
    exact .bind hbounce fun _ _ => .pure _

theorem Reserve.outstanding_lt {base start : ℕ} (hs : Reserve base start s) (count : ℕ)
    (pending : 0 < count + s.status.reserved)
    (room : base + s.history.dequeued.length + count ≤ MAX_UNPROCESSED_DEPOSITS + start) :
    s.portal.deposits.outstanding < MAX_UNPROCESSED_DEPOSITS := by
  obtain ⟨hle, -, hbound⟩ := hs
  rw [DepositCursor.outstanding]
  omega

variable {replies : ℕ → Reply W}

theorem processLoop_neverFull {base start : ℕ}
    (confined : ∀ i, Confined ctx (replies i)) (hbase : publicLimit ≤ base) {i : ℕ}
    {l : List (Withdrawal W × W)} (init : s.portal.gov.initialized = true)
    (status : s.status = .processing) (hs : Reserve base start s)
    (room : base + s.history.dequeued.length + l.length ≤ MAX_UNPROCESSED_DEPOSITS + start) :
    NeverFull (L1.processLoop ctx replies i l s) := by
  induction l generalizing i s with
  | nil => exact .pure _
  | cons x rest ih =>
    have hroom := hs.outstanding_lt _ (Nat.lt_add_right _ (Nat.succ_pos rest.length)) room
    refine .bind (processWithdrawal_neverFull hroom) fun p hp => ?_
    obtain ⟨hpath, hstatus⟩ := processWithdrawal_micro (fun h => (confined i h).traced) init status hp
    have hdequeued := processWithdrawal_dequeued (confined i) init hp
    refine ih (hpath.initialized_eq.trans init) hstatus (hs.path hbase hpath) ?_
    rw [hdequeued, length_append]
    have hlength : (x :: rest).length = rest.length + 1 := length_cons
    have hone : [x.1].length = 1 := rfl
    omega

theorem enterProcessing_neverFull {sender : Address} {count : ℕ}
    (room : s.portal.deposits.outstanding + count ≤ MAX_UNPROCESSED_DEPOSITS) :
    NeverFull (s.enterProcessing ctx sender count) := by
  refine .bind (.require nofun) fun _ _ => ?_
  refine .bind (.require nofun) fun _ _ => ?_
  refine .bind (.require nofun) fun _ _ => ?_
  refine .bind (.checkedSub _ _) fun unprocessed hsub => ?_
  obtain ⟨-, rfl⟩ := checkedSub_eq_ok.1 hsub
  intro maximum h
  rcases require_bind_error_iff.1 h with ⟨hfull, -⟩ | ⟨-, h⟩
  · have hout : s.portal.deposits.outstanding =
      s.portal.deposits.depositCount - s.portal.deposits.lastProcessedDepositNumber := rfl
    omega
  · cases h

theorem processWithdrawals_neverFull {base start : ℕ} {sender : Address}
    {ws : List (Withdrawal W)} {remainingQueue : W}
    (confined : ∀ i, Confined ctx (replies i)) (hbase : publicLimit ≤ base)
    (init : s.portal.gov.initialized = true) (hs : Reserve base start s)
    (room : base + s.history.dequeued.length + ws.length ≤ MAX_UNPROCESSED_DEPOSITS + start) :
    NeverFull (s.processWithdrawals ctx sender ws remainingQueue replies) := by
  have hout : s.portal.deposits.outstanding + ws.length ≤ MAX_UNPROCESSED_DEPOSITS := by
    obtain ⟨hle, -, hbound⟩ := hs
    rw [DepositCursor.outstanding]
    omega
  refine .bind (enterProcessing_neverFull hout) fun e he => ?_
  obtain ⟨-, -, -, -, -, rfl⟩ := enterProcessing_ok he
  have hlength : (remainingQueues ws remainingQueue).1.length = ws.length := by
    rw [← length_map (f := Prod.fst), remainingQueues_fst]
  refine .bind ?_ fun _ _ => .pure _
  refine processLoop_neverFull (s := s.setStatus .processing) confined hbase init rfl
    (hs.of_eq rfl (Nat.zero_le _) rfl) ?_
  rw [hlength]
  exact room

end Processing

/-! ## The reserved deposit of a callback -/

section Deposit

variable {ctx : CallCtx W} {s : L1 W} {ts : TokenSystem} {sender : Address}

theorem checkDeposit_neverFull (p : Portal W) (ctx : CallCtx W) (sender : Address)
    (args : DepositArgs W) : NeverFull (p.checkDeposit ctx sender args) := by
  have hdepositor : NeverFull (p.gov.requireAllowedDepositor sender) :=
    .ite (fun _ => .pure _) fun _ => .ite (fun _ => .pure _) fun _ => .require nofun
  have hactive : NeverFull (p.registry.validateDepositsActive args.token) :=
    .bind (.require nofun) fun _ _ => .require nofun
  have hkey : NeverFull (p.params.requireEncryptionKey ctx.env args.keyIndex) := by
    refine .bind ?_ fun result _ => .ite (fun _ => .pure _) fun _ => ?_
    · unfold Params.isEncryptionKeyValid
      split
      · exact .pure _
      · exact .pure _
      · exact .bind (.checkedAdd _ _ _) fun _ _ => .pure _
    split
    · exact nofun
    · exact nofun
  refine .bind (.require nofun) fun _ _ => .bind hdepositor fun _ _ => ?_
  refine .bind (.require nofun) fun _ _ => .bind hactive fun _ _ => ?_
  refine .bind (.require nofun) fun _ _ => ?_
  refine .bind (.require nofun) fun _ _ => ?_
  refine .bind (.require nofun) fun _ _ => ?_
  exact .bind (.require nofun) fun _ _ => hkey

theorem tip20Transfer_neverFull (s : L1 W) (ts : TokenSystem) (self token src recipient : Address)
    (amount : ℕ) : NeverFull (s.tip20Transfer ts self token src recipient amount) := by
  unfold L1.tip20Transfer
  split
  · exact .ite (fun _ => .ok _) nofun
  · exact .ok _
  · exact nofun

theorem transferFrom_neverFull (s : L1 W) (ts : TokenSystem) (token sender self : Address)
    (amount : ℕ) : NeverFull (s.transferFrom ts token sender self amount) := by
  unfold L1.transferFrom
  split
  · exact .ite (fun _ => .ok _) nofun
  · exact .ok _
  · exact nofun

theorem collectDepositFunds_neverFull (s : L1 W) (ctx : CallCtx W) (ts : TokenSystem)
    (sender token : Address) (amount : ℕ) :
    NeverFull (s.collectDepositFunds ctx ts sender token amount) := by
  refine .bind (.checkedMul _ _ _) fun _ _ => ?_
  refine .bind (s.portal.params.calculateBouncebackFee_neverFull ctx.env) fun _ _ => ?_
  refine .bind (.checkedAdd _ _ _) fun _ _ => .bind (.require nofun) fun _ _ => ?_
  refine .bind (transferFrom_neverFull _ _ _ _ _ _) fun _ _ => .ite (fun _ => ?_) fun _ => .pure _
  exact .bind (tip20Transfer_neverFull _ _ _ _ _ _ _) fun _ _ => .pure _

theorem deposit_neverFull (args : DepositArgs W) (status : s.status = .callbackDepositAvailable)
    (room : s.portal.deposits.outstanding < MAX_UNPROCESSED_DEPOSITS) :
    NeverFull (s.deposit ctx ts sender args) := by
  refine .bind (.require nofun) fun _ _ => ?_
  refine .bind (checkDeposit_neverFull s.portal ctx sender args) fun _ _ => ?_
  refine .bind (collectDepositFunds_neverFull s ctx ts sender args.token args.amount) ?_
  rintro ⟨fee, net, funds⟩ hfunds
  obtain ⟨-, hcollected⟩ := L1.collectDepositFunds_ok hfunds
  have hportal := hcollected.portal_eq
  have hmaximum : (if funds.status = .callbackDepositAvailable then MAX_UNPROCESSED_DEPOSITS
      else MAX_UNPROCESSED_DEPOSITS - WITHDRAWAL_PROCESSING_DEPOSIT_RESERVE) =
      MAX_UNPROCESSED_DEPOSITS := if_pos (by rw [L1.status, hportal]; exact status)
  refine .bind ?_ fun _ _ => .pure _
  rw [hmaximum, hportal]
  exact DepositCursor.recordDeposit_neverFull _ room

end Deposit

end TempoZones
