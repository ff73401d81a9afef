import TempoZones.Portal.Reserve
import TempoZones.System.DepositSequence
import TempoZones.System.Settlement

/-!
# The withdrawal queue is a FIFO of the zone's batches

Withdrawals are dequeued exactly once and in the order of the zone's batches. A call with
withdrawals passes the queue checks exactly when it lists the front of the oldest batch and gives
the hash of the rest (`checksPass_iff`); a callback can only add batches behind it.
-/

namespace TempoZones

open Lib List Withdrawal

variable {W : Type} [EvmWord W] [DecidableEq W] {done rest : List (Withdrawal W × W)}

/-! ## Queue checks of a call -/

/-- The queue is not empty, and its front slot holds `hash`. -/
def WithdrawalQueue.Front (q : WithdrawalQueue W) (hash : W) : Prop :=
  q.head < q.tail ∧ q.slots q.head = hash

theorem WithdrawalQueue.Front.extends {q q' : WithdrawalQueue W} {hash : W} (h : q.Front hash)
    (hext : Extends q q') : q'.Front hash := by
  obtain ⟨hlt, hslot⟩ := h
  refine ⟨?_, ?_⟩
  · rw [hext.head_eq]
    exact hlt.trans_le hext.tail_le
  · rw [hext.head_eq, hext.slots_eq _ hlt, hslot]

variable {remainingQueue : W}

theorem WithdrawalQueue.Front.dequeue {q : WithdrawalQueue W} {w : Withdrawal W}
    (h : q.Front (w.hashWithTail remainingQueue)) : ∃ q', q.dequeue w remainingQueue = .ok q' ∧
      (remainingQueue ≠ 0 → q'.Front remainingQueue) := by
  obtain ⟨hlt, hslot⟩ := h
  have hok : q.dequeue w remainingQueue = .ok
      { q with slots := Function.update q.slots q.head remainingQueue
               head := if remainingQueue = 0 then q.head + 1 else q.head } := by
    simp only [WithdrawalQueue.dequeue, ok_iff]
    exact ⟨(), hslot.symm, trivial⟩
  refine ⟨_, hok, fun hne => ?_⟩
  simp only [WithdrawalQueue.Front, if_neg hne]
  exact ⟨hlt, Function.update_self _ _ _⟩

/-- Every queue check that the loop of `processWithdrawals` reaches from `e` passes. -/
def ChecksPass (ctx : CallCtx W) (replies : ℕ → Reply W) (ws : List (Withdrawal W))
    (remainingQueue : W) (e : L1 W) : Prop :=
  ∀ {done rest : List (Withdrawal W × W)} {w : Withdrawal W} {after : W} {p : L1 W},
    (remainingQueues ws remainingQueue).1 = done ++ (w, after) :: rest →
    L1.processLoop ctx replies 0 done e = .ok p →
    ∃ queue, p.portal.withdrawalQueue.dequeue w after = .ok queue

section Checks

variable {ctx : CallCtx W} {s s' : L1 W} {replies : ℕ → Reply W}

theorem processWithdrawal_queue {r : Reply W} {w : Withdrawal W} {remainingQueue : W}
    (confined : Confined ctx r) (init : s.portal.gov.initialized = true)
    (status : s.status = .processing)
    (h : s.processWithdrawal ctx r w remainingQueue = .ok s') :
    ∃ queue, s.portal.withdrawalQueue.dequeue w remainingQueue = .ok queue ∧
      Extends queue s'.portal.withdrawalQueue := by
  cases processWithdrawal_ok h with
  | refunded _ hd hrefund =>
    obtain ⟨queue, hqueue, rfl⟩ := L1.dequeueWithdrawal_ok hd
    obtain ⟨⟨refunds, hportal⟩, -⟩ := hrefund.frame
    refine ⟨queue, hqueue, ?_⟩
    rw [hportal]
    exact .refl _
  | bounced _ hd hbounce =>
    obtain ⟨queue, hqueue, rfl⟩ := L1.dequeueWithdrawal_ok hd
    obtain ⟨-, rfl⟩ := L1.enqueueBounceBack_ok hbounce
    exact ⟨queue, hqueue, .refl _⟩
  | paid _ hd hpay =>
    obtain ⟨queue, hqueue, rfl⟩ := L1.dequeueWithdrawal_ok hd
    cases hpay with
    | paid _ => exact ⟨queue, hqueue, .refl _⟩
  | delivered hentry hcallback _ =>
    obtain ⟨hopen, hstatus⟩ := hentry.opens status
    have hinit := hopen.initialized_eq.trans init
    have hentered : ∀ {a : L1 W}, a.status = .callbackDepositAvailable → a.status ≠ .notEntered :=
      fun h h' => by cases h.symm.trans h'
    have hext := ((confined hcallback).queue_extends hinit (hentered hstatus)).1
    obtain ⟨-, -, -, d, o, hd, ho, ha⟩ := hentry
    obtain ⟨queue, hqueue, rfl⟩ := L1.dequeueWithdrawal_ok hd
    obtain ⟨-, -, messengerAccount, target, -, -, rfl⟩ := openDelivery_openRelay_ok ho ha
    exact ⟨queue, hqueue, hext⟩

theorem remainingQueues_cons (w : Withdrawal W) (ws : List (Withdrawal W)) (remainingQueue : W) :
    (remainingQueues (w :: ws) remainingQueue).1 =
      (w, suffixChain hashWithTail remainingQueue ws) :: (remainingQueues ws remainingQueue).1 := by
  have hsnd : (remainingQueues ws remainingQueue).2 =
      suffixChain hashWithTail remainingQueue ws := by
    induction ws with
    | nil => rfl
    | cons v vs ih => exact congrArg v.hashWithTail ih
  rw [← hsnd]
  rfl

theorem remainingQueues_split {ws : List (Withdrawal W)} {remainingQueue after : W}
    {w : Withdrawal W} (h : (remainingQueues ws remainingQueue).1 = done ++ (w, after) :: rest) :
    after = suffixChain hashWithTail remainingQueue (rest.map Prod.fst) := by
  induction done generalizing ws with
  | nil =>
    cases ws with
    | nil => cases h
    | cons v vs =>
      rw [remainingQueues_cons] at h
      obtain ⟨hpair, rfl⟩ := List.cons.inj h
      rw [remainingQueues_fst, ← (Prod.mk.inj hpair).2]
  | cons x done ih =>
    cases ws with
    | nil => cases h
    | cons v vs =>
      rw [remainingQueues_cons] at h
      exact ih (List.cons.inj h).2

variable {ws : List (Withdrawal W)}

/-- While the loop runs, the unprocessed part of its list stays at the front of the queue; at its
end, the rest of the batch does. -/
theorem processLoop_front (hc : CollisionFree W) (confined : ∀ i, Confined ctx (replies i))
    (hrest : rest = [] → remainingQueue ≠ 0) {i : ℕ} (init : s.portal.gov.initialized = true)
    (status : s.status = .processing) (split : (remainingQueues ws remainingQueue).1 = done ++ rest)
    (front : s.portal.withdrawalQueue.Front (suffixChain hashWithTail remainingQueue ws))
    (h : L1.processLoop ctx replies i done s = .ok s') :
    s'.portal.withdrawalQueue.Front
      (suffixChain hashWithTail remainingQueue (rest.map Prod.fst)) := by
  induction done generalizing ws i s with
  | nil =>
    cases pure_ok_iff.1 h
    have hws := remainingQueues_fst ws remainingQueue
    rw [split] at hws
    rw [← hws] at front
    exact front
  | cons x done ih =>
    cases ws with
    | nil => cases split
    | cons w ws =>
      rw [remainingQueues_cons] at split
      obtain ⟨rfl, hsplit⟩ := List.cons.inj split
      obtain ⟨p, hp, h⟩ := bind_ok_iff.1 h
      obtain ⟨queue, hqueue, hext⟩ := processWithdrawal_queue (confined i) init status hp
      obtain ⟨queue', hqueue', hfront⟩ := WithdrawalQueue.Front.dequeue front
      cases hqueue.symm.trans hqueue'
      obtain ⟨hpath, hstatus⟩ :=
        processWithdrawal_micro (fun h => (confined i h).traced) init status hp
      -- withdrawals are left in the list or behind it, so the batch is not exhausted
      have hne : suffixChain hashWithTail remainingQueue ws ≠ 0 := by
        cases ws with
        | nil =>
          have hnil := (append_eq_nil_iff.1 hsplit.symm).2
          exact hrest hnil
        | cons v vs => exact (withdrawal_binding hc).link_ne _ _
      exact ih (hpath.initialized_eq.trans init) hstatus hsplit ((hfront hne).extends hext) h

/-- A call with withdrawals passes the queue checks exactly when it lists the front of the oldest
batch and gives the hash of the rest. -/
theorem checksPass_iff (hc : CollisionFree W) (confined : ∀ i, Confined ctx (replies i))
    {content : List (List (Withdrawal W))} (init : s.portal.gov.initialized = true)
    (status : s.status = .processing) (hq : s.portal.withdrawalQueue.Holds content)
    (hws : ws ≠ []) :
    ChecksPass ctx replies ws remainingQueue s ↔ ∃ rest others, content = (ws ++ rest) :: others ∧
        remainingQueue = queueHash rest := by
  have hfront := Represents.front_iff (withdrawal_binding hc) hq (r := remainingQueue) hws
  constructor
  · intro hpass
    apply hfront.1
    cases ws with
    | nil => exact absurd rfl hws
    | cons w ws =>
      -- the first check alone compares the whole list with the front slot
      obtain ⟨queue, hqueue⟩ := @hpass [] _ w _ s (remainingQueues_cons w ws _) rfl
      simp only [WithdrawalQueue.dequeue, ok_iff] at hqueue
      obtain ⟨-, hslot, -⟩ := hqueue
      exact hslot
  · rintro ⟨batch, others, hcontent, hremaining⟩ done rest w after p split hloop
    have hslot := hfront.2 ⟨batch, others, hcontent, hremaining⟩
    have hlt : s.portal.withdrawalQueue.head < s.portal.withdrawalQueue.tail := by
      have htail := hq.tail_eq
      rw [hcontent, length_cons] at htail
      omega
    have hend := processLoop_front hc confined (fun h => absurd h (cons_ne_nil _ _)) init
      status split ⟨hlt, hslot.symm⟩ hloop
    rw [map_cons, suffixChain_cons, ← remainingQueues_split split] at hend
    obtain ⟨queue, hqueue, -⟩ := hend.dequeue
    exact ⟨queue, hqueue⟩

theorem processWithdrawals_nil {sender : Address} {e : L1 W} (remainingQueue : W)
    (h : s.enterProcessing ctx sender 0 = .ok e) :
    ChecksPass ctx replies [] remainingQueue e ∧
      s.processWithdrawals ctx sender [] remainingQueue replies = .ok s := by
  have hstatus : s.status = .notEntered := (enterProcessing_ok h).2.2.1
  have he : e = s.setStatus .processing := (enterProcessing_ok h).2.2.2.2.2
  refine ⟨fun split _ => absurd split (by simp [remainingQueues]), ?_⟩
  have hreset : e.setStatus .notEntered = s := by
    rw [he, ← hstatus]
    rfl
  rw [L1.processWithdrawals, length_nil, h, ← hreset]
  rfl

theorem processWithdrawals_empty (hc : CollisionFree W) {sender : Address}
    (hq : s.portal.withdrawalQueue.Holds []) (hws : ws ≠ []) :
    ∃ e, s.processWithdrawals ctx sender ws remainingQueue replies = .error e := by
  cases hrun : s.processWithdrawals ctx sender ws remainingQueue replies with
  | error e => exact ⟨e, rfl⟩
  | ok s' =>
    simp only [L1.processWithdrawals, bind_ok_iff] at hrun
    obtain ⟨e, he, p, hloop, -⟩ := hrun
    obtain ⟨-, -, -, -, -, rfl⟩ := enterProcessing_ok he
    cases ws with
    | nil => exact absurd rfl hws
    | cons w ws =>
      rw [remainingQueues_cons] at hloop
      obtain ⟨p₁, hfirst, -⟩ := bind_ok_iff.1 hloop
      obtain ⟨d, hd, -⟩ := bind_ok_iff.1 hfirst
      obtain ⟨queue, hqueue, -⟩ := L1.dequeueWithdrawal_ok hd
      obtain ⟨rest, others, hcontent, -⟩ := WithdrawalQueue.Holds.dequeue hc hq hqueue
      cases hcontent

end Checks

/-! ## Main result -/

/-- **FIFO refinement.** With a collision-free hash and a verifier that accepts only the zone's
batches, in every observed state: the batches accepted by the portal are the first batches of the
zone; the withdrawals ever dequeued are a prefix of theirs; `head ≤ tail`, and exactly the slots in
between are nonzero. A `processWithdrawals` call with withdrawals passes the queue checks exactly
when they are a prefix of the oldest list and `remainingQueue` is the hash of its rest, a call
without withdrawals changes nothing, and on an empty queue every call with withdrawals reverts. -/
theorem withdrawal_queue_refines_fifo {π : Platform W} {σ : Sys W} (hc : CollisionFree W)
    (hsound : π.Sound) (h : Visible π σ) :
    let settled := settledBatches σ.zone.history.batches σ.l1
    let queue := σ.l1.portal.withdrawalQueue
    σ.l1.history.accepted.map (·.call.withdrawalQueueHash) = settled.map queueHash ∧
    σ.l1.history.dequeued <+: settled.flatten ∧
    queue.head ≤ queue.tail ∧ (∀ i, queue.slots i ≠ 0 ↔ queue.head ≤ i ∧ i < queue.tail) ∧
    ∃ content, FifoRun settled σ.l1.history.dequeued content ∧ queue.Holds content ∧
      ∀ (ctx : CallCtx W) (sender : Address) (ws : List (Withdrawal W)) (remainingQueue : W)
        (replies : ℕ → Reply W), (∀ i, Confined ctx (replies i)) →
        (∀ e, σ.l1.enterProcessing ctx sender ws.length = .ok e → ws ≠ [] →
          (ChecksPass ctx replies ws remainingQueue e ↔
            ∃ rest others, content = (ws ++ rest) :: others ∧
              remainingQueue = queueHash rest)) ∧
        (∀ e, σ.l1.enterProcessing ctx sender ws.length = .ok e → ws = [] →
          ChecksPass ctx replies ws remainingQueue e ∧
            σ.l1.processWithdrawals ctx sender ws remainingQueue replies = .ok σ.l1) ∧
        (queue.head = queue.tail → ws ≠ [] →
          ∃ e, σ.l1.processWithdrawals ctx sender ws remainingQueue replies = .error e) := by
  have hsettles := (h.trace.settles hc hsound).1
  obtain ⟨content, hrun, hholds⟩ := hsettles.queue
  refine ⟨hsettles.submitted, hrun.popped_prefix, hholds.head_le,
    Represents.slot_ne_iff (withdrawal_binding hc) hholds, content, hrun, hholds, ?_⟩
  intro ctx sender ws remainingQueue replies hconfined
  refine ⟨?_, ?_, ?_⟩
  · intro e he hws
    obtain ⟨-, -, -, -, -, rfl⟩ := enterProcessing_ok he
    exact checksPass_iff hc hconfined h.initialized rfl hholds hws
  · rintro e he rfl
    exact processWithdrawals_nil remainingQueue he
  · intro hempty hws
    have hcontent : content = [] := by
      have htail := hholds.tail_eq
      exact length_eq_zero_iff.1 (by omega)
    subst hcontent
    exact processWithdrawals_empty hc hholds hws

namespace Example

def request : RequestWithdrawal Sym where
  token := 50
  recipient := 70
  amount := 5
  memo := .num 12
  gasLimit := 0
  zoneFallbackRecipient := 71
  data := []
  revealTo := []

def burnReply : BurnReply where
  isTIP20 := fun _ => true
  transferFrom := fun _ _ _ => .succeeds
  burns := fun _ _ => true

def zoneRequested : Zone Sym :=
  zoneApply zoneCtx 20 zoneImported (.requestWithdrawal 20 (.num 11) request burnReply)

theorem requests : zoneExec zoneCtx 20 zoneImported
    (.requestWithdrawal 20 (.num 11) request burnReply) = .ok zoneRequested := rfl

def zoneFinalized : Zone Sym :=
  zoneApply zoneCtx 0 zoneRequested (.finalizeWithdrawalBatch 1 1 [[]])

theorem finalizes : zoneExec zoneCtx 0 zoneRequested (.finalizeWithdrawalBatch 1 1 [[]]) =
    .ok zoneFinalized := rfl

def sent : Withdrawal Sym where
  token := 50
  senderTag := senderTagOf 20 (.num 11) 1
  recipient := 70
  amount := 5
  memo := .num 12
  gasLimit := 0
  fallbackNonce := 1
  callbackData := []
  encryptedSender := []

def processedHash : Sym := QueueEntry.queueHash [.deposit (depositArgs.queued 20 0)]

def firstBatch : FinalizedBatch Sym where
  withdrawals := [sent]
  withdrawalQueueHash := queueHash [sent]
  withdrawalBatchIndex := 1
  processedDepositQueueHash := processedHash
  processedDepositNumber := 1
  processedEnabledTokenCount := 1
  tempoBlockNumber := 7

theorem batches_eq : zoneFinalized.history.batches = [firstBatch] := rfl

def submission : SubmitBatch Sym where
  tempoBlockNumber := 7
  recentTempoBlockNumber := 0
  blockTransition := ⟨0, .num 5⟩
  depositQueueTransition := ⟨0, processedHash, 0, 1⟩
  tokenEnablementTransition := ⟨0, 1⟩
  withdrawalQueueHash := queueHash [sent]
  verifierConfig := []
  proof := []
  nextZoneHeight := 3
  signatures := [[1], [2]]

def env8 : BlockEnv := ⟨8, 1001, 0, 1, next_number_lt, by decide, env.basefee_lt⟩

def submissionDigest : Sym :=
  (deposited.portal.attestation submission 7 (.num 9)).digest ⟨env8, ext⟩

def ctx8 : CallCtx Sym :=
  ⟨env8, { ext with
    recover := fun digest signature => if digest = submissionDigest then signer signature else none
    verify := fun v => decide (v.expectedWithdrawalBatchIndex = 1 ∧
      v.withdrawalQueueHash = queueHash [sent] ∧
      v.depositQueueTransition.nextProcessedHash = processedHash ∧
      v.depositQueueTransition.nextDepositNumber = 1 ∧
      v.tokenEnablementTransition.nextProcessedTokenCount = 1 ∧ v.tempoBlockNumber = 7)
    getBlockHash := fun _ => .num 9 }⟩

theorem ctx8_sound : VerifierSound zoneFinalized ctx8.ext := by
  intro v hv
  obtain ⟨hindex, hwithdrawals, hhash, hnumber, htokens, htempo⟩ := of_decide_eq_true hv
  rw [batches_eq]
  exact ⟨firstBatch, mem_singleton.2 rfl, ⟨hindex, hwithdrawals, hhash, hnumber, htokens, htempo⟩⟩

theorem submission_certified :
    deposited.portal.verifySettlement ctx8 submission 7 (.num 9) = true := by
  have hrecover : ∀ signature, ctx8.ext.recover submissionDigest signature = signer signature :=
    fun _ => if_pos rfl
  have hdigest : (deposited.portal.attestation submission 7 (.num 9)).digest ctx8 =
    submissionDigest := rfl
  rw [Portal.verifySettlement, if_neg (by decide), hdigest, Bool.and_eq_true]
  exact ⟨signatures_pass (hrecover _) (hrecover _), by decide⟩

def settled8 : L1 Sym := deposited.settle ctx8 submission 7 (.num 9)

theorem settles8 : deposited.submitBatch ctx8 1 submission = .ok settled8 := by
  have hproven : ctx8.ext.verify (deposited.portal.verifyCall submission 7 (.num 9)) = true := by
    simp only [ctx8, decide_eq_true_iff]
    exact ⟨rfl, rfl, rfl, rfl, rfl, rfl⟩
  simp only [L1.submitBatch, DepositCursor.checkTransition, TokenRegistry.checkTransition,
    ok_iff, checkedAdd_eq_ok]
  exact ⟨(), by decide, (), rfl, (7, .num 9), rfl, (), submission_certified, (), by decide, (),
    ⟨(), by decide, by decide⟩, 1, ⟨by decide, rfl⟩, (), hproven, rfl⟩

def sysSettled : Sys Sym := ⟨settled8, sysBlock.blocks, zoneFinalized⟩

theorem sysSettled_reachable : Reachable platform sysSettled := by
  have houtside : ∀ a : Address, a = 0 ∨ a = 20 → a ≠ ZONE_INBOX_ADDRESS := by
    rintro a (rfl | rfl) <;> decide
  have himported := sysBlock_reachable.zoneRun zoneCtx_reads (houtside 0 (.inl rfl)) imports
  have hrequested := himported.zoneRun zoneCtx_reads (houtside 20 (.inr rfl)) requests
  have hfinalized := hrequested.zoneRun zoneCtx_reads (houtside 0 (.inl rfl)) finalizes
  have hoff : (1 : Address) ≠ ctx8.ext.self := by decide
  have hcontrol : Control ctx8 deposited settled8 :=
    .call (c := .submitBatch submission) (.refl _) hoff settles8
  exact .transaction hfinalized ⟨rfl, rfl, ctx8_sound⟩ hcontrol deposited_balances

theorem sysSettled_holds : settled8.portal.withdrawalQueue.Holds [[sent]] := by
  have hempty : deposited.portal.withdrawalQueue.Holds [] := .empty _ _ 0
  exact hempty.enqueue Sym.collisionFree [sent]

theorem sysSettled_settled :
    settledBatches sysSettled.zone.history.batches sysSettled.l1 = [[sent]] := by
  show settledBatches zoneFinalized.history.batches settled8 = _
  rw [batches_eq]
  rfl

def refusing : Reply Sym where
  fee := tokenSystem
  payout := tokenSystem
  relay := tokenSystem
  callback := fun _ _ _ => none

def paid8 : L1 Sym :=
  match settled8.processWithdrawals ctx8 1 [sent] (queueHash []) fun _ => refusing with
  | .ok s => s
  | .error _ => settled8

theorem sysPaid_reachable : Reachable platform { sysSettled with l1 := paid8 } := by
  have hpays : settled8.processWithdrawals ctx8 1 [sent] (queueHash []) (fun _ => refusing) =
      .ok paid8 := rfl
  refine sysSettled_reachable.transaction ⟨rfl, rfl, ctx8_sound⟩
    (.process (.refl _) (show (1 : Address) ≠ ctx8.ext.self by decide)
      (fun {_} => (nofun : Confined ctx8 refusing)) hpays) ?_
  intro token account
  have hdeposited := deposited_le token account
  have hmoved : paid8.ledger token account ≤ deposited.ledger token account + 5 := by
    show deposited.ledger.move 50 100 70 5 token account ≤ _
    unfold Ledger.move
    split_ifs <;> omega
  omega

end Example

open Example

/-- The batch is settled and paid: the queue is empty, and one more withdrawal is refused. -/
theorem withdrawal_queue_refines_fifo_example :
    paid8.history.dequeued = [sent] ∧ [sent] <+: [[sent]].flatten ∧
      (∀ i, paid8.portal.withdrawalQueue.slots i ≠ 0 ↔ 1 ≤ i ∧ i < 1) ∧
      ∃ e, paid8.processWithdrawals ctx8 1 [sent] 0 (fun _ => refusing) = .error e := by
  obtain ⟨-, hpre, -, hslots, content, -, -, hcalls⟩ := withdrawal_queue_refines_fifo
    Sym.collisionFree platform_sound (.between sysPaid_reachable)
  exact ⟨rfl, hpre, hslots,
    (hcalls ctx8 1 [sent] 0 (fun _ => refusing) fun _ => (nofun : Confined ctx8 refusing)).2.2 rfl (cons_ne_nil _ _)⟩

/-- The oldest batch of the example queue is unpaid. A call without withdrawals passes with a
remainder that is not the hash of the rest of that batch. -/
theorem empty_call_passes_with_wrong_remainder :
    Visible platform sysSettled ∧
      FifoRun (settledBatches sysSettled.zone.history.batches sysSettled.l1)
        sysSettled.l1.history.dequeued [[sent]] ∧
      sysSettled.l1.portal.withdrawalQueue.Holds [[sent]] ∧
      (∃ e, sysSettled.l1.enterProcessing ctx8 1 0 = .ok e ∧
        ChecksPass ctx8 (fun _ => refusing) [] (.num 1) e ∧
        sysSettled.l1.processWithdrawals ctx8 1 [] (.num 1)
          (fun _ => refusing) = .ok sysSettled.l1) ∧
      ¬ ∃ rest others, [[sent]] = ([] ++ rest) :: others ∧
        Sym.num 1 = queueHash rest := by
  have henter : sysSettled.l1.enterProcessing ctx8 1 0 =
      .ok (sysSettled.l1.setStatus .processing) := rfl
  have hnil := @processWithdrawals_nil Sym _ _ _ _ (fun _ => refusing) _ _ (.num 1) henter
  have hrun : FifoRun [[sent]] [] [[sent]] := FifoRun.empty.push [sent]
  rw [sysSettled_settled]
  refine ⟨.between sysSettled_reachable, hrun, sysSettled_holds,
    ⟨_, henter, hnil⟩, ?_⟩
  rintro ⟨rest, others, hcontent, hhash⟩
  obtain ⟨rfl, -⟩ := List.cons.inj hcontent
  cases hhash

end TempoZones
