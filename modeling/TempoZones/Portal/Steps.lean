import TempoZones.Portal.Calls

/-!
# Steps of the portal

`Micro` lists every change that a transaction can make to the portal, one constructor per committed
effect: a call, entering and leaving withdrawal processing, the disposal of one withdrawal, and the
end of a callback. `Control.traced` and `Sees.path` prove that everything outside code brings about
or observes is a path of such steps, so an invariant is proved by looking at each step once.
-/

namespace TempoZones

open Lib Relation

variable {W : Type} [EvmWord W] [DecidableEq W] {remainingQueue : W}

/-- Effects of a withdrawal after it left the queue: refund of a failed deposit, bounce-back entry,
plain payout, or payout through the messenger with the callback about to run. -/
inductive Disposed (self : Address) (w : Withdrawal W) (d : L1 W) : L1 W → Prop
  | refunded {s' : L1 W} (nonce : w.fallbackNonce = 0) (refund : L1.Refunded self w d s') :
      Disposed self w d s'
  | bounced (nonce : w.fallbackNonce ≠ 0)
      (accepts : d.portal.deposits.Accepts MAX_UNPROCESSED_DEPOSITS) :
      Disposed self w d
        ((d.appendEntry (.bounceBack ⟨w.token, Fin.ofNat _ w.fallbackNonce, w.amount⟩)
          (.withdrawalBounceBack (DepositQueueLib.enqueue
            d.portal.deposits.currentDepositQueueHash
            ⟨w.token, Fin.ofNat _ w.fallbackNonce, w.amount⟩)
            w.fallbackNonce w.token w.amount (d.portal.deposits.depositCount + 1))).emit
          (.withdrawalProcessed w.recipient w.senderTag w.token w.amount false))
  | paid {account : Address} (nonce : w.fallbackNonce ≠ 0)
      (covered : w.amount ≤ d.ledger w.token self) :
      Disposed self w d ((d.pay self w.token self account w.amount).emit
        (.withdrawalProcessed w.recipient w.senderTag w.token w.amount true))
  | opened {messengerAccount target : Address} (nonce : w.fallbackNonce ≠ 0)
      (covered : w.amount ≤ d.ledger w.token self) (messenger : d.portal.gov.messenger ≠ self) :
      Disposed self w d (d.opened self w messengerAccount target)

inductive CallStep (ctx : CallCtx W) (s : L1 W) : L1 W → Prop
  | govern {sender : Address} {g : Governance} {logs : List (PortalEvent W)}
      (step : GovernStep ctx.env sender s.portal.gov g logs) : CallStep ctx s (s.withGov g logs)
  | configure {params : Params W} {registry : TokenRegistry W} {logs : List (PortalEvent W)}
      (step : ConfigureStep s.portal params registry logs) :
      CallStep ctx s (s.withConfig params registry logs)
  | deposit {funds : L1 W} {sender : Address} {args : DepositArgs W} {fee : ℕ}
      (outside : sender ≠ ctx.ext.self)
      (collected : L1.Collected ctx sender args.token args.amount s fee funds)
      (accepts : s.portal.deposits.Accepts s.status.depositLimit) :
      CallStep ctx s ((funds.setStatus s.status.afterDeposit).appendEntry
        (.deposit (args.queued sender fee))
        (.depositMade (DepositQueueLib.enqueueDeposit s.portal.deposits.currentDepositQueueHash
          (args.queued sender fee)) (args.queued sender fee) fee
          (s.portal.deposits.depositCount + 1)))
  | claimRefund {token owner account : Address}
      (covered : s.portal.refunds token owner ≤ s.ledger token ctx.ext.self) :
      CallStep ctx s (((s.setRefund token owner 0).pay ctx.ext.self token ctx.ext.self account
        (s.portal.refunds token owner)).emit
        (.refundClaimed owner token (s.portal.refunds token owner)))
  | submitBatch {sender : Address} {call : SubmitBatch W} {anchorBlockNumber : ℕ}
      {anchorBlockHash : W}
      (accepted : Accepted ctx sender s.portal call anchorBlockNumber anchorBlockHash) :
      CallStep ctx s (s.settle ctx call anchorBlockNumber anchorBlockHash)

inductive Micro (ctx : CallCtx W) (s : L1 W) : L1 W → Prop
  | call {s' : L1 W} (step : CallStep ctx s s') : Micro ctx s s'
  | enter (status : s.status = .notEntered) : Micro ctx s (s.setStatus .processing)
  | exit (status : s.status = .processing) : Micro ctx s (s.setStatus .notEntered)
  | withdraw {s' : L1 W} {w : Withdrawal W} {remainingQueue : W} {queue : WithdrawalQueue W}
      (status : s.status = .processing)
      (dequeue : s.portal.withdrawalQueue.dequeue w remainingQueue = .ok queue)
      (disposed : Disposed ctx.ext.self w (s.withDequeued queue w) s') : Micro ctx s s'
  | closeCallback {recipient token : Address} {senderTag : W} {amount : ℕ}
      (status : s.status = .callbackDepositAvailable ∨ s.status = .callbackDepositConsumed) :
      Micro ctx s (s.closed.emit (.withdrawalProcessed recipient senderTag token amount true))
  | outside {s' : L1 W} (move : Outside ctx s s') : Micro ctx s s'

abbrev MicroPath (ctx : CallCtx W) : L1 W → L1 W → Prop := ReflTransGen (Micro ctx)

/-! ## Calls are steps -/

variable {ctx : CallCtx W} {s s' : L1 W} {sender : Address}

theorem exec_cases {c : Call W} (outside : sender ≠ ctx.ext.self)
    (h : exec ctx sender s c = .ok s') :
    CallStep ctx s s' ∨ (s.portal.gov.initialized = false ∧
      ∃ log logs, s'.logs = s.logs ++ log :: logs) := by
  cases c with
  | initializePortal args =>
    simp only [exec, Portal.initializePortal, ok_iff] at h
    obtain ⟨-, ⟨-, -, -, -, -, hfresh, -, -, -, -, -, -, -, -, -, -, rfl⟩, rfl⟩ := h
    exact .inr ⟨hfresh, _, _, rfl⟩
  | govern call =>
    obtain ⟨⟨g, logs⟩, hgovern, h⟩ := bind_ok_iff.1 h
    cases pure_ok_iff.1 h
    exact .inl (.govern (govern_step hgovern))
  | configure call =>
    obtain ⟨⟨params, registry, logs⟩, hconfigure, h⟩ := bind_ok_iff.1 h
    cases pure_ok_iff.1 h
    exact .inl (.configure (configure_step hconfigure))
  | deposit args ts =>
    obtain ⟨fee, funds, hcollected, haccepts, rfl⟩ := L1.deposit_ok h
    exact .inl (.deposit outside hcollected haccepts)
  | claimRefund token ts =>
    obtain ⟨account, hcovered, rfl⟩ := L1.claimRefund_ok h
    exact .inl (.claimRefund hcovered)
  | submitBatch call =>
    obtain ⟨n, hash, haccepted, rfl⟩ := submitBatch_ok h
    exact .inl (.submitBatch haccepted)
  | deliverWithdrawal w r =>
    -- the self-call frame rejects every other caller
    simp only [exec, L1.deliverWithdrawal, L1.openDelivery, ok_iff] at h
    obtain ⟨-, ⟨-, hself, -⟩, -⟩ := h
    exact absurd hself outside

theorem exec_step {c : Call W} (init : s.portal.gov.initialized = true)
    (outside : sender ≠ ctx.ext.self) (h : exec ctx sender s c = .ok s') : CallStep ctx s s' := by
  rcases exec_cases outside h with hstep | ⟨hfresh, -⟩
  · exact hstep
  · rw [init] at hfresh
    cases hfresh

/-! ## Frames -/

theorem L1.Collected.frame {token : Address} {amount fee : ℕ} {funds : L1 W}
    (h : L1.Collected ctx sender token amount s fee funds) :
    funds.portal = s.portal ∧ funds.logs = s.logs ∧ funds.history.dequeued = s.history.dequeued ∧
      funds.history.accepted = s.history.accepted := by
  cases h with
  | refused portal logs dequeued accepted _ => exact ⟨portal, logs, dequeued, accepted⟩
  | _ => exact ⟨rfl, rfl, rfl, rfl⟩

theorem L1.Attempt.frame {self token : Address} {amount : ℕ} {ok : Bool}
    (h : L1.Attempt self token amount s ok s') :
    s'.portal = s.portal ∧ s'.logs = s.logs ∧ s'.history.dequeued = s.history.dequeued ∧
      s'.history.accepted = s.history.accepted := by
  cases h <;> exact ⟨rfl, rfl, rfl, rfl⟩

variable {w : Withdrawal W}

theorem L1.Refunded.frame {self : Address} {d : L1 W} (h : L1.Refunded self w d s') :
    (∃ refunds, s'.portal = { d.portal with refunds := refunds }) ∧
      (∃ log, s'.logs = d.logs ++ [log] ∧ log.Quiet) ∧
      s'.history.dequeued = d.history.dequeued ∧ s'.history.accepted = d.history.accepted := by
  cases h with
  | paid hfee _ hpay =>
    obtain ⟨hp, hl, hd, ha⟩ := hpay.frame
    obtain ⟨hp', hl', hd', ha'⟩ := hfee.frame
    exact ⟨⟨d.portal.refunds, hp.trans hp'⟩, ⟨.depositBounceBack _ _ _ _,
      congrArg (· ++ [_]) (hl.trans hl'), ⟨rfl, rfl, rfl⟩⟩, hd.trans hd', ha.trans ha'⟩
  | @parked fee refund collected s₁ hfee _ _ =>
    obtain ⟨hp', hl', hd', ha'⟩ := hfee.frame
    refine ⟨⟨(s₁.setRefund w.token w.recipient
      (s₁.portal.refunds w.token w.recipient + refund)).portal.refunds, ?_⟩,
      ⟨.depositBounceBackPending _ _ _ _, congrArg (· ++ [_]) hl', ⟨rfl, rfl, rfl⟩⟩, hd', ha'⟩
    rw [← hp']
    rfl

/-! ## Status -/

/-- Status changes that outside code can cause: the reserved deposit is used. -/
def WithdrawalStatus.Leads (a b : WithdrawalStatus) : Prop :=
  b = a ∨ (a = .callbackDepositAvailable ∧ b = .callbackDepositConsumed)

theorem WithdrawalStatus.Leads.trans {a b c : WithdrawalStatus} (hab : a.Leads b)
    (hbc : b.Leads c) : a.Leads c := by
  rcases hab with rfl | ⟨rfl, rfl⟩
  · exact hbc
  rcases hbc with rfl | ⟨h, -⟩
  · exact .inr ⟨rfl, rfl⟩
  · cases h

theorem WithdrawalStatus.leads_afterDeposit (a : WithdrawalStatus) : a.Leads a.afterDeposit := by
  cases a with
  | callbackDepositAvailable => exact .inr ⟨rfl, rfl⟩
  | _ => exact .inl rfl

theorem CallStep.status (h : CallStep ctx s s') : s.status.Leads s'.status := by
  cases h with
  | deposit _ _ _ => exact s.status.leads_afterDeposit
  | _ => exact .inl rfl

/-! ## Initialization is kept -/

theorem GovernStep.initialized_eq {env : BlockEnv} {g g' : Governance}
    {logs : List (PortalEvent W)} (h : GovernStep env sender g g' logs) :
    g'.initialized = g.initialized := by
  cases h <;> rfl

theorem CallStep.initialized_eq (h : CallStep ctx s s') :
    s'.portal.gov.initialized = s.portal.gov.initialized := by
  cases h with
  | govern step => exact step.initialized_eq
  | deposit _ collected _ => exact congrArg (·.gov.initialized) collected.portal_eq
  | _ => rfl

theorem Disposed.gov_eq {self : Address} {d : L1 W} (h : Disposed self w d s') :
    s'.portal.gov = d.portal.gov := by
  cases h with
  | refunded _ refund =>
    obtain ⟨⟨refunds, hp⟩, -⟩ := refund.frame
    rw [hp]
  | _ => rfl

theorem Micro.initialized_eq (h : Micro ctx s s') :
    s'.portal.gov.initialized = s.portal.gov.initialized := by
  cases h with
  | call step => exact step.initialized_eq
  | withdraw _ _ disposed => exact congrArg (·.initialized) disposed.gov_eq
  | outside move => rw [move.portal_eq]
  | _ => rfl

theorem MicroPath.initialized_eq (h : MicroPath ctx s s') :
    s'.portal.gov.initialized = s.portal.gov.initialized := by
  induction h with
  | refl => rfl
  | tail _ step ih => exact step.initialized_eq.trans ih

/-! ## Processing is a path of steps -/

/-- What the proofs below use of a callback: its changes are a path of steps that at most use the
reserved deposit. -/
def Traced (ctx : CallCtx W) (s s' : L1 W) : Prop :=
  s.portal.gov.initialized = true → MicroPath ctx s s' ∧ s.status.Leads s'.status

theorem CallbackEntry.opens {r : Reply W} {a : L1 W} (status : s.status = .processing)
    (h : CallbackEntry ctx r w remainingQueue s a) :
    Micro ctx s a ∧ a.status = .callbackDepositAvailable := by
  obtain ⟨hnonce, -, -, d, o, hd, ho, ha⟩ := h
  obtain ⟨queue, hqueue, rfl⟩ := L1.dequeueWithdrawal_ok hd
  obtain ⟨hcovered, hmessenger, messengerAccount, target, -, -, rfl⟩ :=
    openDelivery_openRelay_ok ho ha
  exact ⟨.withdraw status hqueue (.opened hnonce hcovered hmessenger), rfl⟩

theorem processWithdrawal_micro {r : Reply W}
    (callbacks : ∀ {target message a ok b}, r.callback target message a = some (ok, b) → Traced ctx a b)
    (init : s.portal.gov.initialized = true) (status : s.status = .processing)
    (h : s.processWithdrawal ctx r w remainingQueue = .ok s') :
    MicroPath ctx s s' ∧ s'.status = .processing := by
  cases processWithdrawal_ok h with
  | refunded hnonce hd hrefund =>
    obtain ⟨queue, hqueue, rfl⟩ := L1.dequeueWithdrawal_ok hd
    obtain ⟨⟨refunds, hp⟩, -⟩ := hrefund.frame
    refine ⟨.single (.withdraw status hqueue (.refunded hnonce hrefund)), ?_⟩
    rw [L1.status, hp]
    exact status
  | bounced hnonce hd hbounce =>
    obtain ⟨queue, hqueue, rfl⟩ := L1.dequeueWithdrawal_ok hd
    obtain ⟨haccepts, rfl⟩ := L1.enqueueBounceBack_ok hbounce
    exact ⟨.single (.withdraw status hqueue (.bounced hnonce haccepts)), status⟩
  | paid hnonce hd hpay =>
    obtain ⟨queue, hqueue, rfl⟩ := L1.dequeueWithdrawal_ok hd
    cases hpay with
    | paid covered => exact ⟨.single (.withdraw status hqueue (.paid hnonce covered)), status⟩
  | @delivered a b message hentry hcallback _ =>
    obtain ⟨hopen, hstatus⟩ := hentry.opens status
    obtain ⟨hpath, hleads⟩ := callbacks hcallback (hopen.initialized_eq.trans init)
    rw [hstatus] at hleads
    have hclose : b.status = .callbackDepositAvailable ∨ b.status = .callbackDepositConsumed :=
      hleads.imp id And.right
    exact ⟨(ReflTransGen.head hopen hpath).tail (.closeCallback hclose), rfl⟩

theorem processLoop_micro {replies : ℕ → Reply W} (callbacks : ∀ {i target message a ok b},
      (replies i).callback target message a = some (ok, b) → Traced ctx a b)
    {ws : List (Withdrawal W × W)} :
    ∀ {i : ℕ} {s : L1 W}, s.portal.gov.initialized = true → s.status = .processing →
      L1.processLoop ctx replies i ws s = .ok s' →
      MicroPath ctx s s' ∧ s'.status = .processing := by
  induction ws with
  | nil =>
    intro i s _ status h
    cases pure_ok_iff.1 h
    exact ⟨.refl, status⟩
  | cons head rest ih =>
    obtain ⟨w, remainingQueue⟩ := head
    intro i s init status h
    obtain ⟨m, hm, h⟩ := bind_ok_iff.1 h
    obtain ⟨hpath, hstatus⟩ := processWithdrawal_micro callbacks init status hm
    obtain ⟨hrest, hend⟩ := ih (hpath.initialized_eq.trans init) hstatus h
    exact ⟨hpath.trans hrest, hend⟩

theorem processWithdrawals_micro {replies : ℕ → Reply W} {ws : List (Withdrawal W)}
    (callbacks : ∀ {i target message a ok b}, (replies i).callback target message a = some (ok, b) → Traced ctx a b)
    (init : s.portal.gov.initialized = true)
    (h : s.processWithdrawals ctx sender ws remainingQueue replies = .ok s') :
    MicroPath ctx s s' ∧ s.status = .notEntered ∧ s'.status = .notEntered := by
  simp only [L1.processWithdrawals, ok_iff] at h
  obtain ⟨e, he, p, hp, rfl⟩ := h
  obtain ⟨-, -, hstatus, -, -, rfl⟩ := enterProcessing_ok he
  obtain ⟨hloop, hend⟩ := processLoop_micro (s := s.setStatus .processing) callbacks init rfl hp
  exact ⟨(ReflTransGen.head (.enter hstatus) hloop).tail (.exit hend), hstatus, rfl⟩

theorem Control.traced (h : Control ctx s s') : Traced ctx s s' := by
  induction h with
  | refl s => exact fun _ => ⟨.refl, .inl rfl⟩
  | call _ outside run ih =>
    intro init
    obtain ⟨hpath, hleads⟩ := ih init
    have hstep := exec_step (hpath.initialized_eq.trans init) outside run
    exact ⟨hpath.tail (.call hstep), hleads.trans hstep.status⟩
  | process _ _ _ run ih ihCallbacks =>
    intro init
    obtain ⟨hpath, hleads⟩ := ih init
    obtain ⟨hprocess, hstatus, hstatus'⟩ :=
      processWithdrawals_micro ihCallbacks (hpath.initialized_eq.trans init) run
    refine ⟨hpath.trans hprocess, ?_⟩
    rw [hstatus] at hleads
    rw [hstatus']
    exact hleads
  | outside _ move ih =>
    intro init
    obtain ⟨hpath, hleads⟩ := ih init
    refine ⟨hpath.tail (.outside move), ?_⟩
    simp only [L1.status, move.portal_eq]
    exact hleads

section

variable (init : s.portal.gov.initialized = true)
include init

theorem Sees.path (h : Sees ctx s s') : MicroPath ctx s s' := by
  induction h with
  | reached before => exact (before.traced init).1
  | @inside _ m _ _ _ _ _ _ _ _ _ _ _ _ before _ callbacks enter _ processed entry _ ih =>
    have hbefore := (before.traced init).1
    obtain ⟨-, -, hstatus, -, -, rfl⟩ := enterProcessing_ok enter
    obtain ⟨hloop, hend⟩ := processLoop_micro (s := m.setStatus .processing)
      (fun hc => (callbacks _ hc).traced) (hbefore.initialized_eq.trans init) rfl processed
    obtain ⟨hopen, -⟩ := entry.opens hend
    have hpath : MicroPath ctx _ _ := ((hbefore.tail (.enter hstatus)).trans hloop).tail hopen
    exact hpath.trans (ih (hpath.initialized_eq.trans init))

theorem Control.notEntered (status : s.status = .notEntered) (h : Control ctx s s') :
    s'.status = .notEntered := by
  rcases (h.traced init).2 with heq | ⟨hcallback, -⟩
  · rw [heq, status]
  · rw [status] at hcallback
    cases hcallback

theorem Control.entered (entered : s.status ≠ .notEntered) (h : Control ctx s s') :
    s'.status ≠ .notEntered := by
  rcases (h.traced init).2 with heq | ⟨-, hconsumed⟩
  · rw [heq]
    exact entered
  · rw [hconsumed]
    exact nofun

theorem Sees.control (entered : s.status ≠ .notEntered) (h : Sees ctx s s') : Control ctx s s' := by
  cases h with
  | reached before => exact before
  | inside before _ _ enter _ _ _ _ =>
    obtain ⟨-, -, hstatus, -⟩ := enterProcessing_ok enter
    exact absurd hstatus (before.entered init entered)

end

end TempoZones
