import TempoZones.Lib.Tally
import TempoZones.Portal.Capacity

/-!
# Conservation of value in the portal

What the portal holds of a token, together with the withdrawals that left the queue, is what entered
it: the amounts of the queue entries, the parked refunds, and what was sent to it outside the bridge
(`PortalConserved`). Every step keeps the equation, whatever outside code does in between.
-/

namespace TempoZones

open Lib Function Ledger

variable {W : Type} [EvmWord W] [DecidableEq W]

def QueueEntry.worth (e : QueueEntry W) : Address × ℕ := (e.token, e.amount)

def Withdrawal.worth (w : Withdrawal W) : Address × ℕ := (w.token, w.amount)

def entriesWorth (t : Address) (entries : List (QueueEntry W)) : ℕ :=
  tally t (entries.map QueueEntry.worth)

def withdrawalsWorth (t : Address) (ws : List (Withdrawal W)) : ℕ := tally t (ws.map Withdrawal.worth)

theorem entriesWorth_append (t : Address) (a b : List (QueueEntry W)) :
    entriesWorth t (a ++ b) = entriesWorth t a + entriesWorth t b := by
  rw [entriesWorth, List.map_append, tally_append]
  rfl

theorem withdrawalsWorth_append (t : Address) (a b : List (Withdrawal W)) :
    withdrawalsWorth t (a ++ b) = withdrawalsWorth t a + withdrawalsWorth t b := by
  rw [withdrawalsWorth, List.map_append, tally_append]
  rfl

/-- TIP-20 transfers of deposits revert on failure: none has returned `false`. -/
def L1.TransfersRevert (s : L1 W) : Prop := s.history.refused = false

/-- Balance and withdrawals paid or bounced, against entries, parked refunds and gifts. -/
def PortalConserved (self : Address) (s : L1 W) : Prop :=
  s.TransfersRevert → ∀ t, s.ledger t self + withdrawalsWorth t s.history.dequeued =
    entriesWorth t (queueEntries s.logs) + ∑ a, s.portal.refunds t a + s.history.gifts t

/-! ## Payments -/

section Pay

variable {s s' : L1 W} {self token : Address} {amount : ℕ}

theorem L1.pay_out (s : L1 W) (account : Address) (covered : amount ≤ s.ledger token self)
    (t : Address) :
    (s.pay self token self account amount).ledger t self + tally t [(token, amount)] +
        s.history.gifts t =
      s.ledger t self + (s.pay self token self account amount).history.gifts t := by
  rw [tally_singleton]
  by_cases ht : t = token
  · subst ht
    by_cases haccount : account = self
    · subst haccount
      simp only [pay, move_self, and_self, if_true]
      omega
    have hmove := @move_src s.ledger t self account amount (Ne.symm haccount)
    simp only [pay, hmove, haccount, and_false, if_false, if_true]
    omega
  have hmove := @move_token_ne s.ledger token self account t self amount ht
  simp only [pay, hmove, ht, false_and, if_false, if_neg (Ne.symm ht)]
  omega

theorem L1.pay_in {src account : Address} (hsrc : src ≠ self) (t : Address) :
    (s.pay self token src account amount).ledger t self + s.history.gifts t =
      s.ledger t self + (s.pay self token src account amount).history.gifts t := by
  by_cases ht : t = token
  · subst ht
    by_cases haccount : account = self
    · subst haccount
      have hmove := @move_dst s.ledger t src account amount hsrc
      simp only [pay, hmove, and_self, if_true]
      omega
    have hmove := @move_of_ne s.ledger t src account t self amount (Ne.symm hsrc) (Ne.symm haccount)
    simp only [pay, hmove, haccount, and_false, if_false]
    rfl
  have hmove := @move_token_ne s.ledger token src account t self amount ht
  simp only [pay, hmove, ht, false_and, if_false]
  rfl

theorem L1.Attempt.balance {ok : Bool} (h : L1.Attempt self token amount s ok s') (t : Address) :
    s'.ledger t self + tally t [(token, if ok then amount else 0)] + s.history.gifts t =
      s.ledger t self + s'.history.gifts t := by
  cases h with
  | paid covered => exact L1.pay_out s _ covered t
  | failed =>
    rw [if_neg (by decide), tally_zero]
    rfl

theorem L1.Collected.balance {ctx : CallCtx W} {sender : Address} {fee : ℕ}
    (h : L1.Collected ctx sender token amount s fee s') (outside : sender ≠ ctx.ext.self)
    (hrevert : s'.TransfersRevert) (t : Address) :
    s'.ledger t ctx.ext.self + s.history.gifts t =
      s.ledger t ctx.ext.self + tally t [(token, amount - fee)] + s'.history.gifts t := by
  have hpull : (s.pull token sender ctx.ext.self amount).ledger t ctx.ext.self =
      s.ledger t ctx.ext.self + tally t [(token, amount)] := by
    rw [tally_singleton]
    by_cases ht : t = token
    · subst ht
      rw [if_pos rfl]
      exact move_dst outside
    · rw [if_neg (Ne.symm ht)]
      exact move_token_ne ht
  cases h with
  | free _ =>
    rw [hpull, Nat.sub_zero]
    rfl
  | @charged fee account _ _ le covered =>
    have hpay := L1.pay_out (s.pull token sender ctx.ext.self amount) account covered t
    have hsplit := tally_add t token fee (amount - fee)
    rw [Nat.add_sub_cancel' le] at hsplit
    rw [hpull] at hpay
    have hgifts : (s.pull token sender ctx.ext.self amount).history.gifts t = s.history.gifts t := rfl
    omega
  | refused _ _ _ _ refused => cases refused.symm.trans hrevert

theorem L1.Refunded.balance {w : Withdrawal W} (h : L1.Refunded self w s s') (t : Address) :
    s'.ledger t self + tally t [w.worth] + s.history.gifts t + ∑ a, s.portal.refunds t a =
      s.ledger t self + s'.history.gifts t + ∑ a, s'.portal.refunds t a := by
  cases h with
  | @paid fee refund collected s₁ s₂ feeAttempt total payout =>
    have hfee := feeAttempt.balance t
    have hpay := payout.balance t
    have hsplit := tally_add t w.token (if collected then fee else 0) refund
    rw [total] at hsplit
    rw [if_pos rfl] at hpay
    have hrefunds : s₂.portal.refunds = s.portal.refunds := by
      rw [payout.portal_eq, feeAttempt.portal_eq]
    show s₂.ledger t self + tally t [(w.token, w.amount)] + s.history.gifts t +
      ∑ a, s.portal.refunds t a = s.ledger t self + s₂.history.gifts t + ∑ a, s₂.portal.refunds t a
    rw [hrefunds]
    omega
  | @parked fee refund collected s₁ feeAttempt total fits =>
    have hfee := feeAttempt.balance t
    have hsplit := tally_add t w.token (if collected then fee else 0) refund
    rw [total] at hsplit
    have hrow := sum_update_row s₁.portal.refunds w.token w.recipient
      (s₁.portal.refunds w.token w.recipient + refund) t
    rw [tally_add] at hrow
    have hrefunds : s₁.portal.refunds = s.portal.refunds := by rw [feeAttempt.portal_eq]
    show s₁.ledger t self + tally t [(w.token, w.amount)] + s.history.gifts t +
      ∑ a, s.portal.refunds t a = s.ledger t self + s₁.history.gifts t +
        ∑ a, update s₁.portal.refunds w.token (update (s₁.portal.refunds w.token) w.recipient
          (s₁.portal.refunds w.token w.recipient + refund)) t a
    rw [← hrefunds]
    omega

end Pay

/-! ## Steps -/

section Step

variable {ctx : CallCtx W} {s s' : L1 W}

theorem L1.Collected.transfersRevert {sender token : Address} {amount fee : ℕ}
    (h : L1.Collected ctx sender token amount s fee s') (hrevert : s'.TransfersRevert) :
    s.TransfersRevert := by
  cases h with
  | refused _ _ _ _ refused => cases refused.symm.trans hrevert
  | _ => exact hrevert

theorem L1.Attempt.refused_eq {self token : Address} {amount : ℕ} {ok : Bool}
    (h : L1.Attempt self token amount s ok s') : s'.history.refused = s.history.refused := by
  cases h <;> rfl

/-- A `false` that was returned stays in the history. -/
theorem Micro.transfersRevert (h : Micro ctx s s') (hrevert : s'.TransfersRevert) :
    s.TransfersRevert := by
  cases h with
  | call step =>
    cases step with
    | deposit _ collected _ => exact collected.transfersRevert hrevert
    | _ => exact hrevert
  | withdraw _ _ disposed =>
    cases disposed with
    | refunded _ refund =>
      cases refund with
      | paid feeAttempt _ payout =>
        exact (payout.refused_eq.trans feeAttempt.refused_eq).symm.trans hrevert
      | parked feeAttempt _ _ => exact feeAttempt.refused_eq.symm.trans hrevert
    | _ => exact hrevert
  | outside move => exact move.refused_eq.symm.trans hrevert
  | _ => exact hrevert

theorem PortalConserved.of_eq {self : Address} (hs : PortalConserved self s)
    (ledger : s'.ledger = s.ledger) (dequeued : s'.history.dequeued = s.history.dequeued)
    (entries : queueEntries s'.logs = queueEntries s.logs)
    (refunds : s'.portal.refunds = s.portal.refunds)
    (gifts : s'.history.gifts = s.history.gifts) (refused : s'.history.refused = s.history.refused) :
    PortalConserved self s' := by
  intro hrevert t
  rw [ledger, dequeued, entries, refunds, gifts]
  exact hs (refused.symm.trans hrevert) t

theorem CallStep.portalConserved (h : CallStep ctx s s') (hs : PortalConserved ctx.ext.self s) :
    PortalConserved ctx.ext.self s' := by
  cases h with
  | govern step
  | configure step =>
    refine hs.of_eq rfl rfl ((queueEntries_append _ _).trans ?_) rfl rfl rfl
    rw [step.quiet, List.append_nil]
  | @deposit funds sender args fee outside collected _ =>
    intro hrevert t
    have hbefore := hs (collected.transfersRevert hrevert) t
    have hfunds := collected.balance outside hrevert t
    obtain ⟨hportal, hlogs, hdequeued, -⟩ := collected.frame
    show funds.ledger t ctx.ext.self + withdrawalsWorth t funds.history.dequeued =
      entriesWorth t (queueEntries (funds.logs ++ [_])) + ∑ a, funds.portal.refunds t a +
        funds.history.gifts t
    rw [hdequeued, hlogs, hportal, queueEntries_append, entriesWorth_append]
    show _ = _ + tally t [(args.token, args.amount - fee)] + _ + _
    omega
  | @claimRefund token owner account covered =>
    intro hrevert t
    have hbefore := hs hrevert t
    have hrow := sum_update_row s.portal.refunds token owner 0 t
    have hpay := L1.pay_out (s.setRefund token owner 0) account covered t
    rw [tally_zero] at hrow
    show (L1.pay (s.setRefund token owner 0) ctx.ext.self token ctx.ext.self account
        (s.portal.refunds token owner)).ledger t ctx.ext.self +
        withdrawalsWorth t s.history.dequeued = entriesWorth t (queueEntries (s.logs ++ [_])) +
      ∑ a, update s.portal.refunds token (update (s.portal.refunds token) owner 0)
        t a + (L1.pay (s.setRefund token owner 0) ctx.ext.self token ctx.ext.self account
        (s.portal.refunds token owner)).history.gifts t
    rw [queueEntries_concat rfl]
    have hledger : (s.setRefund token owner 0).ledger t ctx.ext.self = s.ledger t ctx.ext.self := rfl
    have hgifts : (s.setRefund token owner 0).history.gifts t = s.history.gifts t := rfl
    omega
  | submitBatch _ => exact hs.of_eq rfl rfl (queueEntries_concat rfl _) rfl rfl rfl

theorem Disposed.portalConserved {self : Address} {w : Withdrawal W} {queue : WithdrawalQueue W}
    (h : Disposed self w (s.withDequeued queue w) s') (hs : PortalConserved self s)
    (hkept : s'.TransfersRevert → s.TransfersRevert) : PortalConserved self s' := by
  intro hrevert t
  have hbefore := hs (hkept hrevert) t
  have hdequeued : withdrawalsWorth t (s.history.dequeued ++ [w]) =
      withdrawalsWorth t s.history.dequeued + tally t [w.worth] := withdrawalsWorth_append _ _ _
  have hledger : (s.withDequeued queue w).ledger t self = s.ledger t self := rfl
  have hgifts : (s.withDequeued queue w).history.gifts t = s.history.gifts t := rfl
  cases h with
  | refunded _ refund =>
    have hrefund := refund.balance t
    obtain ⟨-, ⟨log, hlogs, hquiet⟩, hdeq, -⟩ := refund.frame
    have hrefunds : ∑ a, (s.withDequeued queue w).portal.refunds t a =
      ∑ a, s.portal.refunds t a := rfl
    have hentries : queueEntries s'.logs = queueEntries s.logs := by
      rw [hlogs]
      exact queueEntries_concat hquiet.entry _
    have hdeq' : s'.history.dequeued = s.history.dequeued ++ [w] := hdeq
    rw [hentries, hdeq']
    omega
  | bounced _ _ =>
    show s.ledger t self + withdrawalsWorth t (s.history.dequeued ++ [w]) =
      entriesWorth t (queueEntries ((s.logs ++ [_]) ++ [_])) + ∑ a, s.portal.refunds t a +
        s.history.gifts t
    rw [queueEntries_concat rfl, queueEntries_append, entriesWorth_append]
    show _ = _ + tally t [w.worth] + _ + _
    omega
  | @paid account _ covered =>
    have hpay := L1.pay_out (s.withDequeued queue w) account covered t
    show (L1.pay (s.withDequeued queue w) self w.token self account w.amount).ledger t self +
        withdrawalsWorth t (s.history.dequeued ++ [w]) =
      entriesWorth t (queueEntries (s.logs ++ [_])) + ∑ a, s.portal.refunds t a +
        (L1.pay (s.withDequeued queue w) self w.token self account w.amount).history.gifts t
    rw [queueEntries_concat rfl]
    have hworth : tally t [w.worth] = tally t [(w.token, w.amount)] := rfl
    omega
  | @opened messengerAccount target _ covered messenger =>
    have hpay := L1.pay_out (s.withDequeued queue w) messengerAccount covered t
    have hrelay : ((s.withDequeued queue w).opened self w messengerAccount target).ledger t self +
        ((s.withDequeued queue w).pay self w.token self messengerAccount w.amount).history.gifts t =
      ((s.withDequeued queue w).pay self w.token self messengerAccount w.amount).ledger t self +
        ((s.withDequeued queue w).opened self w messengerAccount target).history.gifts t :=
      L1.pay_in messenger t
    show ((s.withDequeued queue w).opened self w messengerAccount target).ledger t self +
        withdrawalsWorth t (s.history.dequeued ++ [w]) =
      entriesWorth t (queueEntries s.logs) + ∑ a, s.portal.refunds t a +
        ((s.withDequeued queue w).opened self w messengerAccount target).history.gifts t
    have hworth : tally t [w.worth] = tally t [(w.token, w.amount)] := rfl
    omega

theorem Micro.portalConserved (h : Micro ctx s s') (hs : PortalConserved ctx.ext.self s) :
    PortalConserved ctx.ext.self s' := by
  have hkept := h.transfersRevert
  cases h with
  | call step => exact step.portalConserved hs
  | withdraw _ _ disposed => exact disposed.portalConserved hs hkept
  | closeCallback _ => exact hs.of_eq rfl rfl (queueEntries_concat rfl _) rfl rfl rfl
  | outside move =>
    intro hrevert t
    have hbefore := hs (hkept hrevert) t
    obtain ⟨amount, hledger, hgifts⟩ := move.received t
    rw [move.portal_eq, move.logs_eq, move.dequeued_eq, hledger, hgifts]
    omega
  | enter _ => exact hs.of_eq rfl rfl rfl rfl rfl rfl
  | exit _ => exact hs.of_eq rfl rfl rfl rfl rfl rfl

end Step

theorem Initial.portalConserved {e : BlockEnv} {args : InitializeArgs} {self : Address} {s : L1 W}
    (h : Initial e args self s) : PortalConserved self s := by
  intro _ t
  rw [h.dequeued, h.entries, h.refunds, h.gifts]
  simp [withdrawalsWorth, entriesWorth]

theorem portalConserved_fresh (self : Address) (ledger : Ledger) :
    PortalConserved self (.fresh self ledger : L1 W) := by
  intro _ t
  simp [L1.fresh, Portal.empty, withdrawalsWorth, entriesWorth, queueEntries]

end TempoZones
