import TempoZones.Portal.Steps

/-!
# Storage changes leave logs

A zone node learns from logs which Tempo contracts may have changed. `Logged s s'` says that the
portal's logs were extended, and that without a new log the portal storage is what it was. Functions
that return early write nothing, an empty `processWithdrawals` puts the guard back, and each
processed withdrawal emits a log after its callback (`processWithdrawal_grows`). `Control.logged`
puts this together for whole transactions.
-/

namespace TempoZones

open Lib List

variable {W : Type} [EvmWord W] [DecidableEq W] {sender : Address}

/-- Logs are only added, and a change without a log leaves the portal storage as it is. -/
def Logged (s s' : L1 W) : Prop :=
  ∃ logs, s'.logs = s.logs ++ logs ∧ (logs = [] → s'.portal = s.portal)

def Grows (s s' : L1 W) : Prop := ∃ logs, logs ≠ [] ∧ s'.logs = s.logs ++ logs

variable {ctx : CallCtx W} {s m s' : L1 W}

theorem Logged.refl (s : L1 W) : Logged s s := ⟨[], (append_nil _).symm, fun _ => rfl⟩

theorem Logged.trans (h : Logged s m) (h' : Logged m s') : Logged s s' := by
  obtain ⟨logs, hlogs, hquiet⟩ := h
  obtain ⟨logs', hlogs', hquiet'⟩ := h'
  refine ⟨logs ++ logs', by rw [hlogs', hlogs, append_assoc], ?_⟩
  intro hnone
  obtain ⟨hnil, hnil'⟩ := append_eq_nil_iff.1 hnone
  rw [hquiet' hnil', hquiet hnil]

theorem Grows.logged (h : Grows s s') : Logged s s' := by
  obtain ⟨logs, hne, hlogs⟩ := h
  exact ⟨logs, hlogs, fun hnil => absurd hnil hne⟩

/-! ## Calls -/

theorem GovernStep.logs_ne_nil {env : BlockEnv} {g g' : Governance} {logs : List (PortalEvent W)}
    (h : GovernStep env sender g g' logs) (changed : g' ≠ g) : logs ≠ [] := by
  cases h with
  | unchanged => exact absurd rfl changed
  | sequencers _ _ => simp [Governance.replacementLogs]
  | _ => exact cons_ne_nil _ _

theorem ConfigureStep.logs_ne_nil {p : Portal W} {params : Params W} {registry : TokenRegistry W}
    {logs : List (PortalEvent W)} (h : ConfigureStep p params registry logs) : logs ≠ [] := by
  cases h <;> exact cons_ne_nil _ _

theorem CallStep.logged (h : CallStep ctx s s') : Logged s s' := by
  cases h with
  | @govern _ g logs step =>
    refine ⟨logs, rfl, ?_⟩
    intro hnil
    have hsame : g = s.portal.gov := by
      by_contra changed
      exact step.logs_ne_nil changed hnil
    rw [hsame]
    rfl
  | configure step => exact ⟨_, rfl, fun hnil => absurd hnil step.logs_ne_nil⟩
  | deposit _ collected _ =>
    obtain ⟨-, hlogs, -⟩ := collected.frame
    exact Grows.logged ⟨[_], cons_ne_nil _ _, congrArg (· ++ [_]) hlogs⟩
  | claimRefund _
  | submitBatch _ => exact Grows.logged ⟨[_], cons_ne_nil _ _, rfl⟩

theorem exec_logged {c : Call W} (outside : sender ≠ ctx.ext.self)
    (h : exec ctx sender s c = .ok s') : Logged s s' := by
  rcases exec_cases outside h with hstep | ⟨-, log, logs, hlogs⟩
  · exact hstep.logged
  · exact Grows.logged ⟨log :: logs, cons_ne_nil _ _, hlogs⟩

/-! ## Withdrawal processing -/

theorem processWithdrawal_grows {r : Reply W} {w : Withdrawal W} {remainingQueue : W}
    (callbacks : ∀ {target message a ok b}, r.callback target message a = some (ok, b) → Logged a b)
    (h : s.processWithdrawal ctx r w remainingQueue = .ok s') : Grows s s' := by
  cases processWithdrawal_ok h with
  | refunded _ hd hrefund =>
    obtain ⟨queue, -, rfl⟩ := L1.dequeueWithdrawal_ok hd
    obtain ⟨-, ⟨log, hlogs, -⟩, -⟩ := hrefund.frame
    exact ⟨[log], cons_ne_nil _ _, hlogs⟩
  | bounced _ hd hbounce =>
    obtain ⟨queue, -, rfl⟩ := L1.dequeueWithdrawal_ok hd
    obtain ⟨-, rfl⟩ := L1.enqueueBounceBack_ok hbounce
    exact ⟨[_, _], cons_ne_nil _ _, append_assoc _ _ _⟩
  | paid _ hd hpay =>
    obtain ⟨queue, -, rfl⟩ := L1.dequeueWithdrawal_ok hd
    obtain ⟨-, hlogs, -⟩ := hpay.frame
    exact ⟨[_], cons_ne_nil _ _, congrArg (· ++ [_]) hlogs⟩
  | @delivered a b message hentry hcallback _ =>
    -- the callback only adds logs, and `WithdrawalProcessed` follows it
    obtain ⟨-, -, -, d, o, hd, ho, ha⟩ := hentry
    obtain ⟨queue, -, rfl⟩ := L1.dequeueWithdrawal_ok hd
    obtain ⟨-, -, _, _, -, -, rfl⟩ := openDelivery_openRelay_ok ho ha
    obtain ⟨logs, hlogs, -⟩ := callbacks hcallback
    exact ⟨logs ++ [_], by simp, (congrArg (· ++ [_]) hlogs).trans (append_assoc _ _ _)⟩

theorem processLoop_grows {replies : ℕ → Reply W} (callbacks : ∀ {i target message a ok b},
      (replies i).callback target message a = some (ok, b) → Logged a b)
    {ws : List (Withdrawal W × W)} :
    ∀ {i : ℕ} {s : L1 W}, L1.processLoop ctx replies i ws s = .ok s' → s' = s ∨ Grows s s' := by
  induction ws with
  | nil =>
    intro i s h
    exact .inl (pure_ok_iff.1 h).symm
  | cons head rest ih =>
    obtain ⟨w, remainingQueue⟩ := head
    intro i s h
    obtain ⟨m, hm, h⟩ := bind_ok_iff.1 h
    obtain ⟨logs, hne, hlogs⟩ := processWithdrawal_grows callbacks hm
    rcases ih h with rfl | ⟨logs', -, hlogs'⟩
    · exact .inr ⟨logs, hne, hlogs⟩
    · exact .inr ⟨logs ++ logs', by simp [hne], by rw [hlogs', hlogs, append_assoc]⟩

theorem processWithdrawals_logged {ws : List (Withdrawal W)} {remainingQueue : W}
    {replies : ℕ → Reply W}
    (callbacks : ∀ {i target message a ok b}, (replies i).callback target message a = some (ok, b) → Logged a b)
    (h : s.processWithdrawals ctx sender ws remainingQueue replies = .ok s') : Logged s s' := by
  simp only [L1.processWithdrawals, ok_iff] at h
  obtain ⟨e, he, p, hp, rfl⟩ := h
  obtain ⟨-, -, hstatus, -, -, rfl⟩ := enterProcessing_ok he
  rcases processLoop_grows callbacks hp with rfl | ⟨logs, hne, hlogs⟩
  · -- nothing was processed: the guard goes from free to entered and back
    refine ⟨[], (append_nil _).symm, fun _ => ?_⟩
    show { s.portal with withdrawalReentrancyStatus := .notEntered } = s.portal
    rw [← show s.portal.withdrawalReentrancyStatus = .notEntered from hstatus]
  · exact Grows.logged ⟨logs, hne, hlogs⟩

theorem Control.logged (h : Control ctx s s') : Logged s s' := by
  induction h with
  | refl s => exact Logged.refl s
  | call _ outside run ih => exact ih.trans (exec_logged outside run)
  | process _ _ _ run ih ihCallbacks => exact ih.trans (processWithdrawals_logged ihCallbacks run)
  | outside _ move ih =>
    refine ih.trans ⟨[], ?_, fun _ => move.portal_eq⟩
    rw [move.logs_eq, append_nil]

end TempoZones
