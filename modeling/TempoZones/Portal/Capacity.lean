import TempoZones.Portal.Runs

/-!
# Deposit-queue capacity

What steps do to the deposit cursor (`CursorStep`), and the resulting bounds: the settled progress
never passes the number of entries, and at most `MAX_UNPROCESSED_DEPOSITS` entries are outstanding,
in every observed state of every run. Between transactions the withdrawal guard is not entered.
-/

namespace TempoZones

open Lib

variable {W : Type} [EvmWord W] [DecidableEq W]

/-- Effects of a step on the deposit cursor and on the entries announced in the logs. -/
inductive CursorStep (s s' : L1 W) : Prop
  | kept (cursor : s'.portal.deposits = s.portal.deposits)
      (entries : queueEntries s'.logs = queueEntries s.logs)
  | appended (entry : QueueEntry W)
      (accepts : s.portal.deposits.Accepts MAX_UNPROCESSED_DEPOSITS)
      (cursor : s'.portal.deposits =
        { s.portal.deposits with
          currentDepositQueueHash :=
            entry.hashWithTail s.portal.deposits.currentDepositQueueHash
          depositCount := s.portal.deposits.depositCount + 1 })
      (entries : queueEntries s'.logs = queueEntries s.logs ++ [entry])
  | settled {next : ℕ} (mono : s.portal.deposits.lastProcessedDepositNumber ≤ next)
      (le : next ≤ s.portal.deposits.depositCount)
      (cursor : s'.portal.deposits =
        { s.portal.deposits with lastProcessedDepositNumber := next })
      (entries : queueEntries s'.logs = queueEntries s.logs)

theorem DepositCursor.Accepts.mono {d : DepositCursor W} {a b : ℕ} (h : d.Accepts a)
    (hab : a ≤ b) : d.Accepts b :=
  ⟨h.le, h.room.trans_le (Nat.add_le_add_left hab _), h.count_lt⟩

theorem WithdrawalStatus.depositLimit_le (status : WithdrawalStatus) :
    status.depositLimit ≤ MAX_UNPROCESSED_DEPOSITS := by
  cases status <;> decide

section Step

variable {ctx : CallCtx W} {s s' : L1 W}

theorem ConfigureStep.quiet {p : Portal W} {params : Params W} {registry : TokenRegistry W}
    {logs : List (PortalEvent W)} (h : ConfigureStep p params registry logs) :
    queueEntries logs = [] := by
  cases h with
  | params _ quiet => simp [queueEntries, quiet.entry]
  | enable _ _ _ => rfl
  | active _ quiet => simp [queueEntries, quiet.entry]

theorem GovernStep.quiet {env : BlockEnv} {sender : Address} {g g' : Governance}
    {logs : List (PortalEvent W)} (h : GovernStep env sender g g' logs) :
    queueEntries logs = [] := by
  cases h with
  | sequencers _ _ => exact (replacementLogs_quiet _ _ _ _).1
  | admins logged => rcases logged with rfl | rfl <;> rfl
  | _ => rfl

theorem CallStep.cursor (h : CallStep ctx s s') : CursorStep s s' := by
  cases h with
  | govern step
  | configure step =>
    refine .kept rfl ((queueEntries_append _ _).trans ?_)
    rw [step.quiet, List.append_nil]
  | @deposit funds sender args fee _ collected accepts =>
    obtain ⟨hportal, hlogs, -⟩ := collected.frame
    refine .appended (.deposit (args.queued sender fee))
      (accepts.mono s.status.depositLimit_le) ?_ ?_
    · rw [← hportal]
      rfl
    · rw [← hlogs]
      exact queueEntries_append _ _
  | claimRefund _ => exact .kept rfl (queueEntries_concat rfl _)
  | submitBatch accepted =>
    have hmono := accepted.deposit_mono
    rw [accepted.deposit_prev] at hmono
    exact .settled hmono accepted.deposit_le rfl (queueEntries_concat rfl _)

theorem Micro.cursor (h : Micro ctx s s') : CursorStep s s' := by
  cases h with
  | call step => exact step.cursor
  | withdraw _ _ disposed =>
    cases disposed with
    | refunded _ refund =>
      obtain ⟨⟨refunds, hportal⟩, ⟨log, hlogs, hquiet⟩, -⟩ := refund.frame
      refine .kept (congrArg (·.deposits) hportal) ?_
      rw [hlogs]
      exact queueEntries_concat hquiet.entry _
    | bounced _ accepts =>
      refine .appended _ accepts rfl ((queueEntries_concat rfl _).trans ?_)
      exact queueEntries_append _ _
    | paid _ _ => exact .kept rfl (queueEntries_concat rfl _)
    | opened _ _ _ => exact .kept rfl rfl
  | closeCallback _ => exact .kept rfl (queueEntries_concat rfl _)
  | outside move =>
    exact .kept (congrArg (·.deposits) move.portal_eq) (congrArg queueEntries move.logs_eq)
  | _ => exact .kept rfl rfl

end Step

/-! ## Bounds -/

structure WithinCapacity (d : DepositCursor W) : Prop where
  le : d.lastProcessedDepositNumber ≤ d.depositCount
  outstanding_le : d.depositCount ≤ d.lastProcessedDepositNumber + MAX_UNPROCESSED_DEPOSITS

theorem WithinCapacity.step {s s' : L1 W} (hs : WithinCapacity s.portal.deposits)
    (h : CursorStep s s') : WithinCapacity s'.portal.deposits := by
  obtain ⟨hle, hout⟩ := hs
  cases h with
  | kept cursor _ =>
    rw [cursor]
    exact ⟨hle, hout⟩
  | appended _ accepts cursor _ =>
    have hroom := accepts.room
    rw [cursor]
    exact ⟨hle.trans (Nat.le_succ _), hroom⟩
  | settled mono le cursor _ =>
    rw [cursor]
    exact ⟨le, hout.trans (Nat.add_le_add_right mono _)⟩

section Run

variable {P : CallCtx W → Prop} {e e' : BlockEnv} {s m : L1 W}

theorem Reached.withinCapacity (h : Reached P e m) : WithinCapacity m.portal.deposits := by
  refine h.invariant (I := fun _ s => WithinCapacity s.portal.deposits) ?_ (fun _ hs => hs)
    (fun _ hs hstep => hs.step hstep.cursor)
  intro e args self s hinit
  rw [hinit.deposits]
  exact ⟨le_rfl, Nat.zero_le _⟩

theorem Later.notEntered (init : s.portal.gov.initialized = true) (status : s.status = .notEntered)
    (h : Later P e s e' m) : m.status = .notEntered := by
  induction h with
  | refl => exact status
  | tx before _ _ run ih => exact run.notEntered (before.initialized_eq init) (ih init status)

theorem Reached.bouncebackGas_lt (h : Reached P e m) : m.portal.params.bouncebackGas < 2 ^ 64 := by
  refine h.invariant (I := fun _ s => s.portal.params.bouncebackGas < 2 ^ 64) ?_ (fun _ hs => hs) ?_
  · intro e args self s hinit
    rw [hinit.params]
    exact Nat.two_pow_pos 64
  intro ctx s s' _ hs hstep
  cases hstep with
  | call step =>
    cases step with
    | configure step =>
      cases step with
      | params gas _ => exact gas.elim (fun heq => heq ▸ hs) id
      | _ => exact hs
    | deposit _ collected _ =>
      have := collected.portal_eq
      exact lt_of_eq_of_lt (congrArg (·.params.bouncebackGas) this) hs
    | _ => exact hs
  | withdraw _ _ disposed =>
    cases disposed with
    | refunded _ refund =>
      obtain ⟨⟨refunds, hportal⟩, -⟩ := refund.frame
      exact lt_of_eq_of_lt (congrArg (·.params.bouncebackGas) hportal) hs
    | _ => exact hs
  | outside move => exact lt_of_eq_of_lt (congrArg (·.params.bouncebackGas) move.portal_eq) hs
  | _ => exact hs

end Run

end TempoZones
