import TempoZones.System.WithdrawalFifo
import TempoZones.Zone.Executor

/-!
# Grammar of zone blocks

Accepted blocks are one `advanceTempoHeaders`, or one `advanceTempo`, user transactions and at most
one `finalizeWithdrawalBatch` (`zone_block_grammar`). The phase determines the shape of the
committed transactions (`Shape`). The outbox is empty after an accepted block although `finish`
never reads it: whatever a call adds to the pending withdrawals it announces in a log (`Announces`).
-/

namespace TempoZones

open Lib List Relation ZoneTransactionKind ZoneBlockExecutor

variable {W : Type} [EvmWord W] [DecidableEq W] {sel : Selectors} {ctx : ZoneCtx W}
  {receipts : List (List (ReceiptLog W))}

/-! ## Announcements -/

/-- Without a withdrawal request among the logs nothing was enqueued in the outbox, and without
processed deposits the deposit cursor did not move. -/
structure Announces (t13 : Bool) (z z' : Zone W) (logs : List (ReceiptLog W)) : Prop where
  enqueued : (∀ log ∈ logs, log.isWithdrawalRequest = false) →
    z'.outbox.nextWithdrawalIndex = z.outbox.nextWithdrawalIndex ∧
      (z.outbox.pendingWithdrawals = [] → z'.outbox.pendingWithdrawals = [])
  processed : t13 = true → (∀ log ∈ logs, log.isProcessedDeposit = false) →
    z'.inbox.processedDepositNumber = z.inbox.processedDepositNumber

namespace Announces

variable {t13 : Bool} {z z₁ z' : Zone W} {logs : List (ReceiptLog W)}

theorem refl (z : Zone W) (logs : List (ReceiptLog W)) : Announces t13 z z logs :=
  ⟨fun _ => ⟨rfl, id⟩, fun _ _ => rfl⟩

theorem trans {logs₁ logs₂ : List (ReceiptLog W)} (h₁ : Announces t13 z z₁ logs₁)
    (h₂ : Announces t13 z₁ z' logs₂) : Announces t13 z z' (logs₁ ++ logs₂) where
  enqueued hquiet := by
    obtain ⟨hindex₁, hpending₁⟩ := h₁.enqueued fun log hlog => hquiet log (mem_append_left _ hlog)
    obtain ⟨hindex₂, hpending₂⟩ := h₂.enqueued fun log hlog => hquiet log (mem_append_right _ hlog)
    exact ⟨hindex₂.trans hindex₁, fun hempty => hpending₂ (hpending₁ hempty)⟩
  processed ht13 hquiet := by
    have hnumber₁ := h₁.processed ht13 fun log hlog => hquiet log (mem_append_left _ hlog)
    have hnumber₂ := h₂.processed ht13 fun log hlog => hquiet log (mem_append_right _ hlog)
    exact hnumber₂.trans hnumber₁

theorem of_eq (hindex : z'.outbox.nextWithdrawalIndex = z.outbox.nextWithdrawalIndex)
    (hpending : z'.outbox.pendingWithdrawals = z.outbox.pendingWithdrawals)
    (hnumber : z'.inbox.processedDepositNumber = z.inbox.processedDepositNumber) :
    Announces t13 z z' logs :=
  ⟨fun _ => ⟨hindex, fun hempty => hpending.trans hempty⟩, fun _ _ => hnumber⟩

theorem of_request {log : ReceiptLog W} (hlog : log ∈ logs)
    (hrequest : log.isWithdrawalRequest = true)
    (hnumber : z'.inbox.processedDepositNumber = z.inbox.processedDepositNumber) :
    Announces t13 z z' logs where
  enqueued hquiet := by
    rw [hquiet log hlog] at hrequest
    cases hrequest
  processed _ _ := hnumber

end Announces

/-! ## Calls announce what they do -/

def Reports (t13 : Bool) (z z' : Zone W) : Prop :=
  ∃ new, z'.logs = z.logs ++ new ∧ Announces t13 z z' (new.map .ofEvent)

namespace Reports

variable {t13 : Bool} {z z₁ z' : Zone W}

theorem trans (h₁ : Reports t13 z z₁) (h₂ : Reports t13 z₁ z') : Reports t13 z z' := by
  obtain ⟨new₁, hlogs₁, hannounced₁⟩ := h₁
  obtain ⟨new₂, hlogs₂, hannounced₂⟩ := h₂
  refine ⟨new₁ ++ new₂, by rw [hlogs₂, hlogs₁, append_assoc], ?_⟩
  rw [map_append]
  exact hannounced₁.trans hannounced₂

theorem of_eq {new : List (ZoneEvent W)} (hlogs : z'.logs = z.logs ++ new)
    (hindex : z'.outbox.nextWithdrawalIndex = z.outbox.nextWithdrawalIndex)
    (hpending : z'.outbox.pendingWithdrawals = z.outbox.pendingWithdrawals)
    (hnumber : z'.inbox.processedDepositNumber = z.inbox.processedDepositNumber) :
    Reports t13 z z' :=
  ⟨new, hlogs, .of_eq hindex hpending hnumber⟩

theorem of_request {index fee : ℕ} {pending : PendingWithdrawal W} {later : List (ZoneEvent W)}
    (hlogs : z'.logs = z.logs ++ .withdrawalRequested index pending fee :: later)
    (hnumber : z'.inbox.processedDepositNumber = z.inbox.processedDepositNumber) :
    Reports t13 z z' :=
  ⟨_, hlogs, .of_request (mem_map_of_mem mem_cons_self) rfl hnumber⟩

end Reports

section Calls

variable {t13 : Bool} {z z' : Zone W}

theorem EntryStep.reports {e : QueueEntry W} (h : EntryStep z e z') : Reports t13 z z' := by
  cases h with
  | minted
  | returned _
  | parked _ => exact .of_eq rfl rfl rfl rfl
  | @failed d log =>
    have hrequest : Reports t13 z (z.refunding d) := .of_request rfl rfl
    exact hrequest.trans (.of_eq rfl rfl rfl rfl)

theorem EntryPath.reports {entries : List (QueueEntry W)} (h : EntryPath entries z z') :
    Reports t13 z z' := by
  induction h with
  | nil z => exact .of_eq (append_nil _).symm rfl rfl rfl
  | cons step _ ih => exact step.reports.trans ih

theorem advanceTokens_reports {tokens : List EnabledToken} {enables : ℕ → Bool}
    (h : z.advanceTokens ctx tokens enables = .ok z') : Reports t13 z z' := by
  simp only [Zone.advanceTokens, bind_ok_iff, pure_ok_iff] at h
  obtain ⟨portalCount, -, z₁, henable, count, -, rfl⟩ := h
  obtain ⟨initialized, logs, rfl⟩ := enableTokens_ok henable
  exact .of_eq rfl rfl rfl rfl

theorem commit_reports {zq : Zone W} {hash blockHash : W} {number blockNumber count : ℕ}
    {deposits : ℕ} (hnumber : number = zq.inbox.processedDepositNumber + deposits) :
    Reports ctx.block.t13 zq (zq.commit hash number
      (.tempoAdvanced blockHash blockNumber deposits hash number
        (if ctx.block.t13 then some count else none))) := by
  refine ⟨_, rfl, fun _ => ⟨rfl, id⟩, fun ht13 hquiet => ?_⟩
  have hzero : deposits = 0 := by
    have hlog := hquiet _ (mem_map_of_mem mem_cons_self)
    rw [ht13] at hlog
    simpa [ReceiptLog.isProcessedDeposit, ReceiptLog.ofEvent, ZoneEvent.address] using hlog
  show number = zq.inbox.processedDepositNumber
  omega

theorem advanceTempo_reports {caller : Address} {call : AdvanceTempo W} {reply : AdvanceReply}
    (h : z.advanceTempo ctx caller call reply = .ok z') : Reports ctx.block.t13 z z' := by
  simp only [Zone.advanceTempo, bind_ok_iff, require_ok_iff] at h
  obtain ⟨-, -, entries, -, z₁, hcheckpoint, z₂, htokens, ⟨hash, leftover, z₃⟩, hqueue, -, -, h⟩ := h
  have hcommit : Reports ctx.block.t13 z₃ z' := by
    split at h
    · simp only [bind_ok_iff, require_ok_iff, pure_ok_iff] at h
      obtain ⟨p, -, -, -, number, hnumber, rfl⟩ := h
      exact commit_reports (zoneCheckedAdd_eq_ok.1 hnumber).2.symm
    simp only [bind_ok_iff, pure_ok_iff] at h
    obtain ⟨number, hnumber, rfl⟩ := h
    exact commit_reports (zoneCheckedAdd_eq_ok.1 hnumber).2.symm
  obtain ⟨tempo, log, -, rfl⟩ := finalizeCheckpoints_ok hcheckpoint
  have hadvanced : Reports ctx.block.t13 z ({ z with tempo := tempo }.emit log) :=
    .of_eq rfl rfl rfl rfl
  exact ((hadvanced.trans (advanceTokens_reports htokens)).trans
    (processQueue_ok hqueue).2.reports).trans hcommit

theorem zoneExec_reports {caller : Address} {call : ZoneCall W}
    (h : zoneExec ctx caller z call = .ok z') : Reports ctx.block.t13 z z' := by
  cases call with
  | finalizeTempo headers =>
    simp only [zoneExec, Zone.applyCheckpoints, bind_ok_iff, require_ok_iff] at h
    obtain ⟨-, -, h⟩ := h
    obtain ⟨tempo, log, -, rfl⟩ := finalizeCheckpoints_ok h
    exact .of_eq rfl rfl rfl rfl
  | advanceTempo call reply => exact advanceTempo_reports h
  | advanceTempoHeaders headers =>
    simp only [zoneExec, Zone.advanceTempoHeaders, bind_ok_iff, require_ok_iff] at h
    obtain ⟨-, -, -, -, h⟩ := h
    obtain ⟨tempo, log, -, rfl⟩ := finalizeCheckpoints_ok h
    exact .of_eq rfl rfl rfl rfl
  | claimRefund token reply =>
    obtain ⟨log, rfl⟩ := zoneClaimRefund_ok h
    exact .of_eq rfl rfl rfl rfl
  | requestWithdrawal feePayer txHash call reply =>
    obtain ⟨_, _, _, -, -, -, rfl⟩ := requestWithdrawal_ok h
    exact .of_request rfl rfl
  | enqueueDepositBounceBack token amount recipient =>
    simp only [zoneExec, Zone.enqueueDepositBounceBack, bind_ok_iff, require_ok_iff] at h
    obtain ⟨-, -, h⟩ := h
    rw [enqueue_ok h]
    exact .of_request rfl rfl
  | consumeFallbackRecipient nonce =>
    simp only [zoneExec, bind_ok_iff, pure_ok_iff] at h
    obtain ⟨⟨recipient, z₁⟩, hconsume, rfl⟩ := h
    obtain ⟨-, -, rfl⟩ := consumeFallbackRecipient_ok hconsume
    exact .of_eq (append_nil _).symm rfl rfl rfl
  | finalizeWithdrawalBatch count blockNumber encryptedSenders =>
    obtain ⟨withdrawals, -, rfl, -⟩ := finalizeWithdrawalBatch_ok h
    exact ⟨_, rfl, fun _ => ⟨rfl, fun _ => rfl⟩, fun _ _ => rfl⟩
  | setTempoGasRate rate =>
    simp only [zoneExec, Zone.setTempoGasRate, bind_ok_iff, require_ok_iff, pure_ok_iff] at h
    obtain ⟨-, -, p, -, -, -, rfl⟩ := h
    exact .of_eq rfl rfl rfl rfl
  | setMaxWithdrawalsPerBlock max =>
    simp only [zoneExec, Zone.setMaxWithdrawalsPerBlock, bind_ok_iff, pure_ok_iff] at h
    obtain ⟨-, -, rfl⟩ := h
    exact .of_eq rfl rfl rfl rfl

end Calls

/-! ## Transactions announce what they do -/

section Transactions

variable {z : Zone W} {tx : TempoTxEnvelope} {o : TxOutcome W}

theorem Reports.announces {z' : Zone W} (h : Reports ctx.block.t13 z z') :
    Announces ctx.block.t13 z z' ((z'.logs.drop z.logs.length).map .ofEvent) := by
  obtain ⟨new, hlogs, hannounced⟩ := h
  rw [hlogs, drop_left]
  exact hannounced

theorem perform_announces (ctx : ZoneCtx W) (o : TxOutcome W) (action : Action W) :
    ∃ new, (o.perform ctx action).logs = o.logs ++ new ∧
      Announces ctx.block.t13 o.zone (o.perform ctx action).zone new := by
  cases action with
  | call caller call =>
    cases hexec : zoneExec ctx caller o.zone call with
    | ok z' =>
      simp only [TxOutcome.perform, hexec]
      exact ⟨_, rfl, (zoneExec_reports hexec).announces⟩
    | error e =>
      simp only [TxOutcome.perform, hexec]
      exact ⟨[], (append_nil _).symm, .refl _ _⟩
  | log address event => exact ⟨_, rfl, .refl _ _⟩

theorem foldl_perform_announces (ctx : ZoneCtx W) (actions : List (Action W)) (o : TxOutcome W) :
    ∃ new, (actions.foldl (TxOutcome.perform ctx) o).logs = o.logs ++ new ∧
      Announces ctx.block.t13 o.zone (actions.foldl (TxOutcome.perform ctx) o).zone new := by
  induction actions generalizing o with
  | nil => exact ⟨[], (append_nil _).symm, .refl _ _⟩
  | cons action rest ih =>
    obtain ⟨new₁, hlogs₁, hannounced₁⟩ := perform_announces ctx o action
    obtain ⟨new₂, hlogs₂, hannounced₂⟩ := ih (o.perform ctx action)
    refine ⟨new₁ ++ new₂, ?_, hannounced₁.trans hannounced₂⟩
    rw [foldl_cons, hlogs₂, hlogs₁, append_assoc]

theorem Executes.announces (h : Executes sel ctx z tx o) :
    Announces ctx.block.t13 z o.zone o.logs := by
  cases h with
  | system _ _ hexec => exact (zoneExec_reports hexec).announces
  | reverted _ => exact .refl _ _
  | regular _ actions =>
    obtain ⟨new, hlogs, hannounced⟩ := foldl_perform_announces ctx actions ⟨z, []⟩
    rw [hlogs]
    exact hannounced

end Transactions

/-! ## Shapes -/

inductive Shape (sel : Selectors) : ZoneBlockPhase → List TempoTxEnvelope → Prop
  | awaiting : Shape sel .awaitingAdvanceTempo []
  | checkpoint {tx : TempoTxEnvelope}
      (headers : classify sel tx = .advanceTempoHeaders) :
      Shape sel .checkpointOnly [tx]
  | executing {first : TempoTxEnvelope} {users : List TempoTxEnvelope}
      (opens : classify sel first = .advanceTempo)
      (regular : ∀ tx ∈ users, classify sel tx = .regular) :
      Shape sel .executing (first :: users)
  | finalized {first last : TempoTxEnvelope} {users : List TempoTxEnvelope}
      (opens : classify sel first = .advanceTempo)
      (regular : ∀ tx ∈ users, classify sel tx = .regular)
      (finalizes : classify sel last = .finalizeWithdrawalBatch) :
      Shape sel .withdrawalsFinalized (first :: (users ++ [last]))

variable {tx : TempoTxEnvelope} {phase next : ZoneBlockPhase}

theorem validateTransaction_ok (h : phase.validateTransaction sel tx = .ok next) :
    (phase = .awaitingAdvanceTempo ∧ classify sel tx = .advanceTempo ∧
        next = .executing) ∨
      (phase = .awaitingAdvanceTempo ∧
        classify sel tx = .advanceTempoHeaders ∧ next = .checkpointOnly) ∨
      (phase = .executing ∧ classify sel tx = .regular ∧ next = .executing) ∨
      (phase = .executing ∧ classify sel tx = .finalizeWithdrawalBatch ∧
        next = .withdrawalsFinalized) := by
  unfold ZoneBlockPhase.validateTransaction at h
  split at h
  · cases h
  · cases phase <;> cases hkind : classify sel tx <;>
      simp only [hkind, reduceCtorEq, Except.ok.injEq] at h <;> subst h <;> simp

theorem Shape.commit {txs : List TempoTxEnvelope} (h : Shape sel phase txs)
    (hvalid : phase.validateTransaction sel tx = .ok next) :
    Shape sel (phase.advanceTo next) (txs ++ [tx]) := by
  rcases validateTransaction_ok hvalid with ⟨rfl, hkind, rfl⟩ | ⟨rfl, hkind, rfl⟩ |
    ⟨rfl, hkind, rfl⟩ | ⟨rfl, hkind, rfl⟩
  · cases h
    exact .executing hkind nofun
  · cases h
    exact .checkpoint hkind
  · cases h with
    | executing opens regular =>
      refine .executing opens fun t ht => ?_
      rcases mem_append.1 ht with hold | hnew
      · exact regular t hold
      · rw [mem_singleton.1 hnew]
        exact hkind
  · cases h with
    | executing opens regular => exact .finalized opens regular hkind

theorem classify_of_finalized (hvalid : phase.validateTransaction sel tx = .ok next)
    (hfinal : phase.advanceTo next = .withdrawalsFinalized) :
    classify sel tx = .finalizeWithdrawalBatch := by
  rcases validateTransaction_ok hvalid with ⟨rfl, -, rfl⟩ | ⟨rfl, -, rfl⟩ | ⟨rfl, -, rfl⟩ |
    ⟨-, hkind, -⟩
  · exact absurd hfinal (by decide)
  · exact absurd hfinal (by decide)
  · exact absurd hfinal (by decide)
  · exact hkind

/-! ## Finalizations -/

theorem classify_eq_finalize (h : classify sel tx = .finalizeWithdrawalBatch) :
    tx.isSystemTx = true ∧ tx.callsMethod sel .finalizeWithdrawalBatch = true := by
  unfold classify at h
  split at h
  · cases h
  · next hsystem =>
    split at h
    · cases h
    split at h
    · cases h
    split at h
    · next hcalls => exact ⟨by simpa using hsystem, hcalls⟩
    · cases h

theorem method_eq_of_selected {a b : ZoneMethod} {input : Bytes} (haddress : a.address = b.address)
    (ha : (sel.selector a).isPrefixOf input = true)
    (hb : (sel.selector b).isPrefixOf input = true) : a = b := by
  refine sel.distinct a b haddress ?_
  have hlength : (sel.selector a).length = (sel.selector b).length :=
    (sel.length_eq a).trans (sel.length_eq b).symm
  exact (prefix_of_prefix_length_le (List.isPrefixOf_iff_prefix.1 ha)
    (List.isPrefixOf_iff_prefix.1 hb) hlength.le).eq_of_length hlength

theorem Executes.pending_eq_nil {z : Zone W} {o : TxOutcome W} (h : Executes sel ctx z tx o)
    (hkind : classify sel tx = .finalizeWithdrawalBatch) :
    o.zone.outbox.pendingWithdrawals = [] := by
  obtain ⟨hsystem, hcalls⟩ := classify_eq_finalize hkind
  cases h with
  | @system target input call z' hdispatched hselected hexec =>
    simp only [TempoTxEnvelope.callsMethod, TempoTxEnvelope.calls, any_cons, any_nil,
      Bool.or_false, Bool.and_eq_true, decide_eq_true_eq, Option.some.injEq] at hcalls
    have hmethod : call.method = .finalizeWithdrawalBatch :=
      method_eq_of_selected (hdispatched.symm.trans hcalls.1) hselected hcalls.2
    cases call with
    | finalizeWithdrawalBatch count blockNumber encryptedSenders =>
      obtain ⟨withdrawals, -, rfl, -⟩ := finalizeWithdrawalBatch_ok hexec
      rfl
    | _ => cases hmethod
  | reverted huser
  | regular huser _ =>
    rw [huser] at hsystem
    cases hsystem

/-! ## Runs -/

/-- What holds after every step of the caller. -/
structure Progress (sel : Selectors) (ctx : ZoneCtx W) (z : Zone W) (s : ExecutorRun W) : Prop where
  shape : Shape sel s.executor.phase (s.committed.map (·.tx))
  results : ∀ r ∈ s.results, s.executor.phase.validateTransaction sel r.1 = .ok r.2.nextPhase ∧
    Executes sel ctx s.executor.zone r.1 r.2.inner
  announces : Announces ctx.block.t13 z s.executor.zone s.executor.receipts.flatten
  committed : ∀ c ∈ s.committed, ∃ logs ∈ s.executor.receipts,
    Announces ctx.block.t13 c.before c.after logs
  finalized : s.executor.phase = .withdrawalsFinalized →
    s.executor.zone.outbox.pendingWithdrawals = []

namespace Progress

variable {z : Zone W} {s s' : ExecutorRun W}

theorem start (z : Zone W) : Progress sel ctx z (ExecutorRun.start z) where
  shape := .awaiting
  results := nofun
  announces := .refl _ _
  committed := nofun
  finalized := nofun

theorem executeTransactionWithoutCommit_executor (ex : ZoneBlockExecutor W) (tx : TempoTxEnvelope)
    (inner : Except BlockExecutionError (TxOutcome W)) :
    (ex.executeTransactionWithoutCommit sel tx inner).2 = ex := by
  unfold executeTransactionWithoutCommit
  split
  · rfl
  · split <;> rfl

theorem executeTransactionWithoutCommit_ok {ex : ZoneBlockExecutor W} {tx : TempoTxEnvelope}
    {inner : Except BlockExecutionError (TxOutcome W)} {result : ZoneTxResult W}
    (h : (ex.executeTransactionWithoutCommit sel tx inner).1 = .ok result) :
    ex.phase.validateTransaction sel tx = .ok result.nextPhase ∧ inner = .ok result.inner := by
  unfold executeTransactionWithoutCommit at h
  split at h
  · cases h
  · next next hvalid =>
    split at h
    · cases h
    · cases h
      exact ⟨hvalid, rfl⟩

theorem commit {tx : TempoTxEnvelope} {result : ZoneTxResult W} (h : Progress sel ctx z s)
    (executed : (tx, result) ∈ s.results) :
    Progress sel ctx z
      { executor := s.executor.commitTransaction result, results := []
        committed := s.committed ++ [⟨tx, s.executor.zone, result.inner.zone⟩] } := by
  obtain ⟨hvalid, hexecutes⟩ := h.results _ executed
  exact {
    shape := by
      rw [map_append]
      exact h.shape.commit hvalid
    results := nofun
    announces := by
      show Announces _ _ _ (s.executor.receipts ++ [result.inner.logs]).flatten
      rw [flatten_append, flatten_singleton]
      exact h.announces.trans hexecutes.announces
    committed := by
      intro c hc
      rcases mem_append.1 hc with hold | hnew
      · obtain ⟨logs, hlogs, hannounced⟩ := h.committed c hold
        exact ⟨logs, mem_append_left _ hlogs, hannounced⟩
      · rw [mem_singleton.1 hnew]
        exact ⟨_, mem_append_right _ (mem_singleton_self _), hexecutes.announces⟩
    finalized := by
      intro hphase
      exact hexecutes.pending_eq_nil (classify_of_finalized hvalid hphase) }

theorem step (h : Progress sel ctx z s) (hstep : ExecutorRun.Step sel ctx s s') :
    Progress sel ctx z s' := by
  cases hstep with
  | @execute tx inner executes =>
    rw [executeTransactionWithoutCommit_executor]
    refine { h with results := fun r hr => ?_ }
    rcases mem_append.1 hr with hold | hnew
    · exact h.results r hold
    · cases hresult : (s.executor.executeTransactionWithoutCommit sel tx inner).1 with
      | error e =>
        rw [hresult] at hnew
        cases hnew
      | ok result =>
        rw [hresult] at hnew
        rw [mem_singleton.1 hnew]
        obtain ⟨hvalid, hinner⟩ := executeTransactionWithoutCommit_ok hresult
        exact ⟨hvalid, executes _ hinner⟩
  | commit executed => exact h.commit executed
  | discard sub => exact { h with results := fun r hr => h.results r (sub.subset hr) }

theorem of_run (hrun : ReflTransGen (ExecutorRun.Step sel ctx) (ExecutorRun.start z) s) :
    Progress sel ctx z s := by
  induction hrun with
  | refl => exact start z
  | tail _ hstep ih => exact ih.step hstep

end Progress

namespace ExecutorRun

theorem step_execute {s : ExecutorRun W} (tx : TempoTxEnvelope) {o : TxOutcome W}
    (h : Executes sel ctx s.executor.zone tx o) :
    Step sel ctx s
      { s with
        executor := (s.executor.executeTransactionWithoutCommit sel tx (.ok o)).2
        results := s.results ++
          ((s.executor.executeTransactionWithoutCommit sel tx (.ok o)).1.toOption.map
            ((tx, ·))).toList } := by
  refine .execute fun o' heq => ?_
  cases heq
  exact h

theorem execute_commit {s : ExecutorRun W} {tx : TempoTxEnvelope} {next : ZoneBlockPhase}
    {o : TxOutcome W} (hvalid : s.executor.phase.validateTransaction sel tx = .ok next)
    (h : Executes sel ctx s.executor.zone tx o) :
    ReflTransGen (Step sel ctx) s
      { executor := s.executor.commitTransaction ⟨o, next⟩, results := []
        committed := s.committed ++ [⟨tx, s.executor.zone, o.zone⟩] } := by
  have hresult : s.executor.executeTransactionWithoutCommit sel tx (.ok o) =
      (.ok ⟨o, next⟩, s.executor) := by
    simp only [executeTransactionWithoutCommit, hvalid]
  have hexecuted := step_execute tx h
  rw [hresult] at hexecuted
  exact (ReflTransGen.single hexecuted).tail (.commit (mem_append_right _ (mem_singleton_self _)))

end ExecutorRun

theorem Step.executor_eq {s s' : ExecutorRun W} (h : ExecutorRun.Step sel ctx s s')
    (hcommitted : s'.committed = s.committed) : s'.executor = s.executor := by
  cases h with
  | execute _ => exact Progress.executeTransactionWithoutCommit_executor _ _ _
  | commit _ => simp at hcommitted
  | discard _ => rfl

theorem finish_ok {ex : ZoneBlockExecutor W} (h : ex.finish ctx = .ok receipts) :
    ex.phase ≠ .awaitingAdvanceTempo ∧ (ex.phase ≠ .withdrawalsFinalized →
        (∀ log ∈ ex.receipts.flatten, log.isWithdrawalRequest = false) ∧
        (ctx.block.t13 = true → ∀ log ∈ ex.receipts.flatten, log.isProcessedDeposit = false)) := by
  simp only [finish, bind_ok_iff, require_ok_iff] at h
  obtain ⟨-, hopened, -, hrequests, -, hdeposits, -⟩ := h
  refine ⟨hopened, fun hphase => ⟨fun log hlog => ?_, fun ht13 log hlog => ?_⟩⟩
  · have hnone : ¬ ex.receipts.flatten.any ReceiptLog.isWithdrawalRequest = true :=
      fun h => hrequests ⟨h, hphase⟩
    rw [any_eq_true, not_exists] at hnone
    exact Bool.eq_false_iff.2 fun hlog' => hnone log ⟨hlog, hlog'⟩
  have hnone : ¬ ex.receipts.flatten.any ReceiptLog.isProcessedDeposit = true :=
    fun h => hdeposits ⟨by rw [ht13, h]; rfl, hphase⟩
  rw [any_eq_true, not_exists] at hnone
  exact Bool.eq_false_iff.2 fun hlog' => hnone log ⟨hlog, hlog'⟩

/-- A committed transaction enqueued a withdrawal (a request or the refund of a failed deposit, each
of which takes the next withdrawal index), or processed deposits under T13. -/
def NeedsFinalization (ctx : ZoneCtx W) (c : CommittedTx W) : Prop :=
  c.after.outbox.nextWithdrawalIndex ≠ c.before.outbox.nextWithdrawalIndex ∨
    (ctx.block.t13 = true ∧
      c.after.inbox.processedDepositNumber ≠ c.before.inbox.processedDepositNumber)

theorem Progress.finalized_of_needs {z : Zone W} {s : ExecutorRun W} (h : Progress sel ctx z s)
    (hfinish : s.executor.finish ctx = .ok receipts) {c : CommittedTx W} (hc : c ∈ s.committed)
    (hneeds : NeedsFinalization ctx c) : s.executor.phase = .withdrawalsFinalized := by
  by_contra hphase
  obtain ⟨hrequests, hdeposits⟩ := (finish_ok hfinish).2 hphase
  obtain ⟨logs, hlogs, hannounced⟩ := h.committed c hc
  have hmem : ∀ log ∈ logs, log ∈ s.executor.receipts.flatten := fun log hlog =>
    mem_flatten.2 ⟨logs, hlogs, hlog⟩
  rcases hneeds with hindex | ⟨ht13, hnumber⟩
  · exact hindex (hannounced.enqueued fun log hlog => hrequests log (hmem log hlog)).1
  · exact hnumber (hannounced.processed ht13 fun log hlog => hdeposits ht13 log (hmem log hlog))

/-- A block that starts with an empty outbox and finishes is one `advanceTempoHeaders`, or one
`advanceTempo`, user transactions and at most one `finalizeWithdrawalBatch`. Steps that commit nothing
leave the executor as it is. The finalization is there when a committed transaction needs it, and the
outbox has no pending withdrawals at the end. -/
theorem zone_block_grammar {z : Zone W} {s : ExecutorRun W} {receipts : List (List (ReceiptLog W))}
    (hempty : z.outbox.pendingWithdrawals = [])
    (hrun : ReflTransGen (ExecutorRun.Step sel ctx) (ExecutorRun.start z) s)
    (hfinish : s.executor.finish ctx = .ok receipts) :
    ((∃ tx, s.committed.map (·.tx) = [tx] ∧
        classify sel tx = .advanceTempoHeaders) ∨
      ∃ first users last, s.committed.map (·.tx) = first :: (users ++ last) ∧
        classify sel first = .advanceTempo ∧
        (∀ tx ∈ users, classify sel tx = .regular) ∧
        (last = [] ∨ ∃ tx, last = [tx] ∧
          classify sel tx = .finalizeWithdrawalBatch)) ∧
      (∀ s₁ s₂, ExecutorRun.Step sel ctx s₁ s₂ → s₂.committed = s₁.committed →
        s₂.executor = s₁.executor) ∧
      ((∃ c ∈ s.committed, NeedsFinalization ctx c) → ∃ tx,
        (s.committed.map (·.tx)).getLast? = some tx ∧
          classify sel tx = .finalizeWithdrawalBatch) ∧
      s.executor.zone.outbox.pendingWithdrawals = [] := by
  have h : Progress sel ctx z s := .of_run hrun
  have hopened := (finish_ok hfinish).1
  have hshape := h.shape
  refine ⟨?_, fun _ _ hstep => Step.executor_eq hstep, ?_, ?_⟩
  · generalize s.committed.map (·.tx) = txs at hshape
    generalize s.executor.phase = phase at hshape hopened
    cases hshape with
    | awaiting => exact absurd rfl hopened
    | checkpoint headers => exact .inl ⟨_, rfl, headers⟩
    | @executing first users opens regular =>
      exact .inr ⟨first, users, [], by rw [append_nil], opens, regular, .inl rfl⟩
    | finalized opens regular finalizes =>
      exact .inr ⟨_, _, _, rfl, opens, regular, .inr ⟨_, rfl, finalizes⟩⟩
  · rintro ⟨c, hc, hneeds⟩
    have hphase := h.finalized_of_needs hfinish hc hneeds
    rw [hphase] at hshape
    generalize s.committed.map (·.tx) = txs at hshape
    cases hshape with
    | finalized opens regular finalizes =>
      refine ⟨_, ?_, finalizes⟩
      rw [← cons_append, List.getLast?_concat]
  · by_cases hphase : s.executor.phase = .withdrawalsFinalized
    · exact h.finalized hphase
    · exact (h.announces.enqueued ((finish_ok hfinish).2 hphase).1).2 hempty

namespace Example

def selectors : Selectors where
  selector m := match m with
    | .finalizeTempo => [0, 0, 0, 1]
    | .advanceTempo => [0, 0, 0, 2]
    | .advanceTempoHeaders => [0, 0, 0, 3]
    | .claimRefund => [0, 0, 0, 4]
    | .requestWithdrawal => [0, 0, 0, 5]
    | .enqueueDepositBounceBack => [0, 0, 0, 6]
    | .consumeFallbackRecipient => [0, 0, 0, 7]
    | .finalizeWithdrawalBatch => [0, 0, 0, 8]
    | .setTempoGasRate => [0, 0, 0, 9]
    | .setMaxWithdrawalsPerBlock => [0, 0, 0, 10]
  length_eq m := by cases m <;> rfl
  distinct a b _ h := by
    cases a <;> cases b <;> first | rfl | exact absurd h (by decide)

def opening : TempoTxEnvelope := .legacy true (some ZONE_INBOX_ADDRESS) [0, 0, 0, 2]
def withdrawing : TempoTxEnvelope := .typed false [(some ZONE_OUTBOX_ADDRESS, [0, 0, 0, 5])]
def closing : TempoTxEnvelope := .legacy true (some ZONE_OUTBOX_ADDRESS) [0, 0, 0, 8]

def withdrawingActions : List (Action Sym) :=
  [.call 20 (.requestWithdrawal 20 (.num 11) request burnReply), .log 99 none]

def openingOutcome : TxOutcome Sym :=
  ⟨zoneImported, (zoneImported.logs.drop genesis.logs.length).map .ofEvent⟩

def withdrawingOutcome : TxOutcome Sym :=
  withdrawingActions.foldl (TxOutcome.perform zoneCtx) ⟨zoneImported, []⟩

def closingOutcome : TxOutcome Sym :=
  ⟨zoneFinalized, (zoneFinalized.logs.drop zoneRequested.logs.length).map .ofEvent⟩

def blockFinished : ExecutorRun Sym where
  executor :=
    { zone := zoneFinalized
      receipts := [openingOutcome.logs, withdrawingOutcome.logs, closingOutcome.logs]
      phase := .withdrawalsFinalized }
  results := []
  committed := [⟨opening, genesis, zoneImported⟩, ⟨withdrawing, zoneImported, zoneRequested⟩,
    ⟨closing, zoneRequested, zoneFinalized⟩]

theorem opening_executes : Executes selectors zoneCtx genesis opening openingOutcome :=
  .system rfl rfl imports

theorem withdrawing_executes : Executes selectors zoneCtx zoneImported withdrawing withdrawingOutcome :=
  .regular rfl withdrawingActions

theorem closing_executes : Executes selectors zoneCtx zoneRequested closing closingOutcome :=
  .system rfl rfl finalizes

def blockOpened : ExecutorRun Sym where
  executor := ⟨zoneImported, [openingOutcome.logs], .executing⟩
  results := []
  committed := [⟨opening, genesis, zoneImported⟩]

def blockWithdrawn : ExecutorRun Sym where
  executor := ⟨zoneRequested, [openingOutcome.logs, withdrawingOutcome.logs], .executing⟩
  results := []
  committed := [⟨opening, genesis, zoneImported⟩, ⟨withdrawing, zoneImported, zoneRequested⟩]

theorem blockFinished_reached :
    ReflTransGen (ExecutorRun.Step selectors zoneCtx) (ExecutorRun.start genesis)
      blockFinished := by
  have hearly : ExecutorRun.Step selectors zoneCtx (ExecutorRun.start genesis)
      (ExecutorRun.start genesis) :=
    ExecutorRun.step_execute withdrawing (.reverted rfl)
  have hopened : ReflTransGen (ExecutorRun.Step selectors zoneCtx)
      (ExecutorRun.start genesis) blockOpened := by
    have h := ExecutorRun.execute_commit (s := ExecutorRun.start genesis) rfl opening_executes
    exact h
  have hexecuted : ExecutorRun.Step selectors zoneCtx blockOpened
      { blockOpened with results := [(withdrawing, ⟨withdrawingOutcome, .executing⟩)] } :=
    ExecutorRun.step_execute withdrawing withdrawing_executes
  have hdiscarded : ExecutorRun.Step selectors zoneCtx
      { blockOpened with results := [(withdrawing, ⟨withdrawingOutcome, .executing⟩)] }
      blockOpened := .discard (nil_sublist _)
  have hwithdrawn : ReflTransGen (ExecutorRun.Step selectors zoneCtx) blockOpened
      blockWithdrawn := by
    have h := ExecutorRun.execute_commit (s := blockOpened) rfl withdrawing_executes
    exact h
  have hfinished : ReflTransGen (ExecutorRun.Step selectors zoneCtx) blockWithdrawn
      blockFinished := by
    have h := ExecutorRun.execute_commit (s := blockWithdrawn) rfl closing_executes
    exact h
  exact (((ReflTransGen.single hearly).trans hopened).tail hexecuted).tail hdiscarded
    |>.trans hwithdrawn |>.trans hfinished

theorem blockFinished_finish :
    blockFinished.executor.finish zoneCtx = .ok blockFinished.executor.receipts := by
  simp only [finish, bind_ok_iff, require_ok_iff]
  exact ⟨(), by decide, (), fun h => h.2 rfl, (), fun h => h.2 rfl, rfl⟩

theorem zone_block_grammar_withdrawal :
    NeedsFinalization zoneCtx ⟨withdrawing, zoneImported, zoneRequested⟩ ∧
      (∃ tx, (blockFinished.committed.map (·.tx)).getLast? = some tx ∧
        classify selectors tx = .finalizeWithdrawalBatch) ∧
      blockFinished.executor.zone.outbox.pendingWithdrawals = [] := by
  have hneeds : NeedsFinalization zoneCtx ⟨withdrawing, zoneImported, zoneRequested⟩ :=
    .inl (by decide)
  have h := zone_block_grammar (z := genesis) rfl blockFinished_reached blockFinished_finish
  exact ⟨hneeds, h.2.2.1 ⟨_, mem_cons_of_mem _ mem_cons_self, hneeds⟩, h.2.2.2⟩

end Example

end TempoZones
