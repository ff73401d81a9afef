import TempoZones.Zone.Inbox

/-!
# Calls to the zone precompiles

`zoneExec` is one call. `EntryStep` lists what one queue entry does to the zone, `Advanced` what a
full import does, and `ZoneStep` what a call of an account other than the inbox does; `zone_step`
proves that a successful call is one of these. Invariants of the zone are proved over these
relations.
-/

namespace TempoZones

open Lib Function Zone

variable {W : Type} [EvmWord W] [DecidableEq W] {reply : AdvanceReply} {call : AdvanceTempo W}

/-! ## Effects of one queue entry -/

def Zone.consumed (z : Zone W) (nonce : ℕ) : Zone W :=
  { z with
    outbox := { z.outbox with
      fallbackRecipients := update z.outbox.fallbackRecipients nonce 0 }
    history := { z.history with consumed := z.history.consumed ++ [nonce] } }

def Zone.refunding (z : Zone W) (d : Deposit W) : Zone W :=
  { z with outbox := { z.outbox with
    pendingWithdrawals := z.outbox.pendingWithdrawals ++
      [PendingWithdrawal.fromBounceBack d.token d.amount d.tempoRefundRecipient]
    nextWithdrawalIndex := z.outbox.nextWithdrawalIndex + 1 } }.emit
    (.withdrawalRequested z.outbox.nextWithdrawalIndex
      (PendingWithdrawal.fromBounceBack d.token d.amount d.tempoRefundRecipient) 0)

/-- Effects of one processed queue entry: a deposit is minted or refunded, a bounce-back is minted
to the recipient of its nonce or parked for it. -/
inductive EntryStep (z : Zone W) : QueueEntry W → Zone W → Prop
  | minted {d : Deposit W} {log : ZoneEvent W} :
      EntryStep z (.deposit d) (((z.minted d.token d.amount).emit log).record (.deposit d))
  | failed {d : Deposit W} {log : ZoneEvent W} :
      EntryStep z (.deposit d) (((z.refunding d).emit log).record (.deposit d))
  | returned {d : WithdrawalBounceBackDeposit} {log : ZoneEvent W}
      (recipient : z.outbox.fallbackRecipients d.fallbackNonce ≠ 0) :
      EntryStep z (.bounceBack d)
        ((((z.consumed d.fallbackNonce).minted d.token d.amount).emit log).record (.bounceBack d))
  | parked {d : WithdrawalBounceBackDeposit} {log : ZoneEvent W}
      (recipient : z.outbox.fallbackRecipients d.fallbackNonce ≠ 0) :
      EntryStep z (.bounceBack d)
        ((((z.consumed d.fallbackNonce).park d.token
          (z.outbox.fallbackRecipients d.fallbackNonce) d.amount).emit log).record
          (.bounceBack d))

inductive EntryPath : List (QueueEntry W) → Zone W → Zone W → Prop
  | nil (z : Zone W) : EntryPath [] z z
  | cons {e : QueueEntry W} {rest : List (QueueEntry W)} {z z₁ z' : Zone W}
      (step : EntryStep z e z₁) (path : EntryPath rest z₁ z') : EntryPath (e :: rest) z z'

variable {ctx : ZoneCtx W} {z z' : Zone W} {caller : Address}

theorem consumeFallbackRecipient_ok {nonce : ℕ} {recipient : Address}
    (h : z.consumeFallbackRecipient caller nonce = .ok (recipient, z')) :
    z.outbox.fallbackRecipients nonce ≠ 0 ∧ recipient = z.outbox.fallbackRecipients nonce ∧
      z' = z.consumed nonce := by
  simp only [consumeFallbackRecipient, ok_iff, Prod.mk.injEq] at h
  obtain ⟨-, -, -, hne, rfl, rfl⟩ := h
  exact ⟨hne, rfl, rfl⟩

theorem processWithdrawalBounceBack_ok {d : WithdrawalBounceBackDeposit} {reply : TryMint}
    (h : z.processWithdrawalBounceBack d reply = .ok z') :
    EntryStep z (.bounceBack d) (z'.record (.bounceBack d)) := by
  simp only [processWithdrawalBounceBack, bind_ok_iff] at h
  obtain ⟨⟨recipient, z₁⟩, hconsume, ⟨ok, z₂⟩, hmint, h⟩ := h
  obtain ⟨hne, rfl, rfl⟩ := consumeFallbackRecipient_ok hconsume
  rcases tryMint_ok hmint with ⟨rfl, rfl⟩ | ⟨rfl, rfl⟩
  · cases pure_ok_iff.1 h
    exact .returned hne
  simp only [Bool.false_eq_true, if_false, ok_iff] at h
  obtain ⟨-, -, rfl⟩ := h
  exact .parked hne

theorem failDeposit_ok {hash : W} {d : Deposit W} (h : z.failDeposit hash d = .ok z') :
    ∃ log, z' = (z.refunding d).emit log := by
  simp only [failDeposit, enqueueDepositBounceBack, ok_iff] at h
  obtain ⟨z₁, ⟨-, -, henqueue⟩, rfl⟩ := h
  rw [enqueue_ok henqueue]
  exact ⟨_, rfl⟩

theorem processDeposit_ok {hash : W} {d : Deposit W} {decryption : DecryptionData W}
    {key : W × ℕ} {reply : TryMint}
    (h : z.processDeposit ctx hash d decryption key reply = .ok z') :
    EntryStep z (.deposit d) (z'.record (.deposit d)) := by
  unfold processDeposit at h
  split at h
  · obtain ⟨log, rfl⟩ := failDeposit_ok h
    exact .failed
  obtain ⟨⟨ok, z₁⟩, hmint, hrest⟩ := bind_ok_iff.1 h
  rcases tryMint_ok hmint with ⟨rfl, rfl⟩ | ⟨rfl, rfl⟩
  · cases pure_ok_iff.1 hrest
    exact .minted
  · obtain ⟨log, rfl⟩ := failDeposit_ok hrest
    exact .failed

variable {entries : List (QueueEntry W)}

theorem processQueue_ok {mints : ℕ → TryMint} {i : ℕ}
    {decryptions leftover : List (DecryptionData W)} {hash hash' : W}
    (h : processQueue ctx mints i entries decryptions hash z = .ok (hash', leftover, z')) :
    hash' = prefixChain QueueEntry.hashWithTail hash entries ∧ EntryPath entries z z' := by
  induction entries generalizing i decryptions hash z with
  | nil =>
    cases pure_ok_iff.1 h
    exact ⟨rfl, .nil _⟩
  | cons e rest ih =>
    cases e with
    | bounceBack d =>
      obtain ⟨z₁, hstep, h⟩ := bind_ok_iff.1 h
      obtain ⟨rfl, hpath⟩ := ih h
      exact ⟨rfl, .cons (processWithdrawalBounceBack_ok hstep) hpath⟩
    | deposit d =>
      cases decryptions with
      | nil => cases h
      | cons decryption decryptions =>
        simp only [processQueue, bind_ok_iff] at h
        obtain ⟨key, -, z₁, hstep, h⟩ := h
        obtain ⟨rfl, hpath⟩ := ih h
        exact ⟨rfl, .cons (processDeposit_ok hstep) hpath⟩

/-! ## Effects of a full import -/

def Zone.withTokens (z : Zone W) (tokens : List EnabledToken) (count : ℕ)
    (initialized : Address → Bool) (logs : List (ZoneEvent W)) : Zone W :=
  { z with
    inbox := { z.inbox with
      processedTokenEnablementHash := prefixChain EnabledToken.hashWithPrevious
        z.inbox.processedTokenEnablementHash tokens
      processedEnabledTokenCount := count }
    tokens := { z.tokens with initialized := initialized }
    logs := z.logs ++ logs
    history := { z.history with processedTokens := z.history.processedTokens ++ tokens } }

def Zone.withCheckpoint (z : Zone W) (tempo : TempoState W) (log : ZoneEvent W) : Zone W :=
  { z with tempo := tempo }.emit log

/-- How a full import with the given portal storage counts its tokens: the count stays, is
bootstrapped from the portal, or grows by the tokens supplied. -/
inductive TokenCount (p : Portal W) (previous supplied : ℕ) : ℕ → Prop
  | kept : TokenCount p previous supplied previous
  | bootstrapped (zero : previous = 0) :
      TokenCount p previous supplied p.registry.enabledTokens.length
  | grown : TokenCount p previous supplied (previous + supplied)

/-- Token count after a full import. T13 bootstraps it once from the portal and then advances it by the
tokens supplied; before T13 it is kept. -/
def Zone.countTokens (z : Zone W) (ctx : ZoneCtx W) (portalCount supplied : ℕ) : ℕ :=
  if ctx.block.t13 = true then
    if z.inbox.processedEnabledTokenCount = 0 then portalCount
    else z.inbox.processedEnabledTokenCount + supplied
  else z.inbox.processedEnabledTokenCount

theorem Zone.countTokens_counted (z : Zone W) (ctx : ZoneCtx W) (p : Portal W) (supplied : ℕ) :
    TokenCount p z.inbox.processedEnabledTokenCount supplied
      (z.countTokens ctx p.registry.enabledTokens.length supplied) := by
  unfold countTokens
  split
  · split
    · next hzero => exact .bootstrapped hzero
    · exact .grown
  · exact .kept

/-- Effects of a full import of `entries` and `tokens` with a nonzero portal: checkpoint, tokens,
entries, cursor. Both hash chains meet those of the portal storage at the new checkpoint. -/
inductive Advanced (ctx : ZoneCtx W) (z : Zone W) (entries : List (QueueEntry W))
    (tokens : List EnabledToken) : Zone W → Prop
  | mk {tempo : TempoState W} {p : Portal W} {count : ℕ} {initialized : Address → Bool}
      {zq : Zone W} {checkpointLog log : ZoneEvent W} {tokenLogs : List (ZoneEvent W)}
      (later : z.tempo.tempoBlockNumber < tempo.tempoBlockNumber)
      (reads : ctx.readPortal tempo.tempoBlockNumber = some p)
      (tokens_eq : p.registry.tokenEnablementHash = prefixChain EnabledToken.hashWithPrevious
        z.inbox.processedTokenEnablementHash tokens)
      (counted : TokenCount p z.inbox.processedEnabledTokenCount tokens.length count)
      (path : EntryPath entries ((z.withCheckpoint tempo checkpointLog).withTokens tokens count
        initialized tokenLogs) zq)
      (entries_eq : p.deposits.currentDepositQueueHash = prefixChain QueueEntry.hashWithTail
        z.inbox.processedDepositQueueHash entries)
      (number_lt : z.inbox.processedDepositNumber + entries.length < 2 ^ 64) :
      Advanced ctx z entries tokens (zq.commit
        (prefixChain QueueEntry.hashWithTail z.inbox.processedDepositQueueHash entries)
        (z.inbox.processedDepositNumber + entries.length) log)

theorem decodeDeposits_length {lib : ZoneLibraries W} {queued : List QueuedDeposit}
    (h : decodeDeposits lib queued = .ok entries) : entries.length = queued.length := by
  induction queued generalizing entries with
  | nil =>
    cases pure_ok_iff.1 h
    rfl
  | cons q rest ih =>
    simp only [decodeDeposits, ok_iff] at h
    obtain ⟨e, -, es, hes, rfl⟩ := h
    exact congrArg (· + 1) (ih hes)

theorem enableTokens_ok {enables : ℕ → Bool} {i : ℕ} {tokens : List EnabledToken}
    (h : enableTokens enables i tokens z = .ok z') :
    ∃ initialized logs, z' = { z with
      tokens := { z.tokens with initialized := initialized }, logs := z.logs ++ logs } := by
  induction tokens generalizing i z with
  | nil =>
    cases pure_ok_iff.1 h
    exact ⟨_, [], by rw [List.append_nil]⟩
  | cons t rest ih =>
    simp only [enableTokens, ok_iff] at h
    obtain ⟨-, -, h⟩ := h
    obtain ⟨initialized, logs, rfl⟩ := ih h
    refine ⟨initialized, .tokenEnabled t :: logs, ?_⟩
    simp only [emit, List.append_assoc, List.singleton_append]

theorem anchoredPortal_ok {p : Portal W} (h : z.anchoredPortal ctx = .ok p) :
    ctx.readPortal z.tempo.tempoBlockNumber = some p := by
  unfold anchoredPortal at h
  cases hread : ctx.readPortal z.tempo.tempoBlockNumber with
  | none =>
    rw [hread] at h
    cases h
  | some q =>
    rw [hread] at h
    cases h
    rfl

theorem checkTokenEnablements_ok {hash : W} {count : Option ℕ} (hportal : ctx.portal ≠ 0)
    (h : z.checkTokenEnablements ctx hash = .ok count) :
    ∃ p, ctx.readPortal z.tempo.tempoBlockNumber = some p ∧ p.registry.tokenEnablementHash = hash ∧
      count = if ctx.block.t13 = true ∧ z.inbox.processedEnabledTokenCount = 0 then
        some p.registry.enabledTokens.length else none := by
  rw [checkTokenEnablements, if_pos hportal] at h
  simp only [ok_iff] at h
  obtain ⟨p, hp, -, hhash, hcount⟩ := h
  exact ⟨p, anchoredPortal_ok hp, hhash, hcount.symm⟩

theorem nextTokenCount_ok {p : Portal W} {portalCount : Option ℕ} {supplied count : ℕ}
    (hcount : portalCount =
      if ctx.block.t13 = true ∧ z.inbox.processedEnabledTokenCount = 0 then
        some p.registry.enabledTokens.length else none)
    (h : z.nextTokenCount ctx portalCount supplied = .ok count) :
    count = z.countTokens ctx p.registry.enabledTokens.length supplied := by
  subst hcount
  unfold nextTokenCount at h
  unfold countTokens
  by_cases ht : ctx.block.t13 = true
  · by_cases hzero : z.inbox.processedEnabledTokenCount = 0
    · simp only [ht, hzero, and_self, if_true, ok_iff] at h ⊢
      obtain ⟨-, -, rfl⟩ := h
      rfl
    · simp only [ht, hzero, and_false, if_true, if_false] at h ⊢
      exact (zoneCheckedAdd_eq_ok.1 h).2.symm
  · rw [if_neg ht] at h ⊢
    exact (pure_ok_iff.1 h).symm

theorem advanceTokens_ok {tokens : List EnabledToken} {enables : ℕ → Bool}
    (hportal : ctx.portal ≠ 0) (h : z.advanceTokens ctx tokens enables = .ok z') :
    ∃ p initialized logs, ctx.readPortal z.tempo.tempoBlockNumber = some p ∧
      p.registry.tokenEnablementHash = prefixChain EnabledToken.hashWithPrevious
        z.inbox.processedTokenEnablementHash tokens ∧
      z' = z.withTokens tokens (z.countTokens ctx p.registry.enabledTokens.length tokens.length)
        initialized logs := by
  simp only [advanceTokens, ok_iff] at h
  obtain ⟨portalCount, hcheck, z₁, henable, count, hcount, rfl⟩ := h
  obtain ⟨p, hread, hhash, hportalCount⟩ := checkTokenEnablements_ok hportal hcheck
  obtain ⟨initialized, logs, rfl⟩ := enableTokens_ok henable
  obtain rfl := nextTokenCount_ok hportalCount hcount
  exact ⟨p, initialized, logs, hread, hhash, rfl⟩

theorem EntryPath.keeps {α : Type} {f : Zone W → α}
    (step : ∀ {e : QueueEntry W} {z z' : Zone W}, EntryStep z e z' → f z' = f z)
    (h : EntryPath entries z z') : f z' = f z := by
  induction h with
  | nil => rfl
  | cons first _ ih => exact ih.trans (step first)

theorem EntryPath.cursor_eq (h : EntryPath entries z z') :
    z'.tempo = z.tempo ∧ z'.inbox.processedDepositNumber = z.inbox.processedDepositNumber :=
  ⟨h.keeps (f := fun z => z.tempo) (fun step => by cases step <;> rfl),
    h.keeps (f := fun z => z.inbox.processedDepositNumber) (fun step => by cases step <;> rfl)⟩

theorem advanceTempo_ok (hportal : ctx.portal ≠ 0)
    (h : z.advanceTempo ctx caller call reply = .ok z') :
    ∃ entries, decodeDeposits ctx.lib call.deposits = .ok entries ∧
      Advanced ctx z entries call.enabledTokens z' := by
  simp only [advanceTempo, ok_iff, if_pos hportal] at h
  obtain ⟨-, -, entries, hdecode, z₁, hcheckpoint, z₂, htokens, ⟨hash, leftover, zq⟩, hqueue, -, -,
    p, hread, -, hmatch, number, hnumber, rfl⟩ := h
  obtain ⟨tempo, checkpointLog, hlater, rfl⟩ := finalizeCheckpoints_ok hcheckpoint
  obtain ⟨q, initialized, tokenLogs, hq, htokenHash, rfl⟩ := advanceTokens_ok hportal htokens
  obtain ⟨rfl, hpath⟩ := processQueue_ok hqueue
  obtain ⟨htempo, hprevious⟩ := hpath.cursor_eq
  -- both reads resolve to the storage at the new checkpoint
  have hread' := anchoredPortal_ok hread
  rw [htempo] at hread'
  obtain rfl : q = p := Option.some.inj (hq.symm.trans hread')
  obtain ⟨hlt, rfl⟩ := zoneCheckedAdd_eq_ok.1 hnumber
  simp only [hprevious, ← decodeDeposits_length hdecode] at hlt ⊢
  exact ⟨entries, hdecode, .mk hlater hq htokenHash (countTokens_counted _ _ _ _) hpath hmatch hlt⟩

theorem advanceTempo_count (hportal : ctx.portal ≠ 0)
    (h : z.advanceTempo ctx caller call reply = .ok z') :
    ∃ p, ctx.readPortal z'.tempo.tempoBlockNumber = some p ∧ z'.inbox.processedEnabledTokenCount =
        z.countTokens ctx p.registry.enabledTokens.length call.enabledTokens.length := by
  simp only [advanceTempo, ok_iff, if_pos hportal] at h
  obtain ⟨-, -, entries, -, z₁, hcheckpoint, z₂, htokens, ⟨hash, leftover, zq⟩, hqueue, -, -,
    p, -, -, -, number, -, rfl⟩ := h
  obtain ⟨tempo, checkpointLog, -, rfl⟩ := finalizeCheckpoints_ok hcheckpoint
  obtain ⟨q, initialized, tokenLogs, hq, -, rfl⟩ := advanceTokens_ok hportal htokens
  obtain ⟨-, hpath⟩ := processQueue_ok hqueue
  have htempo := congrArg TempoState.tempoBlockNumber hpath.cursor_eq.1
  have hcount := hpath.keeps (f := fun z => z.inbox.processedEnabledTokenCount)
    (fun step => by cases step <;> rfl)
  exact ⟨q, (congrArg ctx.readPortal htempo).trans hq, hcount⟩

theorem advanceTempo_checkpoint (h : z.advanceTempo ctx caller call reply = .ok z') :
    ∃ z₁, z.finalizeCheckpoints ctx [call.header] = .ok z₁ ∧ z'.tempo = z₁.tempo := by
  simp only [advanceTempo, advanceTokens, ok_iff] at h
  obtain ⟨-, -, entries, -, z₁, hcheckpoint, z₂, ⟨_, -, z₃, henable, count, -, rfl⟩,
    ⟨hash, leftover, zq⟩, hqueue, -, -, h⟩ := h
  obtain ⟨initialized, logs, rfl⟩ := enableTokens_ok henable
  obtain ⟨-, hpath⟩ := processQueue_ok hqueue
  have hqueued : zq.tempo = z₁.tempo := hpath.cursor_eq.1
  refine ⟨z₁, hcheckpoint, ?_⟩
  -- with and without a portal, the last step writes the cursor alone
  split at h
  · simp only [ok_iff] at h
    obtain ⟨-, -, -, -, -, -, rfl⟩ := h
    exact hqueued
  simp only [ok_iff] at h
  obtain ⟨-, -, rfl⟩ := h
  exact hqueued

/-! ## Calls -/

/-- `apply_checkpoints`, the entry point of `finalizeTempo`. -/
def Zone.applyCheckpoints (z : Zone W) (ctx : ZoneCtx W) (sender : Address)
    (headers : List Bytes) : Except ZoneError (Zone W) := do
  require (sender = ZONE_INBOX_ADDRESS) ZoneError.onlyZoneInbox
  z.finalizeCheckpoints ctx headers

/-- State-changing calls to the zone precompiles, with the replies of the zone's tokens. -/
inductive ZoneCall (W : Type) where
  | finalizeTempo (headers : List Bytes)
  | advanceTempo (call : AdvanceTempo W) (reply : AdvanceReply)
  | advanceTempoHeaders (headers : List Bytes)
  | claimRefund (token : Address) (reply : TryMint)
  | requestWithdrawal (feePayer : Address) (currentTxHash : W) (call : RequestWithdrawal W)
      (reply : BurnReply)
  | enqueueDepositBounceBack (token : Address) (amount : ℕ) (tempoRefundRecipient : Address)
  | consumeFallbackRecipient (fallbackNonce : ℕ)
  | finalizeWithdrawalBatch (count blockNumber : ℕ) (encryptedSenders : List Bytes)
  | setTempoGasRate (tempoGasRate : ℕ)
  | setMaxWithdrawalsPerBlock (maxWithdrawalsPerBlock : ℕ)

def zoneExec (ctx : ZoneCtx W) (caller : Address) (z : Zone W) :
    ZoneCall W → Except ZoneError (Zone W)
  | .finalizeTempo headers => z.applyCheckpoints ctx caller headers
  | .advanceTempo call reply => z.advanceTempo ctx caller call reply
  | .advanceTempoHeaders headers => z.advanceTempoHeaders ctx caller headers
  | .claimRefund token reply => z.claimRefund reply caller token
  | .requestWithdrawal feePayer currentTxHash call reply =>
    z.requestWithdrawal ctx reply caller feePayer currentTxHash call
  | .enqueueDepositBounceBack token amount tempoRefundRecipient =>
    z.enqueueDepositBounceBack caller token amount tempoRefundRecipient
  | .consumeFallbackRecipient fallbackNonce => do
      let (_, z) ← z.consumeFallbackRecipient caller fallbackNonce
      pure z
  | .finalizeWithdrawalBatch count blockNumber encryptedSenders =>
    z.finalizeWithdrawalBatch ctx caller count blockNumber encryptedSenders
  | .setTempoGasRate tempoGasRate => z.setTempoGasRate ctx caller tempoGasRate
  | .setMaxWithdrawalsPerBlock maxWithdrawalsPerBlock =>
    z.setMaxWithdrawalsPerBlock ctx caller maxWithdrawalsPerBlock

def zoneApply (ctx : ZoneCtx W) (caller : Address) (z : Zone W) (call : ZoneCall W) : Zone W :=
  match zoneExec ctx caller z call with
  | .ok z' => z'
  | .error _ => z

/-- State after the parked bounce-backs of `owner` were claimed. -/
def Zone.claimed (z : Zone W) (token owner : Address) : Zone W :=
  { z.minted token (uint128 (z.inbox.withdrawalBounceBacks token owner)) with
    inbox := { z.inbox with
      withdrawalBounceBacks := update z.inbox.withdrawalBounceBacks token
        (update (z.inbox.withdrawalBounceBacks token) owner 0) } }

inductive ZoneStep (ctx : ZoneCtx W) (z : Zone W) : Zone W → Prop
  | checkpoint {tempo : TempoState W} {log : ZoneEvent W}
      (later : z.tempo.tempoBlockNumber < tempo.tempoBlockNumber) :
      ZoneStep ctx z (z.withCheckpoint tempo log)
  | advanced {entries : List (QueueEntry W)} {tokens : List EnabledToken} {z' : Zone W}
      (step : Advanced ctx z entries tokens z') : ZoneStep ctx z z'
  | claimed {token owner : Address} {log : ZoneEvent W} :
      ZoneStep ctx z ((z.claimed token owner).emit log)
  | requested {currentBlockNumber withdrawalsThisBlock fee : ℕ} {caller : Address} {txHash : W}
      {call : RequestWithdrawal W} (recipient : call.zoneFallbackRecipient ≠ 0)
      (nonce_lt : z.outbox.lastFallbackNonce + 1 < 2 ^ 64)
      (covered : call.amount + fee ≤ z.tokens.supply call.token) :
      ZoneStep ctx z (z.withRequest currentBlockNumber withdrawalsThisBlock
        (.fromRequest caller txHash (z.outbox.lastFallbackNonce + 1) call) call fee)
  | finalized {block : ZoneBlock} {withdrawals : List (Withdrawal W)}
      (index_lt : z.outbox.withdrawalBatchIndex + 1 < 2 ^ 64)
      (listed : List.Forall₂ (fun p w => w.token = p.token ∧ w.amount = p.amount ∧
        w.fallbackNonce = p.fallbackNonce) z.outbox.pendingWithdrawals withdrawals) :
      ZoneStep ctx z (z.withBatch block withdrawals (Withdrawal.queueHash withdrawals))
  | configured {tempoGasRate maxWithdrawalsPerBlock : ℕ} {log : ZoneEvent W} :
      ZoneStep ctx z ({ z with outbox := { z.outbox with
        tempoGasRate := tempoGasRate
        maxWithdrawalsPerBlock := maxWithdrawalsPerBlock } }.emit log)

theorem zoneClaimRefund_ok {reply : TryMint} {caller token : Address}
    (h : z.claimRefund reply caller token = .ok z') :
    ∃ log, z' = (z.claimed token caller).emit log := by
  simp only [claimRefund, ok_iff] at h
  obtain ⟨⟨ok, z₁⟩, hmint, -, hok, rfl⟩ := h
  rcases tryMint_ok hmint with ⟨-, rfl⟩ | ⟨rfl, -⟩
  · exact ⟨_, rfl⟩
  · cases hok

/-- A call of an account other than the inbox that is not a full import has one of the listed effects
and leaves the tokens of the zone alone; only the zero address moves the checkpoint. -/
theorem zone_step_or_full {call : ZoneCall W} (outside : caller ≠ ZONE_INBOX_ADDRESS)
    (h : zoneExec ctx caller z call = .ok z') :
    (∃ args reply, call = .advanceTempo args reply) ∨
      (ZoneStep ctx z z' ∧ z'.history.processedTokens = z.history.processedTokens ∧
        z'.inbox.processedEnabledTokenCount = z.inbox.processedEnabledTokenCount ∧
        (caller ≠ 0 → z'.tempo = z.tempo)) := by
  cases call with
  | finalizeTempo headers =>
    simp only [zoneExec, applyCheckpoints, ok_iff] at h
    obtain ⟨-, hinbox, -⟩ := h
    exact absurd hinbox outside
  | advanceTempo call reply => exact .inl ⟨call, reply, rfl⟩
  | advanceTempoHeaders headers =>
    simp only [zoneExec, advanceTempoHeaders, ok_iff] at h
    obtain ⟨-, -, -, hzero, h⟩ := h
    obtain ⟨tempo, log, hlater, rfl⟩ := finalizeCheckpoints_ok h
    exact .inr ⟨.checkpoint hlater, rfl, rfl, fun hne => absurd hzero hne⟩
  | claimRefund token reply =>
    obtain ⟨log, rfl⟩ := zoneClaimRefund_ok h
    exact .inr ⟨.claimed, rfl, rfl, fun _ => rfl⟩
  | requestWithdrawal feePayer txHash call reply =>
    obtain ⟨n, m, fee, hrecipient, hlt, hcovered, rfl⟩ := requestWithdrawal_ok h
    exact .inr ⟨.requested hrecipient hlt hcovered, rfl, rfl, fun _ => rfl⟩
  | enqueueDepositBounceBack token amount recipient =>
    simp only [zoneExec, enqueueDepositBounceBack, ok_iff] at h
    obtain ⟨-, hinbox, -⟩ := h
    exact absurd hinbox outside
  | consumeFallbackRecipient nonce =>
    simp only [zoneExec, consumeFallbackRecipient, ok_iff] at h
    obtain ⟨-, ⟨-, hinbox, -⟩, -⟩ := h
    exact absurd hinbox outside
  | finalizeWithdrawalBatch count blockNumber encryptedSenders =>
    obtain ⟨ws, hlt, rfl, hlisted⟩ := finalizeWithdrawalBatch_ok h
    exact .inr ⟨.finalized hlt hlisted, rfl, rfl, fun _ => rfl⟩
  | setTempoGasRate rate =>
    simp only [zoneExec, setTempoGasRate, ok_iff] at h
    obtain ⟨-, -, -, -, -, -, rfl⟩ := h
    exact .inr ⟨.configured, rfl, rfl, fun _ => rfl⟩
  | setMaxWithdrawalsPerBlock max =>
    simp only [zoneExec, setMaxWithdrawalsPerBlock, ok_iff] at h
    obtain ⟨-, -, rfl⟩ := h
    exact .inr ⟨.configured, rfl, rfl, fun _ => rfl⟩

theorem zone_step {call : ZoneCall W} (hportal : ctx.portal ≠ 0)
    (outside : caller ≠ ZONE_INBOX_ADDRESS) (h : zoneExec ctx caller z call = .ok z') :
    ZoneStep ctx z z' := by
  rcases zone_step_or_full outside h with ⟨args, reply, rfl⟩ | ⟨hstep, -⟩
  · obtain ⟨entries, -, hadvanced⟩ := advanceTempo_ok hportal h
    exact .advanced hadvanced
  · exact hstep

theorem zoneApply_tempo {call : ZoneCall W} (hzero : caller ≠ 0)
    (outside : caller ≠ ZONE_INBOX_ADDRESS) : (zoneApply ctx caller z call).tempo = z.tempo := by
  unfold zoneApply
  cases hexec : zoneExec ctx caller z call with
  | error e => rfl
  | ok z' =>
    rcases zone_step_or_full outside hexec with ⟨args, reply, rfl⟩ | ⟨-, -, -, hkept⟩
    · simp only [zoneExec, advanceTempo, ok_iff] at hexec
      obtain ⟨-, hcaller, -⟩ := hexec
      exact absurd hcaller hzero
    · exact hkept hzero

end TempoZones
