import TempoZones.System.WithdrawalFifo
import TempoZones.Zone.Executor

/-!
# Withdrawals from their events

The outbox stores the withdrawals of a block and hashes them when the batch is finalized. The
sequencer reads the `WithdrawalRequested` logs of the block, takes the transaction hash from the
transaction that holds the log, and the encrypted senders from the calldata of the finalization
(`fetchFinalizedBatch`). Each call that succeeds logs one event for every withdrawal it leaves
pending, in order (`LogsRequests`).
-/

namespace TempoZones

open Lib List Withdrawal Zone

variable {W : Type} [EvmWord W] [DecidableEq W] {caller : Address} {reply : TryMint}

/-! ## Events -/

/-- The event `WithdrawalRequested`; `recipient` is the source's `to`. -/
structure WithdrawalRequested (W : Type) where
  withdrawalIndex : ℕ
  sender : Address
  token : Address
  recipient : Address
  amount : ℕ
  fee : ℕ
  memo : W
  gasLimit : ℕ
  fallbackNonce : ℕ
  data : Bytes
  revealTo : Bytes

def PendingWithdrawal.requestedEvent (p : PendingWithdrawal W) (index fee : ℕ) :
    WithdrawalRequested W where
  withdrawalIndex := index
  sender := p.sender
  token := p.token
  recipient := p.recipient
  amount := p.amount
  fee := fee
  memo := p.memo
  gasLimit := p.gasLimit
  fallbackNonce := p.fallbackNonce
  data := p.callbackData
  revealTo := p.revealTo

def Withdrawal.fromRequestedEvent (event : WithdrawalRequested W) (txHash : W)
    (encryptedSender : Bytes) : Withdrawal W where
  token := event.token
  senderTag := senderTagOf event.sender txHash event.fallbackNonce
  recipient := event.recipient
  amount := event.amount
  memo := event.memo
  gasLimit := event.gasLimit
  fallbackNonce := event.fallbackNonce
  callbackData := event.data
  encryptedSender := encryptedSender

/-- Failures of `fetch_finalized_batch`. -/
inductive FetchBatchError (W : Type) where
  | encryptedSenderCountMismatch (senders requests : ℕ)
  | withdrawalHashMismatch (event reconstructed : W)
  deriving DecidableEq

/-- The event of a log, if the outbox emitted it as `WithdrawalRequested`. -/
def ReceiptLog.withdrawalRequested? (log : ReceiptLog W) : Option (WithdrawalRequested W) :=
  if log.address = ZONE_OUTBOX_ADDRESS then
    match log.event with
    | some (.withdrawalRequested index pending fee) => some (pending.requestedEvent index fee)
    | _ => none
  else none

/-- Requests in the logs of a block, each with the hash of its transaction. -/
def blockRequests (logs : List (W × ReceiptLog W)) : List (W × WithdrawalRequested W) :=
  logs.filterMap fun entry => entry.2.withdrawalRequested?.map (entry.1, ·)

def reconstruct (requests : List (W × WithdrawalRequested W)) (encryptedSenders : List Bytes) :
    List (Withdrawal W) :=
  (requests.zip encryptedSenders).map fun entry =>
    .fromRequestedEvent entry.1.2 entry.1.1 entry.2

/-- `fetch_finalized_batch` on the logs of a block, the encrypted senders of its finalization and the
queue hash of its `BatchFinalized` event. -/
def fetchFinalizedBatch (logs : List (W × ReceiptLog W)) (encryptedSenders : List Bytes)
    (withdrawalQueueHash : W) : Except (FetchBatchError W) (List (Withdrawal W)) := do
  let requests := blockRequests logs
  require (encryptedSenders.length = requests.length)
    (.encryptedSenderCountMismatch encryptedSenders.length requests.length)
  let withdrawals := reconstruct requests encryptedSenders
  require (queueHash withdrawals = withdrawalQueueHash)
    (.withdrawalHashMismatch withdrawalQueueHash (queueHash withdrawals))
  pure withdrawals

/-! ## Calls of a block -/

/-- The call is made in the transaction with this hash; only requests look at it. -/
def ZoneCall.InTransaction (txHash : W) : ZoneCall W → Prop
  | .requestWithdrawal _ currentTxHash _ _ => currentTxHash = txHash
  | _ => True

/-- What happens in a block before its finalization: calls of any accounts to the zone precompiles,
and logs of other contracts. Each log stands with the hash of its transaction. -/
inductive BlockCalls (ctx : ZoneCtx W) (z : Zone W) : List (W × ReceiptLog W) → Zone W → Prop
  | start : BlockCalls ctx z [] z
  | call {logs : List (W × ReceiptLog W)} {z₁ z₂ : Zone W} {txHash : W} {caller : Address}
      {call : ZoneCall W} (before : BlockCalls ctx z logs z₁) (within : call.InTransaction txHash)
      (unfinalized : call.method ≠ .finalizeWithdrawalBatch)
      (run : zoneExec ctx caller z₁ call = .ok z₂) :
      BlockCalls ctx z
        (logs ++ (z₂.logs.drop z₁.logs.length).map fun e => (txHash, ReceiptLog.ofEvent e)) z₂
  | foreign {logs : List (W × ReceiptLog W)} {z₁ : Zone W} {txHash : W} {log : ReceiptLog W}
      (before : BlockCalls ctx z logs z₁) (other : log.address ≠ ZONE_OUTBOX_ADDRESS) :
      BlockCalls ctx z (logs ++ [(txHash, log)]) z₁

/-! ## Calls log what they leave pending -/

def ZoneEvent.pending? : ZoneEvent W → Option (PendingWithdrawal W)
  | .withdrawalRequested _ pending _ => some pending
  | _ => none

/-- A withdrawal whose sender tag can be recomputed in the given transaction. -/
def PendingWithdrawal.TaggedIn (txHash : W) (p : PendingWithdrawal W) : Prop :=
  p.txHash = txHash ∨ (p.sender = 0 ∧ p.fallbackNonce = 0)

def LogsRequests (txHash : W) (z z' : Zone W) : Prop :=
  ∃ new, z'.logs = z.logs ++ new ∧
    z'.outbox.pendingWithdrawals =
      z.outbox.pendingWithdrawals ++ new.filterMap ZoneEvent.pending? ∧
    ∀ p ∈ new.filterMap ZoneEvent.pending?, p.TaggedIn txHash

namespace LogsRequests

variable {txHash : W} {z z₁ z' : Zone W}

theorem trans (h₁ : LogsRequests txHash z z₁) (h₂ : LogsRequests txHash z₁ z') : LogsRequests txHash z z' := by
  obtain ⟨new₁, hlogs₁, hpending₁, htagged₁⟩ := h₁
  obtain ⟨new₂, hlogs₂, hpending₂, htagged₂⟩ := h₂
  refine ⟨new₁ ++ new₂, by rw [hlogs₂, hlogs₁, append_assoc], ?_, ?_⟩
  · rw [hpending₂, hpending₁, filterMap_append, append_assoc]
  intro p hp
  rw [filterMap_append, mem_append] at hp
  exact hp.elim (htagged₁ p) (htagged₂ p)

theorem of_quiet {new : List (ZoneEvent W)} (hlogs : z'.logs = z.logs ++ new)
    (hquiet : ∀ e ∈ new, e.pending? = none)
    (hpending : z'.outbox.pendingWithdrawals = z.outbox.pendingWithdrawals) :
    LogsRequests txHash z z' := by
  have hnone : new.filterMap ZoneEvent.pending? = [] := filterMap_eq_nil_iff.2 hquiet
  refine ⟨new, hlogs, ?_, ?_⟩
  · rw [hnone, append_nil, hpending]
  intro p hp
  rw [hnone] at hp
  cases hp

theorem of_eq (hlogs : z'.logs = z.logs)
    (hpending : z'.outbox.pendingWithdrawals = z.outbox.pendingWithdrawals) : LogsRequests txHash z z' :=
  .of_quiet (hlogs.trans (append_nil _).symm) nofun hpending

theorem of_log {e : ZoneEvent W} (hlogs : z'.logs = z.logs ++ [e]) (hquiet : e.pending? = none)
    (hpending : z'.outbox.pendingWithdrawals = z.outbox.pendingWithdrawals) :
    LogsRequests txHash z z' :=
  .of_quiet hlogs (fun e' he' => by rw [mem_singleton.1 he', hquiet]) hpending

theorem of_request {index fee : ℕ} {pending : PendingWithdrawal W}
    (hlogs : z'.logs = z.logs ++ [.withdrawalRequested index pending fee])
    (hpending : z'.outbox.pendingWithdrawals = z.outbox.pendingWithdrawals ++ [pending])
    (htagged : pending.TaggedIn txHash) : LogsRequests txHash z z' := by
  refine ⟨_, hlogs, hpending, ?_⟩
  intro p hp
  rwa [mem_singleton.1 hp]

end LogsRequests

section Calls

variable {ctx : ZoneCtx W} {txHash : W} {z z' : Zone W}

theorem finalizeCheckpoints_logged {headers : List Bytes}
    (h : z.finalizeCheckpoints ctx headers = .ok z') : LogsRequests txHash z z' := by
  simp only [finalizeCheckpoints, ok_iff] at h
  obtain ⟨-, -, -, -, ⟨hash, number, last⟩, -, -, -, -, -, rfl⟩ := h
  exact .of_log rfl rfl rfl

theorem enableTokens_logged {enables : ℕ → Bool} {tokens : List EnabledToken} :
    ∀ {i : ℕ} {z : Zone W}, enableTokens enables i tokens z = .ok z' → LogsRequests txHash z z' := by
  induction tokens with
  | nil =>
    intro i z h
    cases pure_ok_iff.1 h
    exact .of_eq rfl rfl
  | cons token rest ih =>
    intro i z h
    simp only [enableTokens, ok_iff] at h
    obtain ⟨-, -, h⟩ := h
    refine LogsRequests.trans ?_ (ih h)
    exact .of_log rfl rfl rfl

theorem advanceTokens_logged {tokens : List EnabledToken} {enables : ℕ → Bool}
    (h : z.advanceTokens ctx tokens enables = .ok z') : LogsRequests txHash z z' := by
  simp only [advanceTokens, ok_iff] at h
  obtain ⟨portalCount, -, z₁, henable, count, -, rfl⟩ := h
  exact (enableTokens_logged henable).trans (.of_eq rfl rfl)

theorem tryMint_logged {token : Address} {amount : ℕ} {ok : Bool}
    (h : z.tryMint reply token amount = .ok (ok, z')) : LogsRequests txHash z z' := by
  rcases tryMint_ok h with ⟨-, rfl⟩ | ⟨-, rfl⟩
  · exact .of_eq rfl rfl
  · exact .of_eq rfl rfl

theorem enqueueDepositBounceBack_logged {token recipient : Address} {amount : ℕ}
    (h : z.enqueueDepositBounceBack caller token amount recipient = .ok z') :
    LogsRequests txHash z z' := by
  simp only [enqueueDepositBounceBack, ok_iff] at h
  obtain ⟨-, -, h⟩ := h
  rw [enqueue_ok h]
  exact .of_request rfl rfl (.inr ⟨rfl, rfl⟩)

theorem failDeposit_logged {hash : W} {d : Deposit W} (h : z.failDeposit hash d = .ok z') :
    LogsRequests txHash z z' := by
  simp only [failDeposit, ok_iff] at h
  obtain ⟨z₁, henqueue, rfl⟩ := h
  exact (enqueueDepositBounceBack_logged henqueue).trans (.of_log rfl rfl rfl)

theorem processDeposit_logged {hash : W} {d : Deposit W} {decryption : DecryptionData W}
    {key : W × ℕ} (h : z.processDeposit ctx hash d decryption key reply = .ok z') :
    LogsRequests txHash z z' := by
  unfold processDeposit at h
  split at h
  · exact failDeposit_logged h
  obtain ⟨⟨ok, z₁⟩, hmint, hrest⟩ := bind_ok_iff.1 h
  have hminted : LogsRequests txHash z z₁ := tryMint_logged hmint
  cases ok with
  | true =>
    cases pure_ok_iff.1 hrest
    exact hminted.trans (.of_log rfl rfl rfl)
  | false => exact hminted.trans (failDeposit_logged hrest)

theorem consumeFallbackRecipient_logged {recipient : Address} {nonce : ℕ}
    (h : z.consumeFallbackRecipient caller nonce = .ok (recipient, z')) :
    LogsRequests txHash z z' := by
  obtain ⟨-, -, rfl⟩ := consumeFallbackRecipient_ok h
  exact .of_eq rfl rfl

theorem processWithdrawalBounceBack_logged {d : WithdrawalBounceBackDeposit}
    (h : z.processWithdrawalBounceBack d reply = .ok z') : LogsRequests txHash z z' := by
  simp only [processWithdrawalBounceBack, bind_ok_iff] at h
  obtain ⟨⟨recipient, z₁⟩, hconsume, ⟨ok, z₂⟩, hmint, h⟩ := h
  have hconsumed : LogsRequests txHash z z₁ := consumeFallbackRecipient_logged hconsume
  have hminted : LogsRequests txHash z z₂ := hconsumed.trans (tryMint_logged hmint)
  cases ok with
  | true =>
    cases pure_ok_iff.1 h
    exact hminted.trans (.of_log rfl rfl rfl)
  | false =>
    simp only [Bool.false_eq_true, if_false, ok_iff] at h
    obtain ⟨-, -, rfl⟩ := h
    exact hminted.trans (.of_log rfl rfl rfl)

theorem processQueue_logged {mints : ℕ → TryMint} {entries : List (QueueEntry W)} :
    ∀ {i : ℕ} {decryptions leftover : List (DecryptionData W)} {hash hash' : W} {z : Zone W},
      processQueue ctx mints i entries decryptions hash z = .ok (hash', leftover, z') →
      LogsRequests txHash z z' := by
  induction entries with
  | nil =>
    intro i decryptions leftover hash hash' z h
    cases pure_ok_iff.1 h
    exact .of_eq rfl rfl
  | cons entry rest ih =>
    intro i decryptions leftover hash hash' z h
    cases entry with
    | bounceBack d =>
      obtain ⟨z₁, hstep, h⟩ := bind_ok_iff.1 h
      have hprocessed : LogsRequests txHash z z₁ := processWithdrawalBounceBack_logged hstep
      have hrecorded : LogsRequests txHash z₁ (z₁.record (.bounceBack d)) := .of_eq rfl rfl
      exact (hprocessed.trans hrecorded).trans (ih h)
    | deposit d =>
      cases decryptions with
      | nil => cases h
      | cons decryption decryptions =>
        simp only [processQueue, bind_ok_iff] at h
        obtain ⟨key, -, z₁, hstep, h⟩ := h
        have hprocessed : LogsRequests txHash z z₁ := processDeposit_logged hstep
        have hrecorded : LogsRequests txHash z₁ (z₁.record (.deposit d)) := .of_eq rfl rfl
        exact (hprocessed.trans hrecorded).trans (ih h)

theorem advanceTempo_logged {call : AdvanceTempo W} {reply : AdvanceReply}
    (h : z.advanceTempo ctx caller call reply = .ok z') : LogsRequests txHash z z' := by
  simp only [advanceTempo, ok_iff] at h
  obtain ⟨-, -, entries, -, z₁, hcheckpoint, z₂, htokens, ⟨hash, leftover, z₃⟩, hqueue, -, -, h⟩ := h
  have hopened : LogsRequests txHash z z₁ := finalizeCheckpoints_logged hcheckpoint
  have hprocessed : LogsRequests txHash z z₃ :=
    (hopened.trans (advanceTokens_logged htokens)).trans (processQueue_logged hqueue)
  apply hprocessed.trans
  -- with and without a portal, the last step writes the cursor and logs the import
  split at h
  · simp only [ok_iff] at h
    obtain ⟨p, -, -, -, number, -, rfl⟩ := h
    exact .of_log rfl rfl rfl
  simp only [ok_iff] at h
  obtain ⟨number, -, rfl⟩ := h
  exact .of_log rfl rfl rfl

theorem zoneExec_logged {call : ZoneCall W} (within : call.InTransaction txHash)
    (unfinalized : call.method ≠ .finalizeWithdrawalBatch) (h : zoneExec ctx caller z call = .ok z') :
    LogsRequests txHash z z' := by
  cases call with
  | finalizeTempo headers =>
    simp only [zoneExec, applyCheckpoints, bind_ok_iff] at h
    obtain ⟨-, -, h⟩ := h
    exact finalizeCheckpoints_logged h
  | advanceTempo call reply => exact advanceTempo_logged h
  | advanceTempoHeaders headers =>
    simp only [zoneExec, advanceTempoHeaders, bind_ok_iff] at h
    obtain ⟨-, -, -, -, h⟩ := h
    exact finalizeCheckpoints_logged h
  | claimRefund token reply =>
    simp only [zoneExec, claimRefund, ok_iff] at h
    obtain ⟨⟨ok, z₁⟩, hmint, -, -, rfl⟩ := h
    exact (tryMint_logged hmint).trans (.of_log rfl rfl rfl)
  | requestWithdrawal feePayer currentTxHash call reply =>
    obtain ⟨_, _, _, -, -, -, rfl⟩ := requestWithdrawal_ok h
    exact .of_request rfl rfl (.inl within)
  | enqueueDepositBounceBack token amount recipient => exact enqueueDepositBounceBack_logged h
  | consumeFallbackRecipient nonce =>
    simp only [zoneExec, ok_iff] at h
    obtain ⟨⟨recipient, z₁⟩, hconsume, rfl⟩ := h
    exact consumeFallbackRecipient_logged hconsume
  | finalizeWithdrawalBatch count blockNumber encryptedSenders => exact absurd rfl unfinalized
  | setTempoGasRate rate =>
    simp only [zoneExec, setTempoGasRate, ok_iff] at h
    obtain ⟨-, -, p, -, -, -, rfl⟩ := h
    exact .of_log rfl rfl rfl
  | setMaxWithdrawalsPerBlock max =>
    simp only [zoneExec, setMaxWithdrawalsPerBlock, ok_iff] at h
    obtain ⟨-, -, rfl⟩ := h
    exact .of_log rfl rfl rfl

end Calls

/-! ## Blocks -/

def Announced (request : W × WithdrawalRequested W) (p : PendingWithdrawal W) : Prop :=
  (∃ index fee, request.2 = p.requestedEvent index fee) ∧ p.TaggedIn request.1

theorem withdrawalRequested_ofEvent (e : ZoneEvent W) :
    (ReceiptLog.ofEvent e).withdrawalRequested? = match e with
      | .withdrawalRequested index pending fee => some (pending.requestedEvent index fee)
      | _ => none := by
  cases e <;> rfl

theorem announced_of_tagged {txHash : W} :
    ∀ {new : List (ZoneEvent W)}, (∀ p ∈ new.filterMap ZoneEvent.pending?, p.TaggedIn txHash) →
      List.Forall₂ Announced (blockRequests (new.map fun e => (txHash, ReceiptLog.ofEvent e)))
        (new.filterMap ZoneEvent.pending?) := by
  intro new
  induction new with
  | nil => exact fun _ => .nil
  | cons e rest ih =>
    intro htagged
    simp only [blockRequests, map_cons, filterMap_cons, withdrawalRequested_ofEvent]
      at htagged ⊢
    cases e with
    | withdrawalRequested index pending fee =>
      refine .cons ⟨⟨index, fee, rfl⟩, htagged pending mem_cons_self⟩ (ih ?_)
      exact fun p hp => htagged p (mem_cons_of_mem _ hp)
    | _ => exact ih htagged

theorem blockRequests_append (a b : List (W × ReceiptLog W)) :
    blockRequests (a ++ b) = blockRequests a ++ blockRequests b := filterMap_append

theorem BlockCalls.announced {ctx : ZoneCtx W} {z z' : Zone W} {logs : List (W × ReceiptLog W)}
    (empty : z.outbox.pendingWithdrawals = []) (h : BlockCalls ctx z logs z') :
    List.Forall₂ Announced (blockRequests logs) z'.outbox.pendingWithdrawals := by
  induction h with
  | start =>
    rw [empty]
    exact .nil
  | @call logs z₁ z₂ txHash caller call _ within unfinalized run ih =>
    obtain ⟨new, hlogs, hpending, htagged⟩ := zoneExec_logged within unfinalized run
    have hdrop : z₂.logs.drop z₁.logs.length = new := by rw [hlogs, drop_left]
    rw [blockRequests_append, hpending, hdrop]
    exact rel_append ih (announced_of_tagged htagged)
  | @foreign logs z₁ txHash log _ other ih =>
    have hnone : log.withdrawalRequested? = none := if_neg other
    rw [blockRequests_append]
    simp only [blockRequests, filterMap_cons, hnone, Option.map_none, filterMap_nil, append_nil]
    exact ih

/-! ## Reconstruction -/

theorem fromRequestedEvent_eq {request : W × WithdrawalRequested W} {p : PendingWithdrawal W}
    {w : Withdrawal W} {encryptedSender : Bytes} (h : Announced request p)
    (hw : p.intoWithdrawal encryptedSender = .ok w) :
    fromRequestedEvent request.2 request.1 encryptedSender = w := by
  obtain ⟨⟨index, fee, hevent⟩, htagged⟩ := h
  simp only [PendingWithdrawal.intoWithdrawal, ok_iff] at hw
  obtain ⟨-, -, rfl⟩ := hw
  have htag : senderTagOf p.sender request.1 p.fallbackNonce =
      senderTagOf p.sender p.txHash p.fallbackNonce := by
    rcases htagged with htx | ⟨hsender, hnonce⟩
    · rw [htx]
    · -- the tag of a bounce-back is a constant
      unfold senderTagOf
      rw [if_pos ⟨hsender, hnonce⟩, if_pos ⟨hsender, hnonce⟩]
  rw [hevent]
  simp only [fromRequestedEvent, PendingWithdrawal.requestedEvent, htag]

theorem reconstruct_eq {requests : List (W × WithdrawalRequested W)}
    {pending : List (PendingWithdrawal W)} (h : List.Forall₂ Announced requests pending) :
    ∀ {encryptedSenders : List Bytes} {ws : List (Withdrawal W)} {hash : W},
      linkBatch (pending.zip encryptedSenders) = .ok (ws, hash) →
      reconstruct requests encryptedSenders = ws := by
  induction h with
  | nil =>
    intro encryptedSenders ws hash hlink
    cases pure_ok_iff.1 hlink
    rfl
  | @cons request p requests pending hfirst _ ih =>
    intro encryptedSenders ws hash hlink
    cases encryptedSenders with
    | nil =>
      -- both sides zip, so both stop at the shorter list
      cases pure_ok_iff.1 hlink
      rfl
    | cons sender senders =>
      simp only [zip_cons_cons, linkBatch, ok_iff, Prod.mk.injEq]
        at hlink
      obtain ⟨⟨rest, tail⟩, hrest, w, hw, rfl, -⟩ := hlink
      have hhead := fromRequestedEvent_eq hfirst hw
      have htail := ih hrest
      rw [reconstruct, zip_cons_cons, map_cons, hhead]
      exact congrArg (w :: ·) htail

theorem remainingQueues_queueHash (done rest : List (Withdrawal W)) :
    (remainingQueues done (queueHash rest)).2 = queueHash (done ++ rest) := by
  induction done with
  | nil => rfl
  | cons w done ih =>
    show w.hashWithTail (remainingQueues done (queueHash rest)).2 = _
    rw [ih]
    rfl

/-! ## Main result -/

/-- **Reconstruction of a batch.** Let a block start without pending withdrawals and finalize its
batch, after any calls. The withdrawals decoded from its logs are those of the batch, their hash is
the one stored and announced, and the sequencer's reconstruction accepts them. The portal recomputes
that hash for every prefix that it processes. With a collision-free hash, different lists have
different hashes, and only the empty list has the hash zero. -/
theorem finalized_batch_reconstructed {ctx : ZoneCtx W} {z z₁ z₂ : Zone W}
    {logs : List (W × ReceiptLog W)} {caller : Address} {count blockNumber : ℕ}
    {encryptedSenders : List Bytes} (empty : z.outbox.pendingWithdrawals = [])
    (calls : BlockCalls ctx z logs z₁)
    (finalize : zoneExec ctx caller z₁
      (.finalizeWithdrawalBatch count blockNumber encryptedSenders) = .ok z₂) :
    (∃ batch, z₂.history.batches = z₁.history.batches ++ [batch] ∧
      z₂.outbox.withdrawalQueueHash = batch.withdrawalQueueHash ∧
      z₂.logs = z₁.logs ++
        [.batchFinalized batch.withdrawalQueueHash batch.withdrawalBatchIndex] ∧
      reconstruct (blockRequests logs) encryptedSenders = batch.withdrawals ∧
      queueHash batch.withdrawals = batch.withdrawalQueueHash ∧
      fetchFinalizedBatch logs encryptedSenders batch.withdrawalQueueHash =
        .ok batch.withdrawals ∧
      ∀ done rest, batch.withdrawals = done ++ rest →
        (remainingQueues done (queueHash rest)).2 = batch.withdrawalQueueHash) ∧
    (CollisionFree W →
      (∀ ws ws' : List (Withdrawal W), ws ≠ ws' →
        queueHash ws ≠ queueHash ws') ∧
      ∀ ws : List (Withdrawal W), queueHash ws = 0 ↔ ws = []) := by
  refine ⟨?_, ?_⟩
  · have hannounced := calls.announced empty
    simp only [zoneExec, finalizeWithdrawalBatch, ok_iff]
      at finalize
    obtain ⟨-, -, -, -, -, -, -, hsenders, ⟨ws, hash⟩, hlink, -, -, rfl⟩ := finalize
    obtain ⟨rfl, -⟩ := linkBatch_ok hlink
    have hreconstruct := reconstruct_eq hannounced hlink
    refine ⟨_, rfl, rfl, rfl, hreconstruct, rfl, ?_, ?_⟩
    · simp only [fetchFinalizedBatch, ok_iff, hreconstruct]
      exact ⟨(), by rw [hsenders, hannounced.length_eq], (), trivial, trivial⟩
    · intro done rest hsplit
      rw [remainingQueues_queueHash, ← hsplit]
  · intro hc
    have hbinding := withdrawal_binding hc
    exact ⟨fun ws ws' hne heq => hne (hbinding.suffixChain_injective heq),
      fun ws => hbinding.suffixChain_eq_sentinel⟩

namespace Example

theorem blockCalls : ∃ logs, BlockCalls zoneCtx genesis logs zoneRequested := by
  have hopening : ZoneCall.InTransaction (Sym.num 10) (.advanceTempo firstImport firstReplies) :=
    trivial
  have hrequest : ZoneCall.InTransaction (Sym.num 11)
      (.requestWithdrawal 20 (.num 11) request burnReply) := rfl
  have hopened := BlockCalls.call .start hopening nofun imports
  exact ⟨_, hopened.call hrequest nofun requests⟩

end Example

theorem finalized_batch_reconstructed_example :
    ∃ logs batch, BlockCalls Example.zoneCtx Example.genesis logs Example.zoneRequested ∧
      Example.zoneFinalized.history.batches = Example.zoneRequested.history.batches ++ [batch] ∧
      fetchFinalizedBatch logs [[]] batch.withdrawalQueueHash = .ok batch.withdrawals := by
  obtain ⟨logs, hcalls⟩ := Example.blockCalls
  obtain ⟨⟨batch, hbatch, -, -, -, -, hfetch, -⟩, -⟩ :=
    finalized_batch_reconstructed rfl hcalls Example.finalizes
  exact ⟨logs, batch, hcalls, hbatch, hfetch⟩

end TempoZones
