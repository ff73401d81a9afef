import TempoZones.Lib.ChainFifo
import TempoZones.System.Model

/-!
# Settlement of the zone's batches

The zone numbers its batches and commits to each by the hash chain of its withdrawals (`Batched`).
With a collision-free hash and a sound verifier the portal settles them in order: its queue slots
represent the queue of lists into which the zone's batches are pushed and from which withdrawals are
popped (`Settles`), in the current state and in every recorded block (`Trace.settles`).
-/

namespace TempoZones

open Lib List Withdrawal

variable {W : Type} [EvmWord W] [DecidableEq W] {content : List (List (Withdrawal W))}

/-! ## Batches of the zone -/

/-- Batches are numbered from one and committed to by the chain of their withdrawals. -/
structure Batched (z : Zone W) : Prop where
  index_eq : z.outbox.withdrawalBatchIndex = z.history.batches.length
  batch : ∀ {i : ℕ} {b : FinalizedBatch W}, z.history.batches[i]? = some b →
    b.withdrawalBatchIndex = i + 1 ∧ b.withdrawalQueueHash = queueHash b.withdrawals

theorem getElem?_concat_eq_some {α : Type} {l : List α} {a b : α} {i : ℕ}
    (h : (l ++ [a])[i]? = some b) : l[i]? = some b ∨ (i = l.length ∧ b = a) := by
  rw [List.getElem?_append] at h
  split at h
  · exact .inl h
  rw [List.getElem?_singleton] at h
  split at h
  · exact .inr ⟨by omega, (Option.some.inj h).symm⟩
  · cases h

section Zone

variable {zctx : ZoneCtx W} {z z' : Zone W} {entries : List (QueueEntry W)}
  {tokens : List EnabledToken}

theorem Advanced.batches_eq (h : Advanced zctx z entries tokens z') :
    z'.history.batches = z.history.batches ∧
      z'.outbox.withdrawalBatchIndex = z.outbox.withdrawalBatchIndex := by
  cases h with
  | mk _ _ _ _ path _ _ =>
    have hbatches := path.keeps (f := fun z => z.history.batches)
      (fun step => by cases step <;> rfl)
    have hindex := path.keeps (f := fun z => z.outbox.withdrawalBatchIndex)
      (fun step => by cases step <;> rfl)
    exact ⟨hbatches, hindex⟩

theorem ZoneStep.batched (h : ZoneStep zctx z z') (hz : Batched z) : Batched z' := by
  cases h with
  | advanced step =>
    obtain ⟨hbatches, hindex⟩ := step.batches_eq
    refine ⟨by rw [hbatches, hindex, hz.index_eq], ?_⟩
    intro i b hb
    rw [hbatches] at hb
    exact hz.batch hb
  | @finalized block withdrawals _ _ =>
    constructor
    · show z.outbox.withdrawalBatchIndex + 1 = (z.history.batches ++ [_]).length
      rw [hz.index_eq, length_append]
      rfl
    · intro i b hb
      rcases getElem?_concat_eq_some hb with hb | ⟨rfl, rfl⟩
      · exact hz.batch hb
      · exact ⟨congrArg (· + 1) hz.index_eq, rfl⟩
  | _ => exact ⟨hz.index_eq, hz.batch⟩

theorem ZoneStep.batches_prefix (h : ZoneStep zctx z z') :
    z.history.batches <+: z'.history.batches := by
  cases h with
  | advanced step => exact step.batches_eq.1 ▸ prefix_rfl
  | finalized _ _ => exact prefix_append _ _
  | _ => exact prefix_rfl

end Zone

/-! ## Steps of the queue -/

/-- Effects of a step on the withdrawal queue, the batch index and the history of both. -/
inductive QueueStep (ctx : CallCtx W) (s s' : L1 W) : Prop
  | kept (queue : s'.portal.withdrawalQueue = s.portal.withdrawalQueue)
      (index : s'.portal.batches = s.portal.batches)
      (dequeued : s'.history.dequeued = s.history.dequeued)
      (accepted : s'.history.accepted = s.history.accepted)
  | settled {sender : Address} {call : SubmitBatch W} {anchorBlockNumber : ℕ} {anchorBlockHash : W}
      (accepted : Accepted ctx sender s.portal call anchorBlockNumber anchorBlockHash)
      (result : s' = s.settle ctx call anchorBlockNumber anchorBlockHash)
  | dequeued {w : Withdrawal W} {remainingQueue : W}
      (dequeue : s.portal.withdrawalQueue.dequeue w remainingQueue = .ok s'.portal.withdrawalQueue)
      (index : s'.portal.batches = s.portal.batches)
      (dequeued : s'.history.dequeued = s.history.dequeued ++ [w])
      (accepted : s'.history.accepted = s.history.accepted)

section Portal

variable {ctx : CallCtx W} {s s' : L1 W}

theorem CallStep.queueStep (h : CallStep ctx s s') : QueueStep ctx s s' := by
  cases h with
  | deposit _ collected _ =>
    obtain ⟨hportal, -, hdequeued, haccepted⟩ := collected.frame
    exact .kept (congrArg (·.withdrawalQueue) hportal) (congrArg (·.batches) hportal) hdequeued
      haccepted
  | submitBatch accepted => exact .settled accepted rfl
  | _ => exact .kept rfl rfl rfl rfl

theorem Micro.queueStep (h : Micro ctx s s') : QueueStep ctx s s' := by
  cases h with
  | call step => exact step.queueStep
  | withdraw _ dequeue disposed =>
    cases disposed with
    | refunded _ refund =>
      obtain ⟨⟨refunds, hportal⟩, -, hdequeued, haccepted⟩ := refund.frame
      have hqueue := congrArg (·.withdrawalQueue) hportal
      exact .dequeued (dequeue.trans (congrArg Except.ok hqueue.symm))
        (congrArg (·.batches) hportal) hdequeued haccepted
    | _ => exact .dequeued dequeue rfl rfl rfl
  | outside move =>
    exact .kept (congrArg (·.withdrawalQueue) move.portal_eq)
      (congrArg (·.batches) move.portal_eq) move.dequeued_eq move.accepted_eq
  | _ => exact .kept rfl rfl rfl rfl

end Portal

/-! ## Refinement -/

/-- Withdrawals of the batches settled in `s`, batch by batch. -/
def settledBatches (batches : List (FinalizedBatch W)) (s : L1 W) : List (List (Withdrawal W)) :=
  (batches.take s.portal.batches.withdrawalBatchIndex).map (·.withdrawals)

/-- The queue holds `content`, one slot for each batch. -/
def WithdrawalQueue.Holds (q : WithdrawalQueue W) (content : List (List (Withdrawal W))) : Prop :=
  Represents hashWithTail 0 q.head q.tail q.slots content

/-- The portal has settled the first batches of the zone, and its queue refines the queue of lists
into which they were pushed. -/
structure Settles (batches : List (FinalizedBatch W)) (s : L1 W) : Prop where
  index_le : s.portal.batches.withdrawalBatchIndex ≤ batches.length
  submitted : s.history.accepted.map (·.call.withdrawalQueueHash) =
    (settledBatches batches s).map queueHash
  queue : ∃ content, FifoRun (settledBatches batches s) s.history.dequeued content ∧
    s.portal.withdrawalQueue.Holds content

section Settles

variable {ctx : CallCtx W} {batches : List (FinalizedBatch W)} {s s' : L1 W}

theorem Settles.of_eq (hs : Settles batches s)
    (queue : s'.portal.withdrawalQueue = s.portal.withdrawalQueue)
    (index : s'.portal.batches = s.portal.batches)
    (dequeued : s'.history.dequeued = s.history.dequeued)
    (accepted : s'.history.accepted = s.history.accepted) : Settles batches s' := by
  have hsettled : settledBatches batches s' = settledBatches batches s := by
    rw [settledBatches, index]
    rfl
  refine ⟨index ▸ hs.index_le, ?_, ?_⟩
  · rw [accepted, hsettled, hs.submitted]
  · rw [hsettled, dequeued, queue]
    exact hs.queue

theorem Settles.mono {batches' : List (FinalizedBatch W)} (hs : Settles batches s)
    (h : batches <+: batches') : Settles batches' s := by
  obtain ⟨more, rfl⟩ := h
  have hsettled : settledBatches (batches ++ more) s = settledBatches batches s := by
    rw [settledBatches, take_append_of_le_length hs.index_le]
    rfl
  refine ⟨hs.index_le.trans ?_, ?_, ?_⟩
  · rw [length_append]
    exact Nat.le_add_right _ _
  · rw [hsettled, hs.submitted]
  · rw [hsettled]
    exact hs.queue

theorem WithdrawalQueue.Holds.enqueue (hc : CollisionFree W) {q : WithdrawalQueue W}
    (hq : q.Holds content) (batch : List (Withdrawal W)) :
    (q.enqueue (queueHash batch)).1.Holds (pushBatch content batch) := by
  have hzero : queueHash batch = 0 ↔ batch = [] := (withdrawal_binding hc).suffixChain_eq_sentinel
  cases batch with
  | nil => rwa [WithdrawalQueue.enqueue, if_pos (hzero.2 rfl)]
  | cons w ws =>
    have hne : w :: ws ≠ [] := cons_ne_nil _ _
    rw [WithdrawalQueue.enqueue, if_neg (mt hzero.1 hne)]
    exact hq.push hne

theorem WithdrawalQueue.Holds.dequeue (hc : CollisionFree W) {q q' : WithdrawalQueue W}
    (hq : q.Holds content) {w : Withdrawal W} {remainingQueue : W}
    (h : q.dequeue w remainingQueue = .ok q') :
    ∃ rest others, content = (w :: rest) :: others ∧ q'.Holds (popFront rest others) := by
  have hb := withdrawal_binding hc
  simp only [WithdrawalQueue.dequeue, ok_iff] at h
  obtain ⟨-, hfront, rfl⟩ := h
  obtain ⟨rest, others, rfl, rfl⟩ := (Represents.front_iff hb hq (cons_ne_nil w [])).1 hfront
  exact ⟨rest, others, rfl, Represents.pop hb hq⟩

theorem Accepted.next_batch {z : Zone W} {sender : Address} {call : SubmitBatch W} {n : ℕ}
    {hash : W} (hz : Batched z) (sound : VerifierSound z ctx.ext)
    (h : Accepted ctx sender s.portal call n hash) :
    ∃ b, z.history.batches[s.portal.batches.withdrawalBatchIndex]? = some b ∧
      call.withdrawalQueueHash = queueHash b.withdrawals ∧
      Attests b (s.portal.verifyCall call n hash) := by
  obtain ⟨b, hmem, hattests⟩ := sound _ h.proven
  obtain ⟨i, hb⟩ := mem_iff_getElem?.1 hmem
  obtain ⟨hindex, hhash⟩ := hz.batch hb
  have hi : s.portal.batches.withdrawalBatchIndex = i := Nat.succ.inj (hattests.index.trans hindex)
  exact ⟨b, hi ▸ hb, hattests.withdrawals.trans hhash, hattests⟩

theorem Settles.step (hc : CollisionFree W) {z : Zone W} (hz : Batched z)
    (sound : VerifierSound z ctx.ext) (hs : Settles z.history.batches s)
    (h : QueueStep ctx s s') : Settles z.history.batches s' := by
  cases h with
  | kept queue index dequeued accepted => exact hs.of_eq queue index dequeued accepted
  | @settled sender call n hash accepted result =>
    obtain ⟨b, hb, hhash, -⟩ := accepted.next_batch hz sound
    obtain ⟨content, hrun, hholds⟩ := hs.queue
    have hsettled : settledBatches z.history.batches s' =
        settledBatches z.history.batches s ++ [b.withdrawals] := by
      subst result
      show (z.history.batches.take (s.portal.batches.withdrawalBatchIndex + 1)).map _ = _
      rw [take_add_one, hb, map_append]
      rfl
    refine ⟨?_, ?_, pushBatch content b.withdrawals, ?_, ?_⟩
    · subst result
      exact (List.getElem?_eq_some_iff.1 hb).1
    · rw [hsettled, map_append, ← hs.submitted, result]
      show (s.history.accepted ++ [_]).map _ = _
      rw [map_append, map_singleton, map_singleton, ← hhash]
    · rw [hsettled, result]
      exact hrun.push b.withdrawals
    rw [result]
    show (s.portal.withdrawalQueue.enqueue call.withdrawalQueueHash).1.Holds _
    rw [hhash]
    exact hholds.enqueue hc b.withdrawals
  | dequeued dequeue index dequeued accepted =>
    obtain ⟨content, hrun, hholds⟩ := hs.queue
    obtain ⟨rest, others, rfl, hholds'⟩ := hholds.dequeue hc dequeue
    have hsettled : settledBatches z.history.batches s' = settledBatches z.history.batches s := by
      rw [settledBatches, index]
      rfl
    refine ⟨index ▸ hs.index_le, ?_, popFront rest others, ?_, hholds'⟩
    · rw [hsettled, accepted, hs.submitted]
    · rw [hsettled, dequeued]
      exact hrun.pop

end Settles

/-! ## Runs -/

section Run

variable {π : Platform W} {σ : Sys W}

theorem Trace.batched (h : Trace π σ) : Batched σ.zone :=
  h.zonewise (fun _ _ => ⟨rfl, nofun⟩) fun hz hstep => hstep.batched hz

theorem settles_of_empty {s : L1 W} {batches : List (FinalizedBatch W)}
    (queue : s.portal.withdrawalQueue = (Portal.empty : Portal W).withdrawalQueue)
    (index : s.portal.batches = (Portal.empty : Portal W).batches)
    (dequeued : s.history.dequeued = []) (accepted : s.history.accepted = []) :
    Settles batches s := by
  have hsettled : settledBatches batches s = [] := by
    rw [settledBatches, index]
    rfl
  refine ⟨index ▸ Nat.zero_le _, ?_, [], ?_, ?_⟩
  · rw [hsettled, accepted]
    rfl
  · rw [hsettled, dequeued]
    exact .empty
  · rw [queue]
    exact .empty _ _ 0

/-- In every state of a run the portal, and every recorded block, has settled a prefix of the zone's
batches into a queue of lists. -/
theorem Trace.settles (hc : CollisionFree W) (hsound : π.Sound) (h : Trace π σ) :
    Settles σ.zone.history.batches σ.l1 ∧ ∀ s ∈ σ.blocks, Settles σ.zone.history.batches s :=
  h.zoneBlockwise (R := fun z => Settles z.history.batches)
    (fun _ _ => settles_of_empty rfl rfl rfl rfl)
    (fun hinit => settles_of_empty hinit.withdrawalQueue hinit.batches hinit.dequeued hinit.accepted)
    (fun before admissible hs step =>
      hs.step hc before.batched (hsound admissible.proofs) step.queueStep)
    fun step hs => hs.mono step.batches_prefix

end Run

end TempoZones
