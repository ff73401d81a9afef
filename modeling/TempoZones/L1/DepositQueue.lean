import Mathlib.Data.List.Chain
import TempoZones.Sequencer.PortalWork

/-!
# The queue of finalized Tempo blocks

`DepositQueue` holds the finalized blocks not imported yet, the portal work that checkpoint-only
zone blocks have crossed, and the last block enqueued. The subscriber appends blocks
(`tryEnqueueSealed`), the leader takes the work of a full block or crosses blocks, and a follower
mirrors canonical zone blocks. A call returns its result together with the queue it leaves behind:
failing enqueues and confirmations leave the queue as it was (`tryEnqueue_error`, `confirm_error`).
-/

namespace TempoZones

open Lib List

variable {W : Type} [EvmWord W] [DecidableEq W] {expected : NumHash W}

/-- A finalized block with the hash of its parent. -/
structure SealedL1Block (W : Type) extends L1BlockDeposits W where
  parentHash : W

namespace SealedL1Block

def number (b : SealedL1Block W) : ℕ := b.header.number

def Follows (a b : SealedL1Block W) : Prop :=
  b.number = a.number + 1 ∧ b.parentHash = a.header.hash

end SealedL1Block

inductive QueueError (W : Type) where
  | outOfOrder (number last : ℕ)
  | conflictingBlock (number : ℕ) (existing received : W)
  | numberOverflow
  | nonContiguous (expected received : ℕ)
  | parentMismatch (number : ℕ) (expected received : W)
  | confirmEmpty
  | confirmMismatch (expected front : NumHash W)
  | consumedHash (number : ℕ) (hash consumed : W)
  | deferredHash (number : ℕ) (hash consumed : W)
  | nonemptyQueue
  | emptyRange
  | recoveredRange (last checkpoint : NumHash W)
  deriving DecidableEq

/-- `PendingDeposits` with its last enqueued block. -/
structure DepositQueue (W : Type) where
  pending : List (SealedL1Block W)
  deferred : Option (DeferredPortalWork W)
  lastEnqueued : Option (NumHash W)

namespace DepositQueue

def new : DepositQueue W := ⟨[], none, none⟩

/-- The pending blocks and the deferred work, without the bookkeeping of the subscriber. -/
def toPending (q : DepositQueue W) : PendingDeposits W :=
  ⟨q.pending.map (·.toL1BlockDeposits), q.deferred⟩

/-- The append at the end of `try_enqueue`. -/
def push (q : DepositQueue W) (block : SealedL1Block W) : DepositQueue W :=
  { q with pending := q.pending ++ [block], lastEnqueued := some block.header }

def tryEnqueue (q : DepositQueue W) (block : SealedL1Block W) :
    Except (QueueError W) Bool × DepositQueue W :=
  match q.lastEnqueued with
  | none => (.ok true, q.push block)
  | some last =>
    if block.number < last.number then (.error (.outOfOrder block.number last.number), q)
    else if block.number = last.number then
      if block.header.hash = last.hash then (.ok false, q)
      else (.error (.conflictingBlock block.number last.hash block.header.hash), q)
    else
      match checkedAddU64 last.number 1 with
      | none => (.error .numberOverflow, q)
      | some expected =>
        if block.number ≠ expected then (.error (.nonContiguous expected block.number), q)
        else if block.parentHash ≠ last.hash then
          (.error (.parentMismatch block.number last.hash block.parentHash), q)
        else (.ok true, q.push block)

/-- `DepositQueue::try_enqueue_sealed`: a block that is still queued is recognised by its height. -/
def tryEnqueueSealed (q : DepositQueue W) (block : SealedL1Block W) :
    Except (QueueError W) Bool × DepositQueue W :=
  match q.pending.find? fun queued => decide (queued.number = block.number) with
  | some queued =>
    if queued.header.hash = block.header.hash then (.ok false, q)
    else (.error (.conflictingBlock block.number queued.header.hash block.header.hash), q)
  | none => q.tryEnqueue block

def confirm (q : DepositQueue W) (expected : NumHash W) :
    Except (QueueError W) (SealedL1Block W) × DepositQueue W :=
  match q.pending with
  | [] => (.error .confirmEmpty, q)
  | front :: rest =>
    if front.header = expected then (.ok front, { q with pending := rest })
    else (.error (.confirmMismatch expected front.header), q)

def deferBlock (deferred : Option (DeferredPortalWork W)) (block : SealedL1Block W) :
    Option (DeferredPortalWork W) :=
  some (deferred.elim (.new block.toL1BlockDeposits) (·.push block.toL1BlockDeposits))

/-- Loop of `defer_through` with `defer_front`. -/
def deferLoop (expected : NumHash W) :
    List (SealedL1Block W) → Option (DeferredPortalWork W) →
      Except (QueueError W) Unit × List (SealedL1Block W) × Option (DeferredPortalWork W)
  | [], deferred => (.ok (), [], deferred)
  | front :: rest, deferred =>
    if front.number ≤ expected.number then
      if front.number < expected.number ∨ front.header.hash = expected.hash then
        deferLoop expected rest (deferBlock deferred front)
      else
        (.error (.consumedHash front.number front.header.hash expected.hash), front :: rest,
          deferred)
    else (.ok (), front :: rest, deferred)

/-- Final check of `defer_through` on the deferred work. -/
def checkDeferred (expected : NumHash W) :
    Option (DeferredPortalWork W) → Except (QueueError W) Unit
  | none => .ok ()
  | some work =>
    if work.lastHeader.number = expected.number then
      require (work.lastHeader.hash = expected.hash)
        (QueueError.deferredHash expected.number work.lastHeader.hash expected.hash)
    else .ok ()

def deferThrough (q : DepositQueue W) (expected : NumHash W) :
    Except (QueueError W) Unit × DepositQueue W :=
  match deferLoop expected q.pending q.deferred with
  | (.error e, pending, deferred) => (.error e, { q with pending := pending, deferred := deferred })
  | (.ok _, pending, deferred) =>
    (checkDeferred expected deferred, { q with pending := pending, deferred := deferred })

def operationalWork (q : DepositQueue W) (expected : NumHash W) :
    Except PrepareError (List (L1BlockDeposits W)) :=
  q.toPending.operationalWork expected

def confirmOperational (q : DepositQueue W) (expected : NumHash W) :
    Except (QueueError W) Unit × DepositQueue W :=
  match q.confirm expected with
  | (.error e, q') => (.error e, q')
  | (.ok _, q') => (.ok (), { q' with deferred := none })

/-- Loop of `confirm_operational_through`. -/
def confirmLoop (expected : NumHash W) :
    List (SealedL1Block W) → Except (QueueError W) Unit × List (SealedL1Block W)
  | [] => (.ok (), [])
  | front :: rest =>
    if expected.number < front.number then (.ok (), front :: rest)
    else if front.number < expected.number ∨ front.header.hash = expected.hash then
      confirmLoop expected rest
    else (.error (.consumedHash front.number front.header.hash expected.hash), front :: rest)

/-- Deferred work after a full block: only work at or before its anchor is released. -/
def releaseDeferred (expected : NumHash W) (deferred : Option (DeferredPortalWork W)) :
    Option (DeferredPortalWork W) :=
  deferred.filter fun work => decide (expected.number < work.lastHeader.number)

def confirmOperationalThrough (q : DepositQueue W) (expected : NumHash W) :
    Except (QueueError W) Unit × DepositQueue W :=
  match confirmLoop expected q.pending with
  | (.error e, pending) => (.error e, { q with pending := pending })
  | (.ok _, pending) =>
    (.ok (), { q with pending := pending, deferred := releaseDeferred expected q.deferred })

def restoreDeferred (q : DepositQueue W) (work : DeferredPortalWork W) :
    Except (QueueError W) Unit × DepositQueue W :=
  if q.pending.isEmpty ∧ q.deferred.isNone ∧ q.lastEnqueued.isNone then
    (.ok (), { q with lastEnqueued := some work.lastHeader, deferred := some work })
  else (.error .nonemptyQueue, q)

/-- `recover_deferred_work` on the blocks fetched for the range from `start` through the checkpoint.
The source expects the range to hold a block. -/
def recoverDeferredWork (q : DepositQueue W) (start : ℕ) (checkpoint : NumHash W)
    (fetched : List (SealedL1Block W)) : Except (QueueError W) Unit × DepositQueue W :=
  if q.lastEnqueued.isSome then (.ok (), q)
  else if checkpoint.number < start then (.ok (), q)
  else
    match fetched.foldl deferBlock none with
    | none => (.error .emptyRange, q)
    | some work =>
      if work.lastHeader ≠ checkpoint then
        (.error (.recoveredRange work.lastHeader checkpoint), q)
      else q.restoreDeferred work

/-! ## Loops on increasing heights -/

theorem deferLoop_of_later {blocks : List (SealedL1Block W)}
    (h : ∀ b ∈ blocks, expected.number < b.number) (deferred : Option (DeferredPortalWork W)) :
    deferLoop expected blocks deferred = (.ok (), blocks, deferred) := by
  cases blocks with
  | nil => rfl
  | cons front rest => rw [deferLoop, if_neg (Nat.not_le.2 (h front mem_cons_self))]

theorem deferLoop_through {before later : List (SealedL1Block W)} {b : SealedL1Block W}
    (hbefore : ∀ x ∈ before, x.number < b.number) (hlater : ∀ x ∈ later, b.number < x.number)
    (deferred : Option (DeferredPortalWork W)) :
    deferLoop b.header (before ++ b :: later) deferred =
      (.ok (), later, (before ++ [b]).foldl deferBlock deferred) := by
  induction before generalizing deferred with
  | nil =>
    have hreached : b.number ≤ b.header.number := le_rfl
    rw [nil_append, deferLoop, if_pos hreached, if_pos (.inr rfl), deferLoop_of_later hlater]
    rfl
  | cons front rest ih =>
    have hfront : front.number < b.header.number := hbefore front mem_cons_self
    rw [cons_append, deferLoop, if_pos hfront.le, if_pos (.inl hfront),
      ih fun x hx => hbefore x (mem_cons_of_mem _ hx)]
    rfl

theorem confirmLoop_of_later {blocks : List (SealedL1Block W)}
    (h : ∀ b ∈ blocks, expected.number < b.number) :
    confirmLoop expected blocks = (.ok (), blocks) := by
  cases blocks with
  | nil => rfl
  | cons front rest => rw [confirmLoop, if_pos (h front mem_cons_self)]

theorem confirmLoop_front {b : SealedL1Block W} {later : List (SealedL1Block W)}
    (hlater : ∀ x ∈ later, b.number < x.number) :
    confirmLoop b.header (b :: later) = (.ok (), later) := by
  have hself : ¬ b.header.number < b.number := Nat.lt_irrefl _
  rw [confirmLoop, if_neg hself, if_pos (.inr rfl), confirmLoop_of_later hlater]

/-! ## Deferred work -/

theorem deferBlock_lastHeader (deferred : Option (DeferredPortalWork W)) (b : SealedL1Block W) :
    ∃ work, deferBlock deferred b = some work ∧ work.lastHeader = b.header := by
  refine ⟨_, rfl, ?_⟩
  cases deferred with
  | none
  | some work =>
    show (DeferredPortalWork.pushEvents _ _).lastHeader = _
    unfold DeferredPortalWork.pushEvents
    split <;> rfl

theorem foldl_deferBlock_concat (deferred : Option (DeferredPortalWork W))
    (blocks : List (SealedL1Block W)) (b : SealedL1Block W) :
    ∃ work, (blocks ++ [b]).foldl deferBlock deferred = some work ∧ work.lastHeader = b.header := by
  rw [foldl_append]
  exact deferBlock_lastHeader _ b

def owedBy (deferred : Option (DeferredPortalWork W)) : L1PortalEvents W :=
  PendingDeposits.owed ⟨[], deferred⟩

theorem owedBy_foldl_deferBlock (blocks : List (SealedL1Block W)) :
    owedBy (blocks.foldl deferBlock none) =
      ⟨blocks.flatMap (·.events.deposits), blocks.flatMap (·.events.enabledTokens)⟩ := by
  induction blocks using List.reverseRecOn with
  | nil => rfl
  | append_singleton blocks b ih =>
    have hstep : owedBy (deferBlock (blocks.foldl deferBlock none) b) =
        (owedBy (blocks.foldl deferBlock none)).extendOperational b.events :=
      PendingDeposits.deferFront_owed b.toL1BlockDeposits [] _
    rw [foldl_append, foldl_cons, foldl_nil, hstep, ih]
    simp [L1PortalEvents.extendOperational]

/-! ## Failing calls -/

theorem tryEnqueue_error {q : DepositQueue W} {block : SealedL1Block W} {e : QueueError W}
    (h : (q.tryEnqueue block).1 = .error e) : (q.tryEnqueue block).2 = q := by
  unfold tryEnqueue at h ⊢
  cases hlast : q.lastEnqueued with
  | none =>
    rw [hlast] at h
    cases h
  | some last =>
    simp only [hlast] at h ⊢
    split
    · rfl
    · next hnewer =>
      rw [if_neg hnewer] at h
      split
      · split <;> rfl
      · next hother =>
        rw [if_neg hother] at h
        split
        · rfl
        · next expected hexpected =>
          simp only [hexpected] at h
          split
          · rfl
          · next hnumber =>
            rw [if_neg hnumber] at h
            split
            · rfl
            · next hparent =>
              rw [if_neg hparent] at h
              cases h

theorem tryEnqueueSealed_error {q : DepositQueue W} {block : SealedL1Block W} {e : QueueError W}
    (h : (q.tryEnqueueSealed block).1 = .error e) : (q.tryEnqueueSealed block).2 = q := by
  unfold tryEnqueueSealed at h ⊢
  split
  · split <;> rfl
  · next hfind =>
    rw [hfind] at h
    exact tryEnqueue_error h

theorem confirm_error {q : DepositQueue W} {e : QueueError W}
    (h : (q.confirm expected).1 = .error e) : (q.confirm expected).2 = q := by
  unfold confirm at h ⊢
  split
  · rfl
  · next front rest hpending =>
    simp only [hpending] at h
    split
    · next hfront =>
      rw [if_pos hfront] at h
      cases h
    · rfl

end DepositQueue

end TempoZones
