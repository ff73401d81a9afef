import TempoZones.Portal.Runs
import TempoZones.Zone.Inbox

/-!
# Preparation of portal work

How the leader turns finalized Tempo blocks into the arguments of a full import. Portal events are
collected from the logs (`pushLog`); blocks that checkpoint-only imports cross are deferred
(`DeferredPortalWork`); a full import prepares the deferred work with its block (`prepareMany`), and
rejects work beyond the capacity. Neither drops nor reorders events (`deferFront_iterate`,
`operationalWork_front`).
-/

namespace TempoZones

open Lib List

variable {W : Type} [EvmWord W] [DecidableEq W]

/-! ## Events -/

/-- `L1PortalEvents`, restricted to the events that `advanceTempo` consumes. -/
structure L1PortalEvents (W : Type) where
  deposits : List (QueueEntry W)
  enabledTokens : List EnabledToken

/-- `push_log`, with `from_bounce_back` for the entry of a bounce-back. -/
def L1PortalEvents.pushLog (events : L1PortalEvents W) : PortalEvent W → L1PortalEvents W
  | .depositMade _ deposit _ _ => { events with deposits := events.deposits ++ [.deposit deposit] }
  | .withdrawalBounceBack _ fallbackNonce token amount _ =>
    { events with
      deposits := events.deposits ++ [.bounceBack ⟨token, Fin.ofNat _ fallbackNonce, amount⟩] }
  | .tokenEnabled token => { events with enabledTokens := events.enabledTokens ++ [token] }
  | _ => events

def L1PortalEvents.ofLogs (logs : List (PortalEvent W)) : L1PortalEvents W :=
  logs.foldl L1PortalEvents.pushLog ⟨[], []⟩

def L1PortalEvents.extendOperational (events other : L1PortalEvents W) : L1PortalEvents W :=
  ⟨events.deposits ++ other.deposits, events.enabledTokens ++ other.enabledTokens⟩

theorem L1PortalEvents.pushLog_eq (events : L1PortalEvents W) (log : PortalEvent W) :
    events.pushLog log = ⟨events.deposits ++ log.queueEntry?.toList,
      events.enabledTokens ++ log.tokenEnablement?.toList⟩ := by
  cases log <;> simp [pushLog, PortalEvent.queueEntry?, PortalEvent.tokenEnablement?]

theorem L1PortalEvents.foldl_pushLog (logs : List (PortalEvent W)) (events : L1PortalEvents W) :
    logs.foldl pushLog events = ⟨events.deposits ++ queueEntries logs,
      events.enabledTokens ++ tokenEnablements logs⟩ := by
  induction logs generalizing events with
  | nil => simp [queueEntries, tokenEnablements]
  | cons log rest ih =>
    have hentries : queueEntries (log :: rest) = log.queueEntry?.toList ++ queueEntries rest := by
      rw [queueEntries, filterMap_cons]
      cases log.queueEntry? <;> rfl
    have htokens : tokenEnablements (log :: rest) =
        log.tokenEnablement?.toList ++ tokenEnablements rest := by
      rw [tokenEnablements, filterMap_cons]
      cases log.tokenEnablement? <;> rfl
    rw [foldl_cons, ih, pushLog_eq, hentries, htokens]
    simp only [append_assoc]

theorem L1PortalEvents.ofLogs_eq (logs : List (PortalEvent W)) :
    ofLogs logs = ⟨queueEntries logs, tokenEnablements logs⟩ :=
  foldl_pushLog logs ⟨[], []⟩

/-! ## Deferred work -/

/-- Number and hash of a block. -/
structure NumHash (W : Type) where
  number : ℕ
  hash : W
  deriving DecidableEq

/-- `L1BlockDeposits`; the header is represented by number and hash. -/
structure L1BlockDeposits (W : Type) where
  header : NumHash W
  events : L1PortalEvents W

structure DeferredPortalWork (W : Type) where
  lastHeader : NumHash W
  eventBlocks : List (L1PortalEvents W)

namespace DeferredPortalWork

/-- `push_events`: blocks without work are not kept. -/
def pushEvents (work : DeferredPortalWork W) (events : L1PortalEvents W) : DeferredPortalWork W :=
  if ¬ events.deposits.isEmpty = true ∨ ¬ events.enabledTokens.isEmpty = true then
    { work with eventBlocks := work.eventBlocks ++ [events] }
  else work

def new (block : L1BlockDeposits W) : DeferredPortalWork W :=
  pushEvents ⟨block.header, []⟩ block.events

def push (work : DeferredPortalWork W) (block : L1BlockDeposits W) : DeferredPortalWork W :=
  pushEvents { work with lastHeader := block.header } block.events

def aggregatedBlock (work : DeferredPortalWork W) : L1BlockDeposits W :=
  ⟨work.lastHeader, work.eventBlocks.foldl L1PortalEvents.extendOperational ⟨[], []⟩⟩

theorem foldl_extendOperational (blocks : List (L1PortalEvents W)) (events : L1PortalEvents W) :
    blocks.foldl L1PortalEvents.extendOperational events =
      ⟨events.deposits ++ blocks.flatMap (·.deposits),
        events.enabledTokens ++ blocks.flatMap (·.enabledTokens)⟩ := by
  induction blocks generalizing events with
  | nil => simp
  | cons block rest ih =>
    rw [foldl_cons, ih, L1PortalEvents.extendOperational]
    simp only [flatMap_cons, append_assoc]

theorem aggregatedBlock_events (work : DeferredPortalWork W) : work.aggregatedBlock.events =
      ⟨work.eventBlocks.flatMap (·.deposits), work.eventBlocks.flatMap (·.enabledTokens)⟩ :=
  foldl_extendOperational work.eventBlocks ⟨[], []⟩

theorem pushEvents_aggregated (work : DeferredPortalWork W) (events : L1PortalEvents W) :
    (work.pushEvents events).aggregatedBlock.events =
      work.aggregatedBlock.events.extendOperational events := by
  rw [aggregatedBlock_events, aggregatedBlock_events, pushEvents, L1PortalEvents.extendOperational]
  split
  · simp only [List.flatMap_append, List.flatMap_singleton]
  · next hempty =>
    simp only [not_or, not_not, List.isEmpty_iff] at hempty
    rw [hempty.1, hempty.2, List.append_nil, List.append_nil]

end DeferredPortalWork

/-- `PendingDeposits`: blocks not yet imported, oldest first, and the work owed by the next full
import. -/
structure PendingDeposits (W : Type) where
  pending : List (L1BlockDeposits W)
  deferred : Option (DeferredPortalWork W)

inductive PrepareError where
  | emptyQueue
  | unexpectedAnchor
  | emptyRange
  | missingKey (keyIndex : ℕ)
  | depositSuffixExceedsCapacity
  | tokenSuffixExceedsCapacity
  deriving DecidableEq

def PendingDeposits.deferFront (q : PendingDeposits W) : PendingDeposits W :=
  match q.pending with
  | [] => q
  | block :: rest => ⟨rest, some (q.deferred.elim (.new block) (·.push block))⟩

def PendingDeposits.operationalWork (q : PendingDeposits W) (expected : NumHash W) :
    Except PrepareError (List (L1BlockDeposits W)) :=
  match q.pending with
  | [] => .error .emptyQueue
  | current :: _ => do
      require (current.header = expected) .unexpectedAnchor
      pure ((q.deferred.map (·.aggregatedBlock)).toList ++ [current])

def PendingDeposits.owed (q : PendingDeposits W) : L1PortalEvents W :=
  q.deferred.elim ⟨[], []⟩ (·.aggregatedBlock.events)

theorem PendingDeposits.deferFront_owed (block : L1BlockDeposits W)
    (rest : List (L1BlockDeposits W)) (deferred : Option (DeferredPortalWork W)) :
    (deferFront ⟨block :: rest, deferred⟩).owed =
      (owed ⟨block :: rest, deferred⟩).extendOperational block.events := by
  cases deferred with
  | none => exact DeferredPortalWork.pushEvents_aggregated ⟨block.header, []⟩ block.events
  | some work =>
    exact DeferredPortalWork.pushEvents_aggregated ⟨block.header, work.eventBlocks⟩ block.events

theorem PendingDeposits.deferFront_iterate (crossed rest : List (L1BlockDeposits W))
    (deferred : Option (DeferredPortalWork W)) :
    (deferFront^[crossed.length] ⟨crossed ++ rest, deferred⟩).pending = rest ∧
      (deferFront^[crossed.length] ⟨crossed ++ rest, deferred⟩).owed =
        ⟨(owed ⟨rest, deferred⟩).deposits ++ crossed.flatMap (·.events.deposits),
          (owed ⟨rest, deferred⟩).enabledTokens ++ crossed.flatMap (·.events.enabledTokens)⟩ := by
  induction crossed generalizing deferred with
  | nil => simp
  | cons block crossed ih =>
    have howed := deferFront_owed block (crossed ++ rest) deferred
    have hnext : deferFront ⟨block :: (crossed ++ rest), deferred⟩ =
        ⟨crossed ++ rest, some (deferred.elim (.new block) (·.push block))⟩ := rfl
    rw [hnext] at howed
    obtain ⟨hpending, hrest⟩ := ih (some (deferred.elim (.new block) (·.push block)))
    rw [length_cons, Function.iterate_succ_apply, cons_append, hnext]
    refine ⟨hpending, hrest.trans ?_⟩
    rw [show owed ⟨rest, some (deferred.elim (.new block) (·.push block))⟩ =
      (owed ⟨rest, deferred⟩).extendOperational block.events from howed]
    simp only [L1PortalEvents.extendOperational, flatMap_cons, append_assoc]

theorem PendingDeposits.operationalWork_front {q : PendingDeposits W} {current : L1BlockDeposits W}
    {later : List (L1BlockDeposits W)} (h : q.pending = current :: later) :
    ∃ work, q.operationalWork current.header = .ok work ∧
      work.flatMap (·.events.deposits) = q.owed.deposits ++ current.events.deposits ∧
      work.flatMap (·.events.enabledTokens) =
        q.owed.enabledTokens ++ current.events.enabledTokens := by
  refine ⟨(q.deferred.map (·.aggregatedBlock)).toList ++ [current], ?_, ?_⟩
  · simp only [operationalWork, h, bind_ok_iff, require_ok_iff]
    exact ⟨(), trivial, rfl⟩
  · cases hdeferred : q.deferred with
    | none => simp [owed, hdeferred]
    | some work => simp [owed, hdeferred]

/-! ## Preparation -/

/-- Encoding of queue entries, and for each key index that the key ring resolves the computation of
the decryption data of a deposit. -/
structure Preparer (W : Type) where
  abiEncode : QueueEntry W → Bytes
  key : ℕ → Option (Deposit W → DecryptionData W)

def Preparer.toAbiQueuedDeposit (lib : Preparer W) (entry : QueueEntry W) : QueuedDeposit :=
  match entry with
  | .bounceBack _ => ⟨.withdrawalBounceBack, lib.abiEncode entry⟩
  | .deposit _ => ⟨.deposit, lib.abiEncode entry⟩

/-- Key resolution of `prepare`, in deposit order. -/
def Preparer.resolveKeys (lib : Preparer W) : List (QueueEntry W) → Except PrepareError Unit
  | [] => pure ()
  | .bounceBack _ :: rest => lib.resolveKeys rest
  | .deposit d :: rest => do
      require ((lib.key d.keyIndex).isSome = true) (.missingKey d.keyIndex)
      lib.resolveKeys rest

/-- Decryption data of `prepare_deposit`. -/
def Preparer.decryption (lib : Preparer W) : QueueEntry W → Option (DecryptionData W)
  | .bounceBack _ => none
  | .deposit d => (lib.key d.keyIndex).map (· d)

structure PreparedL1Block (W : Type) where
  header : NumHash W
  queuedDeposits : List QueuedDeposit
  decryptions : List (DecryptionData W)
  enabledTokens : List EnabledToken
  followsCheckpointBlocks : Bool

def Preparer.prepare (lib : Preparer W) (block : L1BlockDeposits W) :
    Except PrepareError (PreparedL1Block W) := do
  lib.resolveKeys block.events.deposits
  pure
    { header := block.header
      queuedDeposits := block.events.deposits.map lib.toAbiQueuedDeposit
      decryptions := block.events.deposits.filterMap lib.decryption
      enabledTokens := block.events.enabledTokens
      followsCheckpointBlocks := false }

/-- Loop of `prepare_many` over the blocks after the first. -/
def Preparer.prepareRest (lib : Preparer W) (prepared : PreparedL1Block W) :
    List (L1BlockDeposits W) → Except PrepareError (PreparedL1Block W)
  | [] => pure prepared
  | block :: rest => do
      let next ← lib.prepare block
      lib.prepareRest
        { prepared with
          header := next.header
          queuedDeposits := prepared.queuedDeposits ++ next.queuedDeposits
          decryptions := prepared.decryptions ++ next.decryptions
          enabledTokens := prepared.enabledTokens ++ next.enabledTokens } rest

def Preparer.prepareMany (lib : Preparer W) :
    List (L1BlockDeposits W) → Except PrepareError (PreparedL1Block W)
  | [] => .error .emptyRange
  | first :: rest => do
      let prepared ← lib.prepare first
      let prepared ← lib.prepareRest prepared rest
      require (prepared.queuedDeposits.length ≤ MAX_UNPROCESSED_DEPOSITS)
        .depositSuffixExceedsCapacity
      require (prepared.enabledTokens.length ≤ MAX_UNPROCESSED_TOKEN_ENABLEMENTS)
        .tokenSuffixExceedsCapacity
      pure { prepared with followsCheckpointBlocks := decide (rest ≠ []) }

def PrepareError.IsCapacity : PrepareError → Prop
  | .depositSuffixExceedsCapacity | .tokenSuffixExceedsCapacity => True
  | _ => False

section Prepare

variable {lib : Preparer W} {e : PrepareError}

theorem Preparer.resolveKeys_avoids (he : e.IsCapacity) (entries : List (QueueEntry W)) :
    Avoids e (lib.resolveKeys entries) := by
  induction entries with
  | nil => exact .pure ()
  | cons entry rest ih =>
    cases entry with
    | bounceBack _ => exact ih
    | deposit d =>
      refine (Avoids.require fun _ => ?_).bind fun _ _ => ih
      rintro rfl
      exact he

theorem Preparer.prepare_avoids (he : e.IsCapacity) (block : L1BlockDeposits W) :
    Avoids e (lib.prepare block) :=
  (resolveKeys_avoids he _).bind fun _ _ => .pure _

theorem Preparer.prepareRest_avoids (he : e.IsCapacity) (blocks : List (L1BlockDeposits W))
    (prepared : PreparedL1Block W) : Avoids e (lib.prepareRest prepared blocks) := by
  induction blocks generalizing prepared with
  | nil => exact .pure _
  | cons block rest ih => exact (prepare_avoids he block).bind fun _ _ => ih _

theorem Preparer.prepare_ok {block : L1BlockDeposits W} {prepared : PreparedL1Block W}
    (h : lib.prepare block = .ok prepared) :
    prepared.queuedDeposits = block.events.deposits.map lib.toAbiQueuedDeposit ∧
      prepared.enabledTokens = block.events.enabledTokens := by
  simp only [prepare, bind_ok_iff, pure_ok_iff] at h
  obtain ⟨-, -, rfl⟩ := h
  exact ⟨rfl, rfl⟩

theorem Preparer.prepareRest_ok {blocks : List (L1BlockDeposits W)}
    {prepared result : PreparedL1Block W} (h : lib.prepareRest prepared blocks = .ok result) :
    result.queuedDeposits = prepared.queuedDeposits ++
        (blocks.flatMap (·.events.deposits)).map lib.toAbiQueuedDeposit ∧
      result.enabledTokens = prepared.enabledTokens ++ blocks.flatMap (·.events.enabledTokens) := by
  induction blocks generalizing prepared with
  | nil =>
    cases pure_ok_iff.1 h
    simp
  | cons block rest ih =>
    obtain ⟨next, hnext, hrest⟩ := bind_ok_iff.1 h
    obtain ⟨hdeposits, htokens⟩ := prepare_ok hnext
    obtain ⟨hresult, hresult'⟩ := ih hrest
    rw [hdeposits] at hresult
    rw [htokens] at hresult'
    constructor
    · rw [hresult, flatMap_cons, map_append, append_assoc]
    · rw [hresult', flatMap_cons, append_assoc]

theorem Preparer.prepareMany_avoids (he : e.IsCapacity) {blocks : List (L1BlockDeposits W)}
    (deposits : (blocks.flatMap (·.events.deposits)).length ≤ MAX_UNPROCESSED_DEPOSITS)
    (tokens : (blocks.flatMap (·.events.enabledTokens)).length ≤
      MAX_UNPROCESSED_TOKEN_ENABLEMENTS) : Avoids e (lib.prepareMany blocks) := by
  cases blocks with
  | nil =>
    refine .error ?_
    rintro rfl
    exact he
  | cons first rest =>
    refine (prepare_avoids he first).bind fun prepared hfirst =>
      (prepareRest_avoids he rest prepared).bind fun result hrest => ?_
    obtain ⟨hqueued, henabled⟩ := prepare_ok hfirst
    obtain ⟨hqueued', henabled'⟩ := prepareRest_ok hrest
    have hdeposits : result.queuedDeposits.length ≤ MAX_UNPROCESSED_DEPOSITS := by
      rw [hqueued', hqueued, ← map_append, length_map]
      exact deposits
    have htokens : result.enabledTokens.length ≤ MAX_UNPROCESSED_TOKEN_ENABLEMENTS := by
      rw [henabled', henabled]
      exact tokens
    exact (Avoids.require fun h => absurd hdeposits h).bind fun _ _ =>
      (Avoids.require fun h => absurd htokens h).bind fun _ _ => .pure _

end Prepare

end TempoZones
