import TempoZones.Portal.Conservation
import TempoZones.System.Anchors
import TempoZones.System.WithdrawalFifo

/-!
# Solvency of the bridge

Either side conserves value on its own: the portal by `PortalConserved`, the zone by
`ZoneConserved`, which accounts for the entries it has processed. The two meet in the queues
between them. The processed entries are the first entries of the portal's queue, and the withdrawals
that left the portal's withdrawal queue, with those still in it, are those of the settled batches.
What remains is the balance equation of `bridge_solvency`.
-/

namespace TempoZones

open Lib List Function PendingWithdrawal

variable {W : Type} [EvmWord W] [DecidableEq W] {entries : List (QueueEntry W)}

/-! ## Conservation of value in the zone -/

def PendingWithdrawal.worth (p : PendingWithdrawal W) : Address × ℕ := (p.token, p.amount)

def pendingWorth (t : Address) (ps : List (PendingWithdrawal W)) : ℕ :=
  tally t (ps.map worth)

theorem pendingWorth_append (t : Address) (a b : List (PendingWithdrawal W)) :
    pendingWorth t (a ++ b) = pendingWorth t a + pendingWorth t b := by
  rw [pendingWorth, map_append, tally_append]
  rfl

/-- Supply, pending and finalized withdrawals, parked bounce-backs and burned fees account for the
entries processed. -/
def ZoneConserved (z : Zone W) : Prop :=
  ∀ t, z.tokens.supply t + pendingWorth t z.outbox.pendingWithdrawals +
      withdrawalsWorth t (z.history.batches.flatMap (·.withdrawals)) +
      ∑ a, z.inbox.withdrawalBounceBacks t a + z.history.burnedFees t =
    entriesWorth t z.history.processed

section Zone

variable {zctx : ZoneCtx W} {z z' : Zone W} {e : QueueEntry W}

theorem ZoneConserved.of_eq (hz : ZoneConserved z) (supply : z'.tokens.supply = z.tokens.supply)
    (pending : z'.outbox.pendingWithdrawals = z.outbox.pendingWithdrawals)
    (batches : z'.history.batches = z.history.batches)
    (parked : z'.inbox.withdrawalBounceBacks = z.inbox.withdrawalBounceBacks)
    (burned : z'.history.burnedFees = z.history.burnedFees)
    (processed : z'.history.processed = z.history.processed) : ZoneConserved z' := by
  intro t
  rw [supply, pending, batches, parked, burned, processed]
  exact hz t

theorem minted_supply (z : Zone W) (token : Address) (amount : ℕ) (t : Address) :
    (z.minted token amount).tokens.supply t = z.tokens.supply t + tally t [(token, amount)] :=
  update_add z.tokens.supply token amount t

theorem EntryStep.zoneConserved (h : EntryStep z e z') (hz : ZoneConserved z) :
    ZoneConserved z' := by
  intro t
  have hbefore := hz t
  have hprocessed : entriesWorth t (z.history.processed ++ [e]) =
      entriesWorth t z.history.processed + tally t [e.worth] := entriesWorth_append _ _ _
  cases h with
  | @minted d log =>
    have hsupply := minted_supply z d.token d.amount t
    show (z.minted d.token d.amount).tokens.supply t + pendingWorth t z.outbox.pendingWithdrawals +
        withdrawalsWorth t (z.history.batches.flatMap (·.withdrawals)) +
        ∑ a, z.inbox.withdrawalBounceBacks t a + z.history.burnedFees t =
      entriesWorth t (z.history.processed ++ [.deposit d])
    have hworth : tally t [(QueueEntry.deposit d : QueueEntry W).worth] =
      tally t [(d.token, d.amount)] := rfl
    omega
  | @failed d log =>
    have hpending := pendingWorth_append t z.outbox.pendingWithdrawals
      [fromBounceBack d.token d.amount d.tempoRefundRecipient]
    show z.tokens.supply t + pendingWorth t (z.outbox.pendingWithdrawals ++ [_]) +
        withdrawalsWorth t (z.history.batches.flatMap (·.withdrawals)) +
        ∑ a, z.inbox.withdrawalBounceBacks t a + z.history.burnedFees t =
      entriesWorth t (z.history.processed ++ [.deposit d])
    have hworth : pendingWorth t [fromBounceBack (W := W) d.token d.amount
      d.tempoRefundRecipient] = tally t [(QueueEntry.deposit d : QueueEntry W).worth] := rfl
    omega
  | @returned d log recipient =>
    have hsupply := minted_supply (z.consumed d.fallbackNonce) d.token d.amount t
    show ((z.consumed d.fallbackNonce).minted d.token d.amount).tokens.supply t +
        pendingWorth t z.outbox.pendingWithdrawals +
        withdrawalsWorth t (z.history.batches.flatMap (·.withdrawals)) +
        ∑ a, z.inbox.withdrawalBounceBacks t a + z.history.burnedFees t =
      entriesWorth t (z.history.processed ++ [.bounceBack d])
    have hworth : tally t [(QueueEntry.bounceBack d : QueueEntry W).worth] =
      tally t [(d.token, d.amount)] := rfl
    have hkept : (z.consumed d.fallbackNonce).tokens.supply t = z.tokens.supply t := rfl
    omega
  | @parked d log recipient =>
    have hrow := sum_update_row z.inbox.withdrawalBounceBacks d.token
      (z.outbox.fallbackRecipients d.fallbackNonce) (z.inbox.withdrawalBounceBacks d.token
        (z.outbox.fallbackRecipients d.fallbackNonce) + d.amount) t
    rw [tally_add] at hrow
    show z.tokens.supply t + pendingWorth t z.outbox.pendingWithdrawals +
        withdrawalsWorth t (z.history.batches.flatMap (·.withdrawals)) +
        ∑ a, update z.inbox.withdrawalBounceBacks d.token (update
          (z.inbox.withdrawalBounceBacks d.token) (z.outbox.fallbackRecipients d.fallbackNonce)
          (z.inbox.withdrawalBounceBacks d.token (z.outbox.fallbackRecipients d.fallbackNonce) +
            d.amount)) t a + z.history.burnedFees t =
      entriesWorth t (z.history.processed ++ [.bounceBack d])
    have hworth : tally t [(QueueEntry.bounceBack d : QueueEntry W).worth] =
      tally t [(d.token, d.amount)] := rfl
    omega

theorem EntryPath.zoneConserved (h : EntryPath entries z z') (hz : ZoneConserved z) :
    ZoneConserved z' := by
  induction h with
  | nil => exact hz
  | cons step _ ih => exact ih (step.zoneConserved hz)

theorem Advanced.zoneConserved {tokens : List EnabledToken} (h : Advanced zctx z entries tokens z')
    (hz : ZoneConserved z) : ZoneConserved z' := by
  cases h with
  | mk _ _ _ _ path _ _ =>
    have hpath := path.zoneConserved (hz.of_eq rfl rfl rfl rfl rfl rfl)
    exact hpath.of_eq rfl rfl rfl rfl rfl rfl

theorem forall₂_worth {pending : List (PendingWithdrawal W)} {withdrawals : List (Withdrawal W)}
    (h : List.Forall₂ (fun p w => w.token = p.token ∧ w.amount = p.amount ∧
      w.fallbackNonce = p.fallbackNonce) pending withdrawals) :
    withdrawals.map Withdrawal.worth = pending.map worth := by
  rw [← forall₂_eq_eq_eq, forall₂_map_left_iff, forall₂_map_right_iff]
  refine h.flip.imp fun w p hworth => ?_
  rw [Withdrawal.worth, hworth.1, hworth.2.1]
  rfl

/-- Every call of the zone keeps value. A claim pays the parked amount as a 128-bit value, so it
must not exceed one. -/
theorem ZoneStep.zoneConserved (h : ZoneStep zctx z z') (hz : ZoneConserved z)
    (fits : ∀ t a, z.inbox.withdrawalBounceBacks t a < 2 ^ 128) : ZoneConserved z' := by
  cases h with
  | advanced step => exact step.zoneConserved hz
  | @claimed token owner log =>
    intro t
    have hbefore := hz t
    have hexact : uint128 (z.inbox.withdrawalBounceBacks token owner) =
        z.inbox.withdrawalBounceBacks token owner := Nat.mod_eq_of_lt (fits token owner)
    have hsupply := minted_supply z token (uint128 (z.inbox.withdrawalBounceBacks token owner)) t
    have hrow := sum_update_row z.inbox.withdrawalBounceBacks token owner 0 t
    rw [tally_zero] at hrow
    rw [hexact] at hsupply
    show (z.minted token (uint128 (z.inbox.withdrawalBounceBacks token owner))).tokens.supply t +
        pendingWorth t z.outbox.pendingWithdrawals +
        withdrawalsWorth t (z.history.batches.flatMap (·.withdrawals)) +
        ∑ a, update z.inbox.withdrawalBounceBacks token (update
          (z.inbox.withdrawalBounceBacks token) owner 0) t a + z.history.burnedFees t =
      entriesWorth t z.history.processed
    rw [hexact]
    omega
  | @requested n m fee caller txHash call _ _ covered =>
    intro t
    have hbefore := hz t
    have hsupply := update_sub z.tokens.supply call.token covered t
    have hburned := update_add z.history.burnedFees call.token fee t
    have hpending := pendingWorth_append t z.outbox.pendingWithdrawals
      [.fromRequest caller txHash (z.outbox.lastFallbackNonce + 1) call]
    rw [tally_add] at hsupply
    show update z.tokens.supply call.token (z.tokens.supply call.token - (call.amount + fee)) t +
        pendingWorth t (z.outbox.pendingWithdrawals ++ [_]) +
        withdrawalsWorth t (z.history.batches.flatMap (·.withdrawals)) +
        ∑ a, z.inbox.withdrawalBounceBacks t a +
        update z.history.burnedFees call.token (z.history.burnedFees call.token + fee) t =
      entriesWorth t z.history.processed
    have hworth : pendingWorth t [fromRequest caller txHash
      (z.outbox.lastFallbackNonce + 1) call] = tally t [(call.token, call.amount)] := rfl
    omega
  | @finalized block withdrawals _ listed =>
    intro t
    have hbefore := hz t
    have hworth : withdrawalsWorth t withdrawals =
        pendingWorth t z.outbox.pendingWithdrawals := congrArg (tally t) (forall₂_worth listed)
    rw [withBatch_withdrawals, withdrawalsWorth_append, hworth]
    show z.tokens.supply t + 0 + (_ + pendingWorth t z.outbox.pendingWithdrawals) +
        ∑ a, z.inbox.withdrawalBounceBacks t a + z.history.burnedFees t =
      entriesWorth t z.history.processed
    omega
  | checkpoint | configured => exact hz.of_eq rfl rfl rfl rfl rfl rfl

theorem zoneConserved_genesis (tempo : TempoState W) (initialized : Address → Bool) :
    ZoneConserved (.genesis tempo initialized) := by
  intro t
  simp [Zone.genesis, pendingWorth, withdrawalsWorth, entriesWorth]

end Zone

/-! ## The queues in between -/

def Sys.unprocessed (σ : Sys W) : List (QueueEntry W) :=
  (queueEntries σ.l1.logs).drop σ.zone.history.processed.length

def Sys.unsettled (σ : Sys W) : List (Withdrawal W) :=
  (σ.zone.history.batches.drop σ.l1.portal.batches.withdrawalBatchIndex).flatMap (·.withdrawals)

section Run

variable {π : Platform W} {σ : Sys W}

theorem Trace.processed_prefix (hc : CollisionFree W) (h : Trace π σ) :
    σ.zone.history.processed <+: queueEntries σ.l1.logs := by
  cases h.imported hc with
  | nothing _ processed _ => exact processed ▸ nil_prefix
  | block _ recorded processed _ =>
    rw [processed]
    exact (h.logs_ordered.2 _ (mem_of_getElem? recorded)).filterMap _

theorem Sys.entries_eq (hpre : σ.zone.history.processed <+: queueEntries σ.l1.logs) :
    queueEntries σ.l1.logs = σ.zone.history.processed ++ σ.unprocessed :=
  prefix_append_drop hpre

theorem Sys.withdrawals_eq (σ : Sys W) : σ.zone.history.batches.flatMap (·.withdrawals) =
      (settledBatches σ.zone.history.batches σ.l1).flatten ++ σ.unsettled := by
  have hsplit := take_append_drop σ.l1.portal.batches.withdrawalBatchIndex σ.zone.history.batches
  conv_lhs => rw [← hsplit, flatMap_append]
  rfl

theorem Trace.portalConserved (h : Trace π σ) :
    PortalConserved π.self σ.l1 ∧ ∀ s ∈ σ.blocks, PortalConserved π.self s := by
  refine h.blockwise (portalConserved_fresh π.self) Initial.portalConserved ?_
  intro ctx s s' hself hs hstep
  rw [← hself] at hs ⊢
  exact hstep.portalConserved hs

theorem Trace.balance_eq (hc : CollisionFree W) (h : Trace π σ) (hrevert : σ.l1.TransfersRevert)
    (hz : ZoneConserved σ.zone)
    {content : List (List (Withdrawal W))}
    (hrun : FifoRun (settledBatches σ.zone.history.batches σ.l1) σ.l1.history.dequeued content)
    (t : Address) :
    σ.l1.ledger t π.self = σ.zone.tokens.supply t + entriesWorth t σ.unprocessed +
      (pendingWorth t σ.zone.outbox.pendingWithdrawals + withdrawalsWorth t σ.unsettled +
        withdrawalsWorth t content.flatten) + ∑ a, σ.l1.portal.refunds t a +
      ∑ a, σ.zone.inbox.withdrawalBounceBacks t a + σ.zone.history.burnedFees t +
      σ.l1.history.gifts t := by
  have hportal := h.portalConserved.1 hrevert t
  have hzone := hz t
  rw [Sys.entries_eq (h.processed_prefix hc), entriesWorth_append] at hportal
  rw [σ.withdrawals_eq, ← hrun.flatten_eq, withdrawalsWorth_append, withdrawalsWorth_append]
    at hzone
  omega

theorem Trace.zoneConserved (hc : CollisionFree W) (hsound : π.Sound) (hcapped : π.Capped)
    (h : Trace π σ) : σ.l1.TransfersRevert → ZoneConserved σ.zone := by
  induction h with
  | start h =>
    intro _
    obtain ⟨tempo, initialized, hzone⟩ := h.zone
    exact hzone ▸ zoneConserved_genesis tempo initialized
  | micro _ _ hstep ih => exact fun hrevert => ih (hstep.transfersRevert hrevert)
  | nextBlock _ ih => exact ih
  | @zone σ zctx z' before _ balances step ih =>
    intro hrevert
    refine step.zoneConserved (ih hrevert) fun t a => ?_
    obtain ⟨content, hrun, -⟩ := (before.settles hc hsound).1.queue
    have hbalance := before.balance_eq hc hrevert (ih hrevert) hrun t
    have hcap := hcapped balances t π.self
    have hparked : σ.zone.inbox.withdrawalBounceBacks t a ≤
        ∑ a, σ.zone.inbox.withdrawalBounceBacks t a :=
      Finset.single_le_sum (fun _ _ => Nat.zero_le _) (Finset.mem_univ a)
    omega

end Run

/-! ## Main result -/

/-- **Solvency.** Let transfers move exactly their amount or have no effect, those of deposits never
return `false`, the hash be collision free, and every submitted batch be the zone's. In every state of every run, also inside callbacks, the portal's
balance of a token is the zone's supply, the queue entries not processed, the withdrawals that are
pending, not settled, or in the portal's queue, and the parked refunds and bounce-backs. The surplus
is what was burned as withdrawal fees and what was sent to the portal outside the bridge. -/
theorem bridge_solvency {π : Platform W} {σ : Sys W} (hc : CollisionFree W) (hsound : π.Sound)
    (hcapped : π.Capped) (h : Visible π σ) (hrevert : σ.l1.TransfersRevert) (t : Address) :
    σ.zone.history.processed <+: queueEntries σ.l1.logs ∧
    ∃ content : List (List (Withdrawal W)),
      FifoRun (settledBatches σ.zone.history.batches σ.l1) σ.l1.history.dequeued content ∧
      σ.l1.portal.withdrawalQueue.Holds content ∧
      σ.l1.ledger t π.self =
        σ.zone.tokens.supply t + entriesWorth t σ.unprocessed +
          (pendingWorth t σ.zone.outbox.pendingWithdrawals + withdrawalsWorth t σ.unsettled +
            withdrawalsWorth t content.flatten) +
          ∑ a, σ.l1.portal.refunds t a + ∑ a, σ.zone.inbox.withdrawalBounceBacks t a +
        σ.zone.history.burnedFees t + σ.l1.history.gifts t := by
  have htrace := h.trace
  obtain ⟨content, hrun, hholds⟩ := (htrace.settles hc hsound).1.queue
  exact ⟨htrace.processed_prefix hc, content, hrun, hholds,
    htrace.balance_eq hc hrevert (htrace.zoneConserved hc hsound hcapped hrevert) hrun t⟩

theorem bridge_solvency_example :
    ∃ content : List (List (Withdrawal Sym)),
      Example.settled8.portal.withdrawalQueue.Holds content ∧
      Example.settled8.ledger 50 Example.platform.self =
        Example.zoneFinalized.tokens.supply 50 + entriesWorth 50 Example.sysSettled.unprocessed +
          (pendingWorth 50 Example.zoneFinalized.outbox.pendingWithdrawals +
            withdrawalsWorth 50 Example.sysSettled.unsettled +
            withdrawalsWorth 50 content.flatten) +
          ∑ a, Example.settled8.portal.refunds 50 a +
          ∑ a, Example.zoneFinalized.inbox.withdrawalBounceBacks 50 a +
        Example.zoneFinalized.history.burnedFees 50 + Example.settled8.history.gifts 50 := by
  obtain ⟨-, content, -, hholds, hbalance⟩ := bridge_solvency Sym.collisionFree
    Example.platform_sound Example.platform_capped (.between Example.sysSettled_reachable) rfl 50
  exact ⟨content, hholds, hbalance⟩

end TempoZones
