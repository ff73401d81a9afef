import TempoZones.System.Model

/-!
# The deposit sequence

The portal commits to its queue entries by a hash chain and a counter, the zone to the entries it
has processed in the same way. A full import compares the two chains at the imported block, so with a
collision-free hash it consumes exactly the entries that the portal had appended there
(`Advanced.sequence`), whatever data it was called with.
-/

namespace TempoZones

open Lib List

variable {W : Type} [EvmWord W] [DecidableEq W]

/-! ## Commitments on either side -/

structure Chained (s : L1 W) : Prop where
  hash_eq : s.portal.deposits.currentDepositQueueHash = QueueEntry.queueHash (queueEntries s.logs)
  count_eq : s.portal.deposits.depositCount = (queueEntries s.logs).length

theorem Chained.step {s s' : L1 W} (hs : Chained s) (h : CursorStep s s') : Chained s' := by
  obtain ⟨hhash, hcount⟩ := hs
  cases h with
  | kept cursor entries
  | settled _ _ cursor entries => constructor <;> rw [cursor, entries] <;> assumption
  | appended entry _ cursor entries =>
    constructor
    · rw [cursor, entries, QueueEntry.queueHash, prefixChain_concat]
      exact congrArg entry.hashWithTail hhash
    · rw [cursor, entries, length_append]
      exact congrArg (· + 1) hcount

theorem chained_fresh (self : Address) (ledger : Ledger) : Chained (.fresh self ledger : L1 W) :=
  ⟨rfl, rfl⟩

theorem Initial.chained {env : BlockEnv} {args : InitializeArgs} {self : Address} {s : L1 W}
    (h : Initial env args self s) : Chained s := by
  constructor
  · rw [h.deposits, h.entries]
    rfl
  · rw [h.deposits, h.entries]
    rfl

/-- The inbox commits to the entries it has processed. -/
structure ZoneChained (z : Zone W) : Prop where
  hash_eq : z.inbox.processedDepositQueueHash = QueueEntry.queueHash z.history.processed
  number_eq : z.inbox.processedDepositNumber = z.history.processed.length

variable {zctx : ZoneCtx W} {z z' : Zone W} {entries : List (QueueEntry W)}
  {tokens : List EnabledToken}

theorem EntryPath.processed_eq (h : EntryPath entries z z') :
    z'.history.processed = z.history.processed ++ entries := by
  induction h with
  | nil => rw [append_nil]
  | cons step _ ih =>
    rw [ih]
    cases step <;> exact append_assoc _ _ _

theorem Advanced.processed_eq (h : Advanced zctx z entries tokens z') :
    z'.history.processed = z.history.processed ++ entries := by
  cases h with
  | mk _ _ _ _ path _ _ => exact path.processed_eq

theorem Advanced.zoneChained (h : Advanced zctx z entries tokens z') (hz : ZoneChained z) :
    ZoneChained z' := by
  have hprocessed := h.processed_eq
  cases h with
  | mk later reads tokens_eq counted path entries_eq number_lt =>
    constructor
    · rw [hprocessed, QueueEntry.queueHash, prefixChain_append]
      exact congrArg (fun hash => prefixChain QueueEntry.hashWithTail hash entries) hz.hash_eq
    · rw [hprocessed, length_append]
      exact congrArg (· + entries.length) hz.number_eq

theorem ZoneStep.zoneChained (h : ZoneStep zctx z z') (hz : ZoneChained z) : ZoneChained z' := by
  cases h with
  | advanced step => exact step.zoneChained hz
  | _ => exact ⟨hz.hash_eq, hz.number_eq⟩

/-! ## Runs -/

variable {π : Platform W} {σ : Sys W}

theorem Trace.chained (h : Trace π σ) : Chained σ.l1 ∧ ∀ s ∈ σ.blocks, Chained s :=
  h.blockwise (chained_fresh π.self) Initial.chained fun _ hs hstep => hs.step hstep.cursor

theorem Trace.zoneChained (h : Trace π σ) : ZoneChained σ.zone :=
  h.zonewise (fun _ _ => ⟨rfl, rfl⟩) fun hz hstep => hstep.zoneChained hz

/-- After a full import the zone has processed exactly the entries that the portal had appended at
the imported block. -/
theorem Advanced.sequence (hc : CollisionFree W) (h : Advanced zctx z entries tokens z')
    {blocks : List (L1 W)} (reads : ReadsFrom π blocks zctx)
    (chained : ∀ s ∈ blocks, Chained s) (hz : ZoneChained z) :
    ∃ s, blocks[z'.tempo.tempoBlockNumber]? = some s ∧
      z'.history.fullAnchor = some z'.tempo.tempoBlockNumber ∧
      z'.history.processed = queueEntries s.logs ∧
      z'.inbox.processedDepositNumber = s.portal.deposits.depositCount ∧
      z'.inbox.processedDepositQueueHash = s.portal.deposits.currentDepositQueueHash := by
  have hz' := h.zoneChained hz
  cases h with
  | mk later hread tokens_eq counted path entries_eq number_lt =>
    obtain ⟨s, hs, rfl⟩ := reads.reads hread
    have hnumber := congrArg TempoState.tempoBlockNumber path.cursor_eq.1
    have hchained := chained s (mem_of_getElem? hs)
    -- the import compared the zone's chain with the portal's, and both commit to their entries
    have hhash := hz'.hash_eq.symm.trans (entries_eq.symm.trans hchained.hash_eq)
    have hentries := (queueEntry_binding hc).prefixChain_injective hhash
    refine ⟨s, ?_, rfl, hentries, ?_, entries_eq.symm⟩
    · exact (congrArg (blocks[·]?) hnumber).trans hs
    · rw [hz'.number_eq, hentries, hchained.count_eq]

/-! ## Main result -/

/-- **Exact consumption.** When `advanceTempo` succeeds, with any data and in any reachable state,
the entries of the call extend those processed before, and together they are the portal's entries at
the imported block, in number and hash as well. `advanceTempoHeaders` and failed calls change none
of these. -/
theorem zone_consumes_deposit_sequence (hc : CollisionFree W) (h : Reachable π σ)
    (reads : ReadsFrom π σ.blocks zctx) (caller : Address) :
    (∀ (call : AdvanceTempo W) (reply : AdvanceReply) (z' : Zone W),
      zoneExec zctx caller σ.zone (.advanceTempo call reply) = .ok z' →
      (∃ entries, decodeDeposits zctx.lib call.deposits = .ok entries ∧
        z'.history.processed = σ.zone.history.processed ++ entries) ∧
      ∃ s, σ.blocks[z'.tempo.tempoBlockNumber]? = some s ∧
        z'.history.processed = queueEntries s.logs ∧
        z'.inbox.processedDepositNumber = s.portal.deposits.depositCount ∧
        z'.inbox.processedDepositQueueHash = s.portal.deposits.currentDepositQueueHash) ∧
    (∀ (headers : List Bytes) (z' : Zone W),
      zoneExec zctx caller σ.zone (.advanceTempoHeaders headers) = .ok z' →
      z'.history.processed = σ.zone.history.processed ∧
      z'.inbox.processedDepositNumber = σ.zone.inbox.processedDepositNumber ∧
      z'.inbox.processedDepositQueueHash = σ.zone.inbox.processedDepositQueueHash) ∧
    (∀ (call : ZoneCall W) (e : ZoneError), zoneExec zctx caller σ.zone call = .error e →
      zoneApply zctx caller σ.zone call = σ.zone) := by
  refine ⟨?_, ?_, ?_⟩
  · intro call reply z' hrun
    obtain ⟨entries, hdecode, hadvanced⟩ := advanceTempo_ok reads.portal_ne_zero hrun
    obtain ⟨s, hs, -, hprocessed, hnumber, hhash⟩ :=
      hadvanced.sequence hc reads h.trace.chained.2 h.trace.zoneChained
    exact ⟨⟨entries, hdecode, hadvanced.processed_eq⟩, s, hs, hprocessed, hnumber, hhash⟩
  · intro headers z' hrun
    simp only [zoneExec, Zone.advanceTempoHeaders, ok_iff] at hrun
    obtain ⟨-, -, -, -, hrun⟩ := hrun
    obtain ⟨tempo, log, -, rfl⟩ := finalizeCheckpoints_ok hrun
    exact ⟨rfl, rfl, rfl⟩
  · intro call e hrun
    rw [zoneApply, hrun]

namespace Example

/-- First import of the example zone: block 7, which enabled token 50 and received a deposit. -/
def firstImport : AdvanceTempo Sym where
  header := []
  deposits := [⟨.deposit, []⟩]
  decryptions := [⟨0, 2, (0, 0)⟩]
  enabledTokens := [⟨50, [], [], []⟩]

def firstReplies : AdvanceReply := ⟨fun _ => true, fun _ => ⟨.authorized, .minted⟩⟩

def zoneImported : Zone Sym := zoneApply zoneCtx 0 genesis (.advanceTempo firstImport firstReplies)

theorem imports :
    zoneExec zoneCtx 0 genesis (.advanceTempo firstImport firstReplies) = .ok zoneImported := rfl

end Example

open Example

theorem zone_consumes_deposit_sequence_example :
    ∃ s, sysBlock.blocks[zoneImported.tempo.tempoBlockNumber]? = some s ∧
      zoneImported.history.processed = queueEntries s.logs ∧
      zoneImported.inbox.processedDepositNumber = s.portal.deposits.depositCount ∧
      zoneImported.inbox.processedDepositQueueHash =
        s.portal.deposits.currentDepositQueueHash := by
  have h := zone_consumes_deposit_sequence Sym.collisionFree sysBlock_reachable
    zoneCtx_reads 0
  exact (h.1 firstImport firstReplies zoneImported imports).2

end TempoZones
