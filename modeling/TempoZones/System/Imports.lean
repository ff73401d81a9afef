import TempoZones.Sequencer.PortalWork
import TempoZones.Spf.BlockInputs
import TempoZones.System.Anchors
import TempoZones.System.WithdrawalFifo

/-!
# Portal work fits into one import

The portal bounds what lies beyond its settled cursors (`WithinCapacity`, `TokenCapacity`), and its
settled cursors are never ahead of the zone (`Trace.settledBehind`). So the entries and tokens that
the portal had announced at a recorded block exceed what the zone has processed by at most the
protocol's capacity (`Trace.work_le`), however far settlement lags behind and however many blocks
were imported as bare checkpoints.
-/

namespace TempoZones

open Lib List PendingDeposits

variable {W : Type} [EvmWord W] [DecidableEq W] {π : Platform W} {σ : Sys W}

/-! ## Bounds -/

theorem withinCapacity_empty : WithinCapacity (Portal.empty : Portal W).deposits :=
  ⟨le_rfl, Nat.zero_le _⟩

theorem Trace.withinCapacity (h : Trace π σ) :
    WithinCapacity σ.l1.portal.deposits ∧ ∀ s ∈ σ.blocks, WithinCapacity s.portal.deposits :=
  h.blockwise (I := fun s => WithinCapacity s.portal.deposits) (fun _ => withinCapacity_empty)
    (fun hinit => hinit.deposits ▸ withinCapacity_empty) fun _ hs hstep => hs.step hstep.cursor

theorem Trace.tokenCapacity (h : Trace π σ) :
    TokenCapacity σ.l1.portal.registry ∧ ∀ s ∈ σ.blocks, TokenCapacity s.portal.registry :=
  h.blockwise (I := fun s => TokenCapacity s.portal.registry) (tokenCapacity_fresh π.self)
    Initial.tokenCapacity fun _ hs hstep => hs.step hstep.registryStep

theorem Trace.work_le (hc : CollisionFree W) (hsound : π.Sound) (h : Trace π σ) {s : L1 W}
    (hs : s ∈ σ.blocks) :
    (queueEntries s.logs).length ≤ σ.zone.history.processed.length + MAX_UNPROCESSED_DEPOSITS ∧
      (tokenEnablements s.logs).length ≤
        σ.zone.history.processedTokens.length + MAX_UNPROCESSED_TOKEN_ENABLEMENTS := by
  have hbehind := (h.settledBehind hc hsound).2 s hs
  have hnumber := hbehind.number_le
  have htokens := hbehind.tokens_le
  have hdeposits := (h.withinCapacity.2 s hs).outstanding_le
  have henabled := (h.tokenCapacity.2 s hs).outstanding_le
  rw [(h.chained.2 s hs).count_eq] at hdeposits
  rw [(h.tokensRecorded.2 s hs).tokens_eq, length_map] at henabled
  rw [h.zoneChained.number_eq] at hnumber
  constructor <;> omega

/-! ## Blocks as the leader observes them -/

def logsThrough (blocks : List (L1 W)) (k : ℕ) : List (PortalEvent W) :=
  (blocks[k]?).elim [] (·.logs)

def logsBefore (blocks : List (L1 W)) : ℕ → List (PortalEvent W)
  | 0 => []
  | k + 1 => logsThrough blocks k

def blockLogs (blocks : List (L1 W)) (k : ℕ) : List (PortalEvent W) :=
  (logsThrough blocks k).drop (logsBefore blocks k).length

def observed (blocks : List (L1 W)) (hash : ℕ → W) (k : ℕ) : L1BlockDeposits W :=
  ⟨⟨k, hash k⟩, .ofLogs (blockLogs blocks k)⟩

section Blocks

variable {blocks : List (L1 W)}

section

variable (ordered : blocks.Pairwise fun a b => a.logs <+: b.logs)
include ordered

theorem logsBefore_append {k : ℕ} (hk : k < blocks.length) :
    logsBefore blocks k ++ blockLogs blocks k = logsThrough blocks k := by
  have hpre : logsBefore blocks k <+: logsThrough blocks k := by
    cases k with
    | zero => exact nil_prefix
    | succ k =>
      have hlt : k < blocks.length := (Nat.lt_succ_self k).trans hk
      rw [logsBefore, logsThrough, logsThrough, getElem?_eq_getElem hlt, getElem?_eq_getElem hk]
      exact pairwise_iff_getElem.1 ordered k (k + 1) hlt hk (Nat.lt_succ_self k)
  exact prefix_append_drop hpre |>.symm

theorem logsBefore_range (lo m : ℕ) (hm : lo + m ≤ blocks.length) :
    logsBefore blocks lo ++ (range' lo m).flatMap (blockLogs blocks) =
      logsBefore blocks (lo + m) := by
  induction m with
  | zero => simp
  | succ m ih =>
    have hlast := logsBefore_append ordered (show lo + m < blocks.length by omega)
    rw [range'_1_concat, flatMap_append, flatMap_singleton, ← append_assoc, ih (by omega), hlast]
    rfl

theorem logsThrough_prefix {i k : ℕ} {s : L1 W} (hs : blocks[i]? = some s) (hik : i < k)
    (hk : k ≤ blocks.length) : s.logs <+: logsBefore blocks k := by
  obtain ⟨j, rfl⟩ : ∃ j, k = j + 1 := ⟨k - 1, by omega⟩
  obtain ⟨hi, rfl⟩ := List.getElem?_eq_some_iff.1 hs
  rw [logsBefore, logsThrough, List.getElem?_eq_getElem (show j < blocks.length by omega)]
  rcases (Nat.lt_succ_iff.1 hik).lt_or_eq with hlt | rfl
  · exact pairwise_iff_getElem.1 ordered i j hi (by omega) hlt
  · exact prefix_rfl

end

theorem collect_blockLogs {α : Type} {f : List (PortalEvent W) → List α} (hnil : f [] = [])
    (happend : ∀ a b, f (a ++ b) = f a ++ f b) (ks : List ℕ) :
    f (ks.flatMap (blockLogs blocks)) = ks.flatMap fun k => f (blockLogs blocks k) := by
  induction ks with
  | nil => exact hnil
  | cons k ks ih => rw [flatMap_cons, flatMap_cons, happend, ih]

end Blocks

theorem Trace.range_le (hc : CollisionFree W) (hsound : π.Sound) (h : Trace π σ) {lo m : ℕ}
    (after : ∀ n, σ.zone.history.fullAnchor = some n → n < lo) (hm : lo + m < σ.blocks.length) :
    (queueEntries ((range' lo (m + 1)).flatMap (blockLogs σ.blocks))).length ≤
        MAX_UNPROCESSED_DEPOSITS ∧
      (tokenEnablements ((range' lo (m + 1)).flatMap (blockLogs σ.blocks))).length ≤
        MAX_UNPROCESSED_TOKEN_ENABLEMENTS := by
  have hordered := h.logs_ordered.1
  have hsplit := logsBefore_range hordered lo (m + 1) hm
  have hlast : logsBefore σ.blocks (lo + (m + 1)) = (σ.blocks.get ⟨lo + m, hm⟩).logs := by
    show logsThrough σ.blocks (lo + m) = _
    rw [logsThrough, getElem?_eq_getElem hm]
    rfl
  -- what the zone has processed was announced before the range
  have hprocessed : σ.zone.history.processed.length ≤
        (queueEntries (logsBefore σ.blocks lo)).length ∧
      σ.zone.history.processedTokens.length ≤
        (tokenEnablements (logsBefore σ.blocks lo)).length := by
    cases h.imported hc with
    | nothing _ processed tokens =>
      rw [processed, tokens]
      exact ⟨Nat.zero_le _, Nat.zero_le _⟩
    | block anchor recorded processed tokens =>
      have hpre := logsThrough_prefix hordered recorded (after _ anchor) (by omega)
      rw [processed, tokens]
      exact ⟨(hpre.filterMap _).length_le, (hpre.filterMap _).length_le⟩
  obtain ⟨hentries, htokens⟩ := h.work_le hc hsound (get_mem σ.blocks ⟨lo + m, hm⟩)
  rw [← hlast, ← hsplit, queueEntries_append, length_append] at hentries
  rw [← hlast, ← hsplit, tokenEnablements_append, length_append] at htokens
  constructor <;> omega

/-- Work that the leader hands to the preparation for block `lo + m`, after deferring the blocks from
`lo` on: the events of all these blocks. -/
theorem operationalWork_observed (blocks : List (L1 W)) (hash : ℕ → W) (lo m : ℕ)
    (later : List (L1BlockDeposits W)) :
    ∃ work, (deferFront^[m] ⟨(range' lo m).map (observed blocks hash) ++
        observed blocks hash (lo + m) :: later, none⟩).operationalWork ⟨lo + m, hash (lo + m)⟩ =
        .ok work ∧
      work.flatMap (·.events.deposits) =
        queueEntries ((range' lo (m + 1)).flatMap (blockLogs blocks)) ∧
      work.flatMap (·.events.enabledTokens) =
        tokenEnablements ((range' lo (m + 1)).flatMap (blockLogs blocks)) := by
  have hiterate := deferFront_iterate ((range' lo m).map (observed blocks hash))
    (observed blocks hash (lo + m) :: later) none
  rw [length_map, length_range'] at hiterate
  obtain ⟨hpending, howed⟩ := hiterate
  obtain ⟨work, hwork, hdeposits, htokens⟩ := operationalWork_front hpending
  have hevents : ∀ k, (observed blocks hash k).events =
      ⟨queueEntries (blockLogs blocks k), tokenEnablements (blockLogs blocks k)⟩ :=
    fun k => L1PortalEvents.ofLogs_eq _
  refine ⟨work, hwork, ?_, ?_⟩
  · rw [hdeposits, howed, collect_blockLogs rfl queueEntries_append, range'_1_concat, flatMap_append,
      flatMap_singleton]
    simp only [flatMap_map, hevents]
    rfl
  rw [htokens, howed, collect_blockLogs rfl tokenEnablements_append, range'_1_concat, flatMap_append,
    flatMap_singleton]
  simp only [flatMap_map, hevents]
  rfl

/-! ## Main result -/

/-- **Capacity.** In every reachable portal state, also inside callbacks, at most
`MAX_UNPROCESSED_DEPOSITS` entries lie beyond the settled cursor. Let the zone's own batches be
settled. Then every successful full import stays within the capacity and passes the check of the
batch proof, and the leader can prepare a full import of any recorded block without failing a
capacity check. -/
theorem portal_work_fits_import (hc : CollisionFree W) :
    (∀ (P : CallCtx W → Prop) (e : BlockEnv) (m : L1 W), Reached P e m →
      m.portal.deposits.lastProcessedDepositNumber ≤ m.portal.deposits.depositCount ∧
      m.portal.deposits.depositCount - m.portal.deposits.lastProcessedDepositNumber ≤ 230) ∧
    (∀ (P : CallCtx W → Prop) (e e' : BlockEnv) (s m m' : L1 W) (ctx : CallCtx W), Started P e s →
      Later P e s e' m → Control ctx m m' →
      m'.portal.withdrawalReentrancyStatus = .notEntered) ∧
    ∀ (π : Platform W) (σ : Sys W), π.Sound → Visible π σ →
      (∀ (zctx : ZoneCtx W) (caller : Address) (call : AdvanceTempo W) (reply : AdvanceReply)
        (z' : Zone W), ReadsFrom π σ.blocks zctx →
        σ.zone.advanceTempo zctx caller call reply = .ok z' →
        call.deposits.length ≤ 230 ∧ call.enabledTokens.length ≤ 8 ∧
        ∀ (block : Spf.ZoneBlock W) (i j : ℕ), block.tempoImport =
            .full call.header call.deposits call.decryptions call.enabledTokens →
          block.validateSystemInputs i ≠ .error (.portalWorkCapacityExceeded j)) ∧
      ∀ (hash : ℕ → W) (lo m : ℕ) (later : List (L1BlockDeposits W)),
        (∀ n, σ.zone.history.fullAnchor = some n → n < lo) → lo + m < σ.blocks.length →
        ∃ work, (deferFront^[m]
            ⟨(range' lo m).map (observed σ.blocks hash) ++
              observed σ.blocks hash (lo + m) :: later, none⟩).operationalWork
            ⟨lo + m, hash (lo + m)⟩ = .ok work ∧
          ∀ (lib : Preparer W) (e : PrepareError), e.IsCapacity →
            lib.prepareMany work ≠ .error e := by
  refine ⟨?_, ?_, ?_⟩
  · intro P e m hreached
    obtain ⟨hle, hout⟩ := hreached.withinCapacity
    exact ⟨hle, Nat.sub_le_iff_le_add'.2 hout⟩
  · intro P e e' s m m' ctx hstarted hlater hcontrol
    obtain ⟨_, _, -, -, hinit⟩ := hstarted.initial
    have hstatus := hlater.notEntered hinit.initialized hinit.status
    exact hcontrol.notEntered (hlater.initialized_eq hinit.initialized) hstatus
  intro π σ hsound hvisible
  have htrace := hvisible.trace
  refine ⟨?_, ?_⟩
  · intro zctx caller call reply z' hreads hrun
    obtain ⟨entries, hdecode, hadvanced⟩ := advanceTempo_ok hreads.portal_ne_zero hrun
    -- deposits and token enablements end at the same observed block
    obtain ⟨s, hs, -, hprocessed, -⟩ :=
      hadvanced.sequence hc hreads htrace.chained.2 htrace.zoneChained
    obtain ⟨s', hs', htokens, -⟩ :=
      hadvanced.token_sequence hc hreads htrace.tokensRecorded.2 htrace.tokensChained
    obtain rfl : s = s' := Option.some.inj (hs.symm.trans hs')
    obtain ⟨hentries, henabled⟩ := htrace.work_le hc hsound (mem_of_getElem? hs)
    rw [← hprocessed, hadvanced.processed_eq, length_append] at hentries
    rw [← htokens, hadvanced.tokens_eq, length_append] at henabled
    have hdeposits : call.deposits.length ≤ MAX_UNPROCESSED_DEPOSITS := by
      rw [← decodeDeposits_length hdecode]
      omega
    have henabled' : call.enabledTokens.length ≤ MAX_UNPROCESSED_TOKEN_ENABLEMENTS := by omega
    refine ⟨hdeposits, henabled', ?_⟩
    intro block i j hfull
    exact Spf.ZoneBlock.validateSystemInputs_avoids hfull hdeposits henabled' i j
  · intro hash lo m later hafter hm
    obtain ⟨hentries, htokens⟩ := htrace.range_le hc hsound hafter hm
    obtain ⟨work, hwork, hdeposits, henabled⟩ :=
      operationalWork_observed σ.blocks hash lo m later
    refine ⟨work, hwork, fun lib e he => lib.prepareMany_avoids he ?_ ?_⟩
    · rw [hdeposits]
      exact hentries
    · rw [henabled]
      exact htokens

namespace Example

theorem sysSettled_anchor : sysSettled.zone.history.fullAnchor = some 7 := rfl

end Example

open Example

/-- The example zone imported block 7 in full, and its first batch is settled in block 8. The leader
can prepare a full import of block 8. -/
theorem portal_work_fits_import_example :
    ∃ work, (⟨[observed (sysSettled.blocks ++ [settled8]) Sym.num 8], none⟩ :
        PendingDeposits Sym).operationalWork ⟨8, .num 8⟩ = .ok work ∧
      ∀ (lib : Preparer Sym) (e : PrepareError), e.IsCapacity → lib.prepareMany work ≠ .error e := by
  have h := (portal_work_fits_import Sym.collisionFree).2.2 platform
    { sysSettled with blocks := sysSettled.blocks ++ [settled8] }
    platform_sound (.between sysSettled_reachable.nextBlock)
  refine h.2 Sym.num 8 0 [] ?_ (by decide)
  intro n hn
  rw [Option.some.inj (hn.symm.trans sysSettled_anchor)]
  decide

end TempoZones
