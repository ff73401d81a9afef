import TempoZones.Portal.Certificates
import TempoZones.Sequencer.SignatureCollection

/-!
# Leader, follower and portal agree on what is settled

`Consecutive` relates a finalizing block to the boundary before it. The leader's cursor always
stands at a boundary (`cursorAt`), the follower's backward scan finds the same one
(`previousBatchFrom_eq`), and the portal stores it. The attested values are then a function of the
two boundaries, the anchor and the portal's configuration, and all three digests are equal.
-/

namespace TempoZones.Settle

open Lib List VerifierMode SettlementManager SignedSettlementAttestation

variable {W : Type} [EvmWord W] [DecidableEq W] {m persistedHead : ℕ} {mode : VerifierMode}
  {ctx : CallCtx W} {proposal attestation : SettlementAttestation W} {anchorBlockNumber : ℕ}

/-! ## Chains -/

def ZoneBlock.advances (b : ZoneBlock W) : List (TempoAdvanced W) :=
  b.receipts.flatten.filterMap tempoAdvanced?

def ZoneBlock.finalizations (b : ZoneBlock W) : List (W × ℕ) :=
  b.receipts.flatten.filterMap batchFinalized?

/-- Events of a block by the block grammar: none, one import, or one import and a finalization. -/
inductive ZoneBlock.Obeys (b : ZoneBlock W) : Prop
  | checkpointOnly (hadvances : b.advances = []) (hfinalizations : b.finalizations = [])
  | executing (e : TempoAdvanced W) (hadvances : b.advances = [e])
      (hfinalizations : b.finalizations = [])
  | finalized (e : TempoAdvanced W) (w : W × ℕ) (hadvances : b.advances = [e])
      (hfinalizations : b.finalizations = [w])

def ZoneProvider.finalizedUpTo (p : ZoneProvider W) (number : ℕ) : ℕ :=
  ((p.blocks.take number).flatMap ZoneBlock.finalizations).length

/-- A chain by the block grammar: the outbox numbers its finalizations from 1 on, and block hashes
are distinct digests. -/
structure ZoneProvider.Obeys (p : ZoneProvider W) : Prop where
  blocks : ∀ b ∈ p.blocks, b.Obeys
  numbered : ∀ n b w, p.block? n = some b → b.finalizations = [w] →
    w.2 = p.finalizedUpTo n ∧ w.2 < 2 ^ 64
  hashes : (p.blocks.map ZoneBlock.hash).Nodup
  nonzero : ∀ b ∈ p.blocks, b.hash ≠ 0

/-- A block that finalizes, with its events. -/
structure ZoneProvider.FinalizesWith (p : ZoneProvider W) (n : ℕ) (b : ZoneBlock W)
    (e : TempoAdvanced W) (w : W × ℕ) : Prop where
  block : p.block? n = some b
  advances : b.advances = [e]
  finalizations : b.finalizations = [w]

def ZoneProvider.Finalizes (p : ZoneProvider W) (n : ℕ) : Prop := ∃ b e w, p.FinalizesWith n b e w

structure Consecutive (p : ZoneProvider W) (m n : ℕ) : Prop where
  lt : m < n
  prev : m = 0 ∨ p.Finalizes m
  next : p.Finalizes n
  between : ∀ k, m < k → k < n → ¬ p.Finalizes k

variable {p : ZoneProvider W} {n : ℕ} {b : ZoneBlock W}

theorem block_mem (h : p.block? n = some b) : b ∈ p.blocks := by
  unfold ZoneProvider.block? at h
  split at h
  · cases h
  · exact mem_of_getElem? h

theorem block_succ (p : ZoneProvider W) (k : ℕ) : p.block? (k + 1) = p.blocks[k]? := by
  rw [ZoneProvider.block?, if_neg (Nat.succ_ne_zero k), Nat.add_sub_cancel]

theorem finalizations_eq_nil (hobeys : p.Obeys) (hblock : p.block? n = some b)
    (hnot : ¬ p.Finalizes n) : b.finalizations = [] := by
  cases hobeys.blocks b (block_mem hblock) with
  | checkpointOnly _ hfinalizations => exact hfinalizations
  | executing _ _ hfinalizations => exact hfinalizations
  | finalized e w hadvances hfinalizations =>
    exact absurd ⟨b, e, w, hblock, hadvances, hfinalizations⟩ hnot

theorem finalizedUpTo_succ {k : ℕ} (h : p.block? (k + 1) = some b) :
    p.finalizedUpTo (k + 1) = p.finalizedUpTo k + b.finalizations.length := by
  rw [block_succ] at h
  unfold ZoneProvider.finalizedUpTo
  rw [take_add_one, h, flatMap_append, length_append]
  simp only [Option.toList_some, flatMap_cons, flatMap_nil, append_nil]

theorem block_of_le {n k : ℕ} (h : p.block? n = some b) (hpos : 0 < k) (hle : k ≤ n) :
    ∃ b', p.block? k = some b' := by
  obtain ⟨k, rfl⟩ := Nat.exists_eq_succ_of_ne_zero hpos.ne'
  obtain ⟨n, rfl⟩ := Nat.exists_eq_succ_of_ne_zero (Nat.lt_of_lt_of_le hpos hle).ne'
  rw [block_succ] at h ⊢
  have hlt : n < p.blocks.length := (List.getElem?_eq_some_iff.1 h).1
  exact ⟨p.blocks[k], List.getElem?_eq_getElem (by omega)⟩

theorem finalizedUpTo_between (hobeys : p.Obeys) :
    ∀ (d : ℕ), (∀ k, m < k → k ≤ m + d → ∃ b, p.block? k = some b ∧ ¬ p.Finalizes k) →
      p.finalizedUpTo (m + d) = p.finalizedUpTo m := by
  intro d
  induction d with
  | zero => exact fun _ => rfl
  | succ d ih =>
    intro hquiet
    obtain ⟨b, hblock, hnot⟩ := hquiet (m + d + 1) (by omega) le_rfl
    rw [← Nat.add_assoc, finalizedUpTo_succ hblock, finalizations_eq_nil hobeys hblock hnot,
      ih fun k hlow hhigh => hquiet k hlow (by omega)]
    rfl

variable {e : TempoAdvanced W} {w : W × ℕ}

theorem Consecutive.index_eq (hobeys : p.Obeys) {n : ℕ} (h : Consecutive p m n)
    (hn : p.FinalizesWith n b e w) : w.2 = p.finalizedUpTo m + 1 := by
  obtain ⟨d, rfl⟩ := Nat.exists_eq_add_of_lt h.lt
  have hquiet : p.finalizedUpTo (m + d) = p.finalizedUpTo m := by
    refine finalizedUpTo_between hobeys d ?_
    intro k hlow hhigh
    obtain ⟨b', hb'⟩ := block_of_le hn.block (by omega) (by omega : k ≤ m + d + 1)
    exact ⟨b', hb', h.between k hlow (by omega)⟩
  rw [(hobeys.numbered _ _ _ hn.block hn.finalizations).1, finalizedUpTo_succ hn.block, hquiet,
    hn.finalizations]
  rfl

theorem exists_consecutive (hpos : 0 < n) (hn : p.Finalizes n) : ∃ m, Consecutive p m n := by
  have hscan : ∀ k, k < n → ∃ m ≤ k, (m = 0 ∨ p.Finalizes m) ∧
      ∀ j, m < j → j ≤ k → ¬ p.Finalizes j := by
    intro k
    induction k with
    | zero => exact fun _ => ⟨0, le_rfl, .inl rfl, fun j hlow hhigh => by omega⟩
    | succ k ih =>
      intro hlt
      by_cases hk : p.Finalizes (k + 1)
      · exact ⟨k + 1, le_rfl, .inr hk, fun j hlow hhigh => by omega⟩
      obtain ⟨m, hle, hprev, hbetween⟩ := ih (by omega)
      refine ⟨m, by omega, hprev, ?_⟩
      intro j hlow hhigh
      rcases Nat.lt_or_ge k j with hj | hj
      · rw [Nat.le_antisymm hhigh hj]
        exact hk
      · exact hbetween j hlow hj
  obtain ⟨m, hle, hprev, hbetween⟩ := hscan (n - 1) (by omega)
  exact ⟨m, by omega, hprev, hn, fun k hlow hhigh => hbetween k hlow (by omega)⟩

/-! ## Scans of one block -/

theorem batchFinalized_of_tempoAdvanced {log : ReceiptLog W} (h : tempoAdvanced? log = some e) :
    batchFinalized? log = none := by
  unfold tempoAdvanced? at h
  unfold batchFinalized?
  split at h
  · split at h
    · next hevent =>
      rw [hevent]
      split <;> rfl
    · cases h
  · cases h

theorem foldl_scanCommitments : ∀ (logs : List (ReceiptLog W)) (found : CommitmentScan W),
    logs.foldl scanCommitments found = ⟨(logs.filterMap tempoAdvanced?).getLast?.or found.advanced,
        (logs.filterMap batchFinalized?).getLast?.or found.withdrawal⟩ := by
  intro logs
  induction logs with
  | nil => exact fun _ => rfl
  | cons log logs ih =>
    intro found
    rw [foldl_cons, ih]
    cases hadvanced : tempoAdvanced? log with
    | some e =>
      have hother := batchFinalized_of_tempoAdvanced hadvanced
      simp only [scanCommitments, hadvanced, filterMap_cons, hother, getLast?_cons]
      cases (logs.filterMap tempoAdvanced?).getLast? <;> rfl
    | none =>
      cases hfinalized : batchFinalized? log with
      | some w =>
        simp only [scanCommitments, hadvanced, filterMap_cons, hfinalized, getLast?_cons]
        cases (logs.filterMap batchFinalized?).getLast? <;> rfl
      | none => simp only [scanCommitments, hadvanced, filterMap_cons, hfinalized]

theorem blockCommitments_finalizes (h : p.FinalizesWith n b e w) :
    blockCommitments p n = .ok (some ⟨e, w⟩) := by
  have hadvances := h.advances
  have hfinalizations := h.finalizations
  unfold ZoneBlock.advances at hadvances
  unfold ZoneBlock.finalizations at hfinalizations
  simp only [blockCommitments, h.block, foldl_scanCommitments, hadvances, hfinalizations,
    getLast?_singleton, Option.some_or]

theorem blockCommitments_quiet (hblock : p.block? n = some b) (h : b.finalizations = []) :
    blockCommitments p n = .ok none := by
  unfold ZoneBlock.finalizations at h
  simp only [blockCommitments, hblock, foldl_scanCommitments, h, getLast?_nil, Option.or_none]

theorem scanSnapshot_quiet (n : ℕ) (found : Option (TempoAdvanced W)) :
    ∀ logs : List (ReceiptLog W), logs.filterMap tempoAdvanced? = [] →
      scanSnapshot n found logs = .ok found := by
  intro logs
  induction logs with
  | nil => exact fun _ => rfl
  | cons log logs ih =>
    intro h
    rw [filterMap_cons] at h
    cases hlog : tempoAdvanced? log with
    | some e =>
      rw [hlog] at h
      cases h
    | none =>
      rw [hlog] at h
      simp only [scanSnapshot, hlog]
      exact ih h

theorem scanSnapshot_one (n : ℕ) (e : TempoAdvanced W) :
    ∀ logs : List (ReceiptLog W), logs.filterMap tempoAdvanced? = [e] →
      scanSnapshot n none logs = .ok (some e) := by
  intro logs
  induction logs with
  | nil => rintro ⟨⟩
  | cons log logs ih =>
    intro h
    rw [filterMap_cons] at h
    cases hlog : tempoAdvanced? log with
    | some e' =>
      rw [hlog, cons.injEq] at h
      simp only [scanSnapshot, hlog, Option.isSome_none, Bool.false_eq_true, if_false]
      rw [h.1]
      exact scanSnapshot_quiet n _ logs h.2
    | none =>
      rw [hlog] at h
      simp only [scanSnapshot, hlog]
      exact ih h

theorem readZoneBlockSnapshot_finalizes (h : p.FinalizesWith n b e w) :
    readZoneBlockSnapshot p n = .ok ⟨e, b.hash⟩ := by
  have hscan := scanSnapshot_one n e b.receipts.flatten h.advances
  simp only [readZoneBlockSnapshot, h.block, hscan, bind, Except.bind]

/-! ## The cursor at a boundary -/

def ZoneProvider.cursorAt (p : ZoneProvider W) (m : ℕ) : BatchCursor W :=
  match p.block? m with
  | none => ⟨0, 0, 0, 0, 0⟩
  | some b =>
    match b.advances with
    | e :: _ => ⟨m, b.hash, e.processedDepositHash, e.processedDepositNumber,
        e.processedTokenCount⟩
    | [] => ⟨0, 0, 0, 0, 0⟩

theorem cursorAt_zero (p : ZoneProvider W) : p.cursorAt 0 = ⟨0, 0, 0, 0, 0⟩ := rfl

theorem cursorAt_finalizes (h : p.FinalizesWith n b e w) :
    p.cursorAt n = ⟨n, b.hash, e.processedDepositHash, e.processedDepositNumber,
      e.processedTokenCount⟩ := by
  simp only [ZoneProvider.cursorAt, h.block, h.advances]

def batchOf (cursor : BatchCursor W) (n : ℕ) (b : ZoneBlock W) (e : TempoAdvanced W) (w : W × ℕ) :
    BatchData W where
  zoneHeight := n
  tempoBlockNumber := e.tempoBlockNumber
  prevBlockHash := cursor.blockHash
  nextBlockHash := b.hash
  prevProcessedDepositHash := cursor.processedDepositHash
  nextProcessedDepositHash := e.processedDepositHash
  prevDepositNumber := cursor.processedDepositNumber
  nextDepositNumber := e.processedDepositNumber
  prevProcessedTokenCount := cursor.processedTokenCount
  nextProcessedTokenCount := e.processedTokenCount
  withdrawalQueueHash := w.1
  withdrawalBatchIndex := w.2

section

variable (h : p.FinalizesWith n b e w)
include h

theorem processFinalizedBatch_eq (cursor : BatchCursor W) :
    processFinalizedBatch p cursor ⟨n, w.1, w.2⟩ = .ok (batchOf cursor n b e w) := by
  simp only [processFinalizedBatch, readZoneBlockSnapshot_finalizes h, bind, Except.bind, batchOf]

theorem fetchBoundary_finalizes : fetchFinalizedBatchBoundary p n = .ok (some ⟨n, w.1, w.2⟩) := by
  have hfinalizations := h.finalizations
  unfold ZoneBlock.finalizations at hfinalizations
  simp only [fetchFinalizedBatchBoundary, finalizedBatchLogs, h.block, hfinalizations,
    map_cons, map_nil, bind, Except.bind]

end

theorem fetchBoundary_quiet (hblock : p.block? n = some b) (h : b.finalizations = []) :
    fetchFinalizedBatchBoundary p n = .ok none := by
  unfold ZoneBlock.finalizations at h
  simp only [fetchFinalizedBatchBoundary, finalizedBatchLogs, hblock, h, map_nil, bind, Except.bind]

theorem processBlockRange_eq (hobeys : p.Obeys) (hn : p.FinalizesWith n b e w)
    (cursor : BatchCursor W) :
    ∀ (count start : ℕ), 0 < start → start + count = n →
      (∀ k, start ≤ k → k < n → ¬ p.Finalizes k) →
      processBlockRange p start (count + 1) cursor = .ok [batchOf cursor n b e w] := by
  intro count
  induction count with
  | zero =>
    intro start _ hend _
    obtain rfl : start = n := hend
    simp only [processBlockRange, fetchBoundary_finalizes hn, processFinalizedBatch_eq hn, bind,
      Except.bind]
  | succ count ih =>
    intro start hpos hend hquiet
    obtain ⟨b', hb'⟩ := block_of_le hn.block hpos (by omega : start ≤ n)
    have hnone := fetchBoundary_quiet hb'
      (finalizations_eq_nil hobeys hb' (hquiet start le_rfl (by omega)))
    rw [processBlockRange, hnone]
    exact ih (start + 1) (by omega) (by omega) fun k hlow hhigh => hquiet k (by omega) hhigh

theorem previousBatchFrom_eq (hobeys : p.Obeys) (hprev : m = 0 ∨ p.Finalizes m) :
    ∀ d : ℕ, (∀ k, m < k → k ≤ m + d → ∃ b, p.block? k = some b ∧ ¬ p.Finalizes k) →
      previousBatchFrom p (m + d) = .ok ⟨(p.cursorAt m).blockHash,
        (p.cursorAt m).processedDepositHash, (p.cursorAt m).processedDepositNumber,
        (p.cursorAt m).processedTokenCount, p.finalizedUpTo m⟩ := by
  intro d
  induction d with
  | zero =>
    intro _
    rcases hprev with rfl | ⟨b, e, w, hm⟩
    · rfl
    · cases m with
      | zero => cases hm.block
      | succ m =>
        have hindex := (hobeys.numbered _ _ _ hm.block hm.finalizations).1
        simp only [previousBatchFrom, blockCommitments_finalizes hm, hm.block,
          cursorAt_finalizes hm, hindex, bind, Except.bind]
  | succ d ih =>
    intro hquiet
    obtain ⟨b, hblock, hnot⟩ := hquiet (m + d + 1) (by omega) le_rfl
    have hnone := blockCommitments_quiet hblock (finalizations_eq_nil hobeys hblock hnot)
    rw [← Nat.add_assoc, previousBatchFrom, hnone]
    exact ih fun k hlow hhigh => hquiet k hlow (by omega)

theorem Consecutive.previousBatch_eq (hobeys : p.Obeys) {n : ℕ} (h : Consecutive p m n) :
    previousBatch p n = .ok ⟨(p.cursorAt m).blockHash, (p.cursorAt m).processedDepositHash,
      (p.cursorAt m).processedDepositNumber, (p.cursorAt m).processedTokenCount,
      p.finalizedUpTo m⟩ := by
  obtain ⟨b, e, w, hn⟩ := h.next
  have hlt := h.lt
  have hquiet := previousBatchFrom_eq hobeys h.prev (n - 1 - m) (by
      intro k hlow hhigh
      obtain ⟨b', hb'⟩ := block_of_le hn.block (by omega) (by omega : k ≤ n)
      exact ⟨b', hb', h.between k hlow (by omega)⟩)
  rw [previousBatch]
  rwa [show m + (n - 1 - m) = n - 1 by omega] at hquiet

/-! ## The portal at a boundary -/

structure StoresBoundary (portal : Portal W) (p : ZoneProvider W) (m : ℕ) : Prop where
  blockHash : portal.batches.blockHash = (p.cursorAt m).blockHash
  zoneHeight : portal.batches.zoneHeight = m
  batchIndex : portal.batches.withdrawalBatchIndex = p.finalizedUpTo m
  deposits : portal.deposits.lastProcessedDepositNumber = (p.cursorAt m).processedDepositNumber
  tokens : portal.registry.cursor = (p.cursorAt m).processedTokenCount

theorem preparationCursor_eq (hobeys : p.Obeys) {portal : Portal W} (hprev : m = 0 ∨ p.Finalizes m)
    (hstores : StoresBoundary portal p m) : preparationCursor p portal = .ok (p.cursorAt m) := by
  have hhash := hstores.blockHash
  have hheight := hstores.zoneHeight
  unfold preparationCursor resolvePortalZoneAnchor
  rcases hprev with rfl | ⟨b, e, w, hm⟩
  · rw [cursorAt_zero] at hhash ⊢
    simp only at hhash
    simp only [hhash, hheight, if_true, require, bind, Except.bind, pure, Except.pure]
  · cases m with
    | zero => cases hm.block
    | succ m =>
      rw [cursorAt_finalizes hm] at hhash ⊢
      simp only at hhash
      have hblock := hm.block
      rw [block_succ] at hblock
      obtain ⟨hlt, hget⟩ := List.getElem?_eq_some_iff.1 hblock
      have hfind : (p.blocks.findIdx? fun b' => decide (b'.hash = b.hash)) = some m := by
        rw [List.findIdx?_eq_some_iff_getElem]
        refine ⟨hlt, by rw [hget]; exact decide_eq_true rfl, ?_⟩
        -- block hashes are distinct, so no earlier block has this one
        intro j hj hsame
        have hj' : j < p.blocks.length := Nat.lt_trans hj hlt
        refine nodup_iff_getElem?_ne_getElem?.1 hobeys.hashes j m hj (by rwa [length_map]) ?_
        rw [getElem?_map, getElem?_map, getElem?_eq_getElem hj', hblock]
        exact congrArg some (of_decide_eq_true hsame)
      have hne : b.hash ≠ 0 := hobeys.nonzero b (block_mem hm.block)
      simp only [hhash, if_neg hne, hfind, hheight, require, if_true, bind, Except.bind, pure,
        Except.pure, Nat.succ_ne_zero, if_false, readZoneBlockSnapshot_finalizes hm]

/-! ## Injectivity of the statement -/

/-- Two batches settle the same: all fields that the statement of an ABI binds are equal. -/
structure SameSettlement (abi : SettlementAbi) (b b' : BatchData W) : Prop where
  zoneHeight : b.zoneHeight = b'.zoneHeight
  tempoBlockNumber : b.tempoBlockNumber = b'.tempoBlockNumber
  prevBlockHash : b.prevBlockHash = b'.prevBlockHash
  nextBlockHash : b.nextBlockHash = b'.nextBlockHash
  prevProcessedDepositHash : b.prevProcessedDepositHash = b'.prevProcessedDepositHash
  nextProcessedDepositHash : b.nextProcessedDepositHash = b'.nextProcessedDepositHash
  prevDepositNumber : b.prevDepositNumber = b'.prevDepositNumber
  nextDepositNumber : b.nextDepositNumber = b'.nextDepositNumber
  withdrawalQueueHash : b.withdrawalQueueHash = b'.withdrawalQueueHash
  withdrawalBatchIndex : b.withdrawalBatchIndex = b'.withdrawalBatchIndex
  tokens : abi = .t13 → b.prevProcessedTokenCount = b'.prevProcessedTokenCount ∧
    b.nextProcessedTokenCount = b'.nextProcessedTokenCount

theorem settlementAttestation_inj (hc : CollisionFree W) {domain domain' : AttestationDomain}
    {config config' : SettlementConfig} {prepared prepared' : PreparedBatch W}
    {mode' : VerifierMode}
    (h : settlementAttestation domain config prepared mode =
      settlementAttestation domain' config' prepared' mode') :
    config.abi = config'.abi ∧ SameSettlement config'.abi prepared.batch prepared'.batch := by
  simp only [settlementAttestation, SettlementAttestation.mk.injEq] at h
  obtain ⟨-, -, hheight, hindex, -, htempo, -, -, hblock, hdeposit, htoken, hqueue, -⟩ := h
  have hblock := Codec.encode_injective _ (hc.keccak_inj hblock)
  have hdeposit := Codec.encode_injective _ (hc.keccak_inj hdeposit)
  rw [BlockTransition.mk.injEq] at hblock
  rw [DepositQueueTransition.mk.injEq] at hdeposit
  -- a hash is not the zero sentinel, so the ABIs are the same
  have habi : config.abi = config'.abi := by
    cases hleft : config.abi <;> cases hright : config'.abi <;>
      simp only [hleft, hright, SettlementAbi.tokenTransitionHash] at htoken
    · rfl
    · exact absurd htoken.symm (hc.keccak_ne_zero _)
    · exact absurd htoken (hc.keccak_ne_zero _)
    · rfl
  refine ⟨habi, hheight, htempo, hblock.1, hblock.2, hdeposit.1, hdeposit.2.1, hdeposit.2.2.1,
    hdeposit.2.2.2, hqueue, hindex, ?_⟩
  intro ht13
  rw [habi, ht13] at htoken
  have htoken := Codec.encode_injective _ (hc.keccak_inj htoken)
  rwa [TokenEnablementTransition.mk.injEq] at htoken

/-! ## The follower -/

theorem VerifierMode.ofHash_configHash (hc : CollisionFree W) (mode : VerifierMode) :
    ofHash (mode.configHash : W) = .ok mode := by
  cases mode with
  | nitroV1 => exact if_pos rfl
  | noProof =>
    have hne : (noProof.configHash : W) ≠ nitroV1.configHash := by
      intro heq
      have hraw := hc.keccak_inj heq
      simp only [config, cons.injEq, Chunk.raw.injEq, and_true] at hraw
      exact absurd hraw (by decide)
    rw [ofHash, if_neg hne, if_pos rfl]

def L1Reader.config (l1 : L1Reader W) : SettlementConfig :=
  ⟨l1.abi, l1.portal.gov.sequencerSetVersion, l1.portal.gov.verifier⟩

variable {c : AttestationContext} {l1 : L1Reader W}

theorem buildSettlementAttestation_eq (hobeys : p.Obeys) {n : ℕ} (h : Consecutive p m n)
    (hn : p.FinalizesWith n b e w)
    (hversion : c.validateSequencerSetVersion l1.portal.gov.sequencerSetVersion = .ok ())
    (anchor : BatchAnchor W)
    (hanchor : c.validateSettlementAnchor l1 e.tempoBlockNumber e.tempoBlockHash
      (anchor.blockNumber e.tempoBlockNumber) anchor.blockHash = .ok ()) (mode : VerifierMode) :
    buildSettlementAttestation c l1 p n
        (anchor.blockNumber e.tempoBlockNumber, anchor.blockHash) mode =
      .ok (some (settlementAttestation c.domain l1.config
        ⟨batchOf (p.cursorAt m) n b e w, anchor⟩ mode)) := by
  have hindex := h.index_eq hobeys hn
  have hbound : p.finalizedUpTo m + 1 < 2 ^ 64 := by
    rw [← hindex]
    exact (hobeys.numbered _ _ _ hn.block hn.finalizations).2
  unfold buildSettlementAttestation
  simp only [blockCommitments_finalizes hn, hn.block, h.previousBatch_eq hobeys, hindex, hbound,
    hversion, hanchor, require, if_true, bind, Except.bind]
  unfold settlementAttestation batchOf PreparedBatch.anchorBlockNumber
  simp only [hindex, L1Reader.config]

variable {sg : Signing W}

theorem signProposal_of_build {key : sg.Key} (hheight : proposal.zoneHeight < 2 ^ 64)
    (hdurable : proposal.zoneHeight ≤ persistedHead)
    (hmode : ofHash proposal.verifierConfigHash = .ok mode)
    (hbuild : buildSettlementAttestation c l1 p proposal.zoneHeight
      (proposal.anchorBlockNumber, proposal.anchorBlockHash) mode = .ok (some proposal)) :
    signProposal sg c l1 p persistedHead key proposal =
      .ok (.sign sg proposal c.domain key) := by
  simp only [signProposal, require, hheight, hdurable, hmode, hbuild, if_true, bind,
    Except.bind]

theorem signProposal_eq (hc : CollisionFree W) (hobeys : p.Obeys) {n : ℕ}
    (h : Consecutive p m n) (hn : p.FinalizesWith n b e w) (hheight : n < 2 ^ 64)
    (hdurable : n ≤ persistedHead)
    (hversion : c.validateSequencerSetVersion l1.portal.gov.sequencerSetVersion = .ok ())
    {anchor : BatchAnchor W}
    (hanchor : c.validateSettlementAnchor l1 e.tempoBlockNumber e.tempoBlockHash
      (anchor.blockNumber e.tempoBlockNumber) anchor.blockHash = .ok ())
    (mode : VerifierMode) (key : sg.Key) :
    signProposal sg c l1 p persistedHead key (settlementAttestation c.domain l1.config
        ⟨batchOf (p.cursorAt m) n b e w, anchor⟩ mode) =
      .ok (.sign sg (settlementAttestation c.domain l1.config
        ⟨batchOf (p.cursorAt m) n b e w, anchor⟩ mode) c.domain key) := by
  apply signProposal_of_build hheight hdurable
  · exact ofHash_configHash hc mode
  · exact buildSettlementAttestation_eq hobeys h hn hversion anchor hanchor mode

theorem finalizes_of_blockCommitments (hobeys : p.Obeys) {k : BlockCommitments W}
    (h : blockCommitments p n = .ok (some k)) : p.Finalizes n := by
  cases hblock : p.block? n with
  | none =>
    rw [blockCommitments, hblock] at h
    cases h
  | some b =>
    cases hobeys.blocks b (block_mem hblock) with
    | checkpointOnly _ hfinalizations
    | executing _ _ hfinalizations =>
      rw [blockCommitments_quiet hblock hfinalizations] at h
      cases h
    | finalized e w hadvances hfinalizations => exact ⟨b, e, w, hblock, hadvances, hfinalizations⟩

theorem signProposal_ok (hobeys : p.Obeys) {key : sg.Key}
    {signed : SignedSettlementAttestation W}
    (h : signProposal sg c l1 p persistedHead key proposal = .ok signed) :
    ∃ m b e w anchor mode, Consecutive p m proposal.zoneHeight ∧
      p.FinalizesWith proposal.zoneHeight b e w ∧
      proposal = settlementAttestation c.domain l1.config
        ⟨batchOf (p.cursorAt m) proposal.zoneHeight b e w, anchor⟩ mode := by
  simp only [signProposal, ok_iff] at h
  obtain ⟨-, -, -, -, mode, -, built, hbuilt, h⟩ := h
  cases built with
  | none => cases h
  | some expected =>
    simp only [ok_iff] at h
    obtain ⟨-, hequal, -⟩ := h
    have hbuild := hbuilt
    simp only [buildSettlementAttestation, bind_ok_iff] at hbuilt
    obtain ⟨commitments, hcommitments, hbuilt⟩ := hbuilt
    cases commitments with
    | none => cases hbuilt
    | some k =>
      have hfinalizes := finalizes_of_blockCommitments hobeys hcommitments
      obtain ⟨b, e, w, hn⟩ := hfinalizes
      have hpos : 0 < proposal.zoneHeight := by
        rcases Nat.eq_zero_or_pos proposal.zoneHeight with hzero | hpos
        · have hblock := hn.block
          rw [hzero] at hblock
          cases hblock
        · exact hpos
      obtain ⟨m, hm⟩ := exists_consecutive hpos ⟨b, e, w, hn⟩
      rw [blockCommitments_finalizes hn, Except.ok.injEq, Option.some.injEq] at hcommitments
      subst hcommitments
      simp only [hn.block, ok_iff] at hbuilt
      obtain ⟨-, -, -, -, -, -, ⟨⟩, hversion, ⟨⟩, hvalid, -⟩ := hbuilt
      have hown := buildSettlementAttestation_eq hobeys hm hn hversion
        (.ancestry proposal.anchorBlockNumber proposal.anchorBlockHash) hvalid mode
      exact ⟨m, b, e, w, _, mode, hm, hn,
        hequal.trans (Option.some.inj (Except.ok.inj (hbuild.symm.trans hown)))⟩

/-! ## The portal -/

/-- A deployment: the domain is that of the portal, the manifest's quorum nodes are registered,
recovery on L1 agrees with recovery off chain, the history contract serves canonical hashes, and a
portal before T13 is as `attestation.rs` expects it. -/
structure Deployed {sg : Signing W} (legacy : LegacyPortal W) (mgr : SettlementManager sg)
    (l1 : L1Reader W) (ctx : CallCtx W) : Prop where
  chainId : ctx.env.chainid = mgr.context.domain.l1ChainId
  address : ctx.ext.self = mgr.context.domain.portalAddress
  zoneId : l1.portal.gov.zoneId = mgr.context.domain.zoneId
  coherent : Coherent l1.portal.gov
  leader : l1.portal.gov.isSequencer (sg.address mgr.signer)
  registered : ∀ follower a, mgr.addresses follower = some a → l1.portal.gov.isSequencer a
  recover : ∀ digest signature a, sg.recover digest signature = some a →
    ctx.ext.recover digest signature = some a
  history : ∀ n, ctx.ext.getBlockHash n = 0 ∨ l1.headerHash n = some (ctx.ext.getBlockHash n)
  compatible : l1.abi = .legacy → legacy.Compatible

theorem selectAnchor_ok {call : SubmitBatch W} {number : ℕ} {hash : W}
    (h : selectAnchor ctx call = .ok (number, hash)) :
    number = (if call.recentTempoBlockNumber = 0 then call.tempoBlockNumber
      else call.recentTempoBlockNumber) ∧
      hash = ctx.ext.getBlockHash number ∧ ctx.ext.getBlockHash number ≠ 0 := by
  unfold selectAnchor at h
  split at h
  · next hdirect =>
    simp only [ok_iff, Prod.mk.injEq] at h
    obtain ⟨-, -, _, rfl, -, hnonzero, rfl, rfl⟩ := h
    exact ⟨(if_pos hdirect).symm, rfl, hnonzero⟩
  · next hancestry =>
    simp only [ok_iff, Prod.mk.injEq] at h
    obtain ⟨-, -, -, -, _, rfl, -, hnonzero, rfl, rfl⟩ := h
    exact ⟨(if_neg hancestry).symm, rfl, hnonzero⟩

variable {mgr : SettlementManager sg} {prepared : PreparedBatch W} {legacy : LegacyPortal W}
  {words : WireWords W}

theorem selectAnchor_eq (hdeployed : Deployed legacy mgr l1 ctx)
    (hvalid : validateAnchor mgr.context.historyWindow l1 prepared = .ok ()) {proof : Bytes}
    {signatures : List Bytes} {anchorBlockHash : W}
    (hselect : selectAnchor ctx (submitBatchCall prepared mode proof signatures) =
      .ok (anchorBlockNumber, anchorBlockHash)) :
    anchorBlockNumber = prepared.anchorBlockNumber ∧
      anchorBlockHash = prepared.anchor.blockHash := by
  simp only [validateAnchor, ok_iff] at hvalid
  obtain ⟨-, hpredates, -, -, -, -, -, -, hcanonical⟩ := hvalid
  obtain ⟨hnumber, rfl, hnonzero⟩ := selectAnchor_ok hselect
  have hsame : anchorBlockNumber = prepared.anchorBlockNumber := by
    rw [hnumber]
    simp only [PreparedBatch.anchorBlockNumber] at hpredates ⊢
    cases hanchor : prepared.anchor with
    | direct hash =>
      simp only [submitBatchCall, hanchor, BatchAnchor.recentBlockNumber, if_true,
        BatchAnchor.blockNumber]
    | ancestry recent hash =>
      simp only [submitBatchCall, hanchor, BatchAnchor.recentBlockNumber,
        BatchAnchor.blockNumber] at hpredates ⊢
      -- an ancestry anchor at block 0 reads as direct mode, and is the Tempo block itself
      split <;> omega
  refine ⟨hsame, ?_⟩
  have hhistory := (hdeployed.history anchorBlockNumber).resolve_left hnonzero
  rw [hsame] at hhistory ⊢
  exact Option.some.inj (hhistory.symm.trans hcanonical)

theorem portalDigest_eq (hc : CollisionFree W) (hdeployed : Deployed legacy mgr l1 ctx)
    (hindex : l1.portal.batches.withdrawalBatchIndex + 1 = prepared.batch.withdrawalBatchIndex)
    (mode : VerifierMode) (proof : Bytes) (signatures : List Bytes) :
    portalDigest legacy l1.abi l1.portal ctx (submitBatchCall prepared mode proof signatures)
        prepared.anchorBlockNumber prepared.anchor.blockHash =
      mgr.context.domain.settlementDigest
        (settlementAttestation mgr.context.domain l1.config prepared mode) := by
  have hseparator : (mgr.context.domain.separator : W) = domainSeparator ctx := by
    rw [AttestationDomain.separator, domainSeparator, hdeployed.chainId, hdeployed.address]
  unfold AttestationDomain.settlementDigest portalDigest SettlementAttestation.structHash
  cases habi : l1.abi with
  | legacy =>
    have hlegacy : (settlementAttestation mgr.context.domain l1.config prepared mode).isLegacy =
        true := by
      simp only [SettlementAttestation.isLegacy, settlementAttestation, L1Reader.config, habi,
        SettlementAbi.tokenTransitionHash, decide_true]
    rw [hlegacy, if_pos rfl, hseparator]
    simp only [(hdeployed.compatible habi).digest_eq, settlementAttestation, submitBatchCall,
      hindex, hdeployed.zoneId, configHash, L1Reader.config]
  | t13 =>
    have hlegacy : (settlementAttestation mgr.context.domain l1.config prepared mode).isLegacy =
        false := by
      simp only [SettlementAttestation.isLegacy, settlementAttestation, L1Reader.config, habi,
        SettlementAbi.tokenTransitionHash, hc.keccak_ne_zero, decide_false]
    rw [hlegacy, if_neg Bool.false_ne_true, hseparator]
    simp only [TempoZones.SettlementAttestation.digest, TempoZones.SettlementAttestation.structHash,
      Portal.attestation, settlementAttestation, submitBatchCall, hindex, hdeployed.zoneId,
      configHash, L1Reader.config, habi, SettlementAbi.tokenTransitionHash]

/-- Both portals count the signatures over their digest. -/
theorem verifySettlement_eq (hdeployed : Deployed legacy mgr l1 ctx) (call : SubmitBatch W)
    (anchorBlockHash : W) :
    verifySettlement legacy l1.abi l1.portal ctx call anchorBlockNumber anchorBlockHash =
      quorumSigned l1.portal ctx call
        (portalDigest legacy l1.abi l1.portal ctx call anchorBlockNumber anchorBlockHash) := by
  cases habi : l1.abi with
  | legacy => exact (hdeployed.compatible habi).verify_eq _ _ _ _ _
  | t13 => rfl

/-! ## The certificate -/

/-- Every entry is a signature of the digest by its sequencer. -/
def Certified (g : Governance) (recover : W → Bytes → Option Address) (digest : W)
    (signatures : SortedMap Address Bytes) : Prop :=
  ∀ e ∈ signatures, recover digest e.2 = some e.1 ∧ g.isSequencer e.1

theorem collect_certified {g : Governance}
    (hregistered : ∀ follower a, mgr.addresses follower = some a → g.isSequencer a)
    {threshold : ℕ} :
    ∀ {messages : List (ℕ × Bytes)} {signatures final : SortedMap Address Bytes},
      Certified g sg.recover (mgr.context.domain.settlementDigest attestation) signatures →
      mgr.collect words attestation threshold signatures messages = .ok final →
        Certified g sg.recover (mgr.context.domain.settlementDigest attestation) final ∧
          threshold ≤ final.length := by
  intro messages
  induction messages with
  | nil =>
    intro signatures final hcertified h
    rw [collect] at h
    split at h
    · cases h
    · next hreached =>
      cases h
      exact ⟨hcertified, Nat.le_of_not_lt hreached⟩
  | cons message rest ih =>
    intro signatures final hcertified h
    rw [collect] at h
    split at h
    · split at h
      · exact ih hcertified h
      · next signer signature hcounted =>
        refine ih ?_ h
        simp only [countedSignature, Option.bind_eq_bind, Option.bind_eq_some_iff] at hcounted
        obtain ⟨signed, -, expected, hpeer, signer', hrecover, hcounted⟩ := hcounted
        split at hcounted
        · next hmatch =>
          simp only [Option.some.injEq, Prod.mk.injEq] at hcounted
          obtain ⟨rfl, rfl⟩ := hcounted
          rw [recoverSigner, hmatch.2] at hrecover
          split
          · exact hcertified
          intro e he
          rcases SortedMap.mem_insert.1 he with rfl | ⟨he, -⟩
          · exact ⟨hrecover, hregistered _ _ (hmatch.1 ▸ hpeer)⟩
          · exact hcertified e he
        · cases hcounted
    · next hreached =>
      cases h
      exact ⟨hcertified, Nat.le_of_not_lt hreached⟩

theorem checkSignatures_entries {g : Governance} (hcoherent : Coherent g)
    {recover : W → Bytes → Option Address} {digest : W} :
    ∀ (entries : List (Address × Bytes)) (recovered : List Address),
      (entries.map Prod.fst).Nodup → (∀ e ∈ entries, e.1 ∉ recovered) →
      (∀ e ∈ entries, recover digest e.2 = some e.1 ∧ g.isSequencer e.1) →
        checkSignatures g recover digest recovered (entries.map Prod.snd) = true := by
  intro entries
  induction entries with
  | nil => exact fun _ _ _ _ => rfl
  | cons entry entries ih =>
    intro recovered hnodup hfresh hsigned
    rw [map_cons, nodup_cons] at hnodup
    obtain ⟨hrecover, hmember⟩ := hsigned entry mem_cons_self
    have hnonzero : entry.1 ≠ 0 := hcoherent.ne_zero _ ((hcoherent.role_iff _).1 hmember)
    simp only [map_cons, checkSignatures, hrecover]
    rw [if_neg (by simp only [hnonzero, hmember, not_true_eq_false, or_self, not_false_eq_true]),
      if_neg (hfresh entry mem_cons_self)]
    refine ih _ hnodup.2 ?_ fun e he => hsigned e (mem_cons_of_mem _ he)
    intro e he hmem
    rcases mem_append.1 hmem with hold | hnew
    · exact hfresh e (mem_cons_of_mem _ he) hold
    · rw [mem_singleton] at hnew
      exact hnodup.1 (hnew ▸ mem_map_of_mem he)

theorem entries_keys_nodup (signatures : SortedMap Address Bytes) :
    (signatures.entries.map Prod.fst).Nodup := by
  rw [List.Nodup, pairwise_map]
  exact signatures.sorted.imp fun hlt => ne_of_lt hlt

theorem prepare_verifies (hc : CollisionFree W) (hdeployed : Deployed legacy mgr l1 ctx)
    (hindex : l1.portal.batches.withdrawalBatchIndex + 1 = prepared.batch.withdrawalBatchIndex)
    {messages : List (ℕ × Bytes)} {certificate : SettlementCertificate W}
    (h : mgr.prepare words l1 prepared mode messages = .ok certificate) {proof : Bytes}
    {anchorBlockHash : W}
    (hselect : selectAnchor ctx (submitBatchCall prepared mode proof certificate.signatures) =
      .ok (anchorBlockNumber, anchorBlockHash)) :
    verifySettlement legacy l1.abi l1.portal ctx
      (submitBatchCall prepared mode proof certificate.signatures) anchorBlockNumber
      anchorBlockHash = true := by
  simp only [prepare, ok_iff] at h
  obtain ⟨-, -, -, -, -, hheight, ⟨⟩, hvalid, signatures, hcollect, h⟩ := h
  cases h
  obtain ⟨hnumber, hhash⟩ := selectAnchor_eq hdeployed hvalid hselect
  have hown : Certified l1.portal.gov sg.recover (mgr.context.domain.settlementDigest
      (settlementAttestation mgr.context.domain l1.config prepared mode))
      ((∅ : SortedMap Address Bytes).insert (sg.address mgr.signer) (sg.sign mgr.signer
        (mgr.context.domain.settlementDigest
          (settlementAttestation mgr.context.domain l1.config prepared mode)))) := by
    intro e he
    rcases SortedMap.mem_insert.1 he with rfl | ⟨he, -⟩
    · exact ⟨sg.recover_sign _ _, hdeployed.leader⟩
    · exact absurd he (SortedMap.notMem_empty e)
  obtain ⟨hcertified, hreached⟩ := collect_certified hdeployed.registered hown hcollect
  have hnodup := entries_keys_nodup signatures
  have hlength : signatures.entries.length ≤ l1.portal.gov.sequencers.length := by
    have hsub : signatures.entries.map Prod.fst ⊆ l1.portal.gov.sequencers := by
      intro a ha
      obtain ⟨e, he, rfl⟩ := mem_map.1 ha
      exact (hdeployed.coherent.role_iff _).1 (hcertified e he).2
    have hle := (hnodup.subperm hsub).length_le
    rwa [length_map] at hle
  have hcheck : checkSignatures l1.portal.gov ctx.ext.recover (mgr.context.domain.settlementDigest
        (settlementAttestation mgr.context.domain l1.config prepared mode)) []
      (signatures.entries.map Prod.snd) = true := by
    apply checkSignatures_entries hdeployed.coherent signatures.entries [] hnodup
    · exact fun _ _ => not_mem_nil
    · exact fun e he => ⟨hdeployed.recover _ _ _ (hcertified e he).1, (hcertified e he).2⟩
  rw [verifySettlement_eq hdeployed, hnumber, hhash, portalDigest_eq hc hdeployed hindex,
    quorumSigned]
  simp only [submitBatchCall, length_map, hcheck, Bool.true_and]
  rw [if_neg]
  · exact decide_eq_true hreached
  rintro (hlow | hfew | hmany)
  · omega
  · exact absurd hreached (Nat.not_le_of_lt hfew)
  · omega

/-! ## Agreement -/

theorem tokenTransitionHash_eq_zero_iff (hc : CollisionFree W) (abi : SettlementAbi)
    (previous next : ℕ) : (abi.tokenTransitionHash previous next : W) = 0 ↔ abi = .legacy := by
  cases abi with
  | legacy => exact iff_of_true rfl rfl
  | t13 => exact iff_of_false (hc.keccak_ne_zero _) nofun

/-- Leader, follower and portal agree on what is settled. For consecutive boundaries of a chain,
with the portal at the first one, the monitor prepares exactly the batch between them. For every
valid anchor and verifier mode a follower with the same chain signs the leader's attestation, the
portal computes the same digest, and a collected certificate passes the portal's check. The answer
of the follower counts, except for a batch before T13 that ends at the first block. Whatever a
follower signs settles what its own chain settles at that height. -/
theorem leader_follower_portal_agree (hc : CollisionFree W) {p : ZoneProvider W}
    (hobeys : p.Obeys) {m n : ℕ} (h : Consecutive p m n) {b : ZoneBlock W} {e : TempoAdvanced W}
    {w : W × ℕ} (hn : p.FinalizesWith n b e w) (words : WireWords W) {sg : Signing W}
    {legacy : LegacyPortal W} {mgr : SettlementManager sg} {l1 : L1Reader W} {ctx : CallCtx W}
    (hdeployed : Deployed legacy mgr l1 ctx) (hstores : StoresBoundary l1.portal p m) :
    let batch := batchOf (p.cursorAt m) n b e w
    ((preparationCursor p l1.portal = .ok (p.cursorAt m) ∧
        processBlockRange p (m + 1) (n - m) (p.cursorAt m) = .ok [batch] ∧
        BatchCursor.advance batch = p.cursorAt n) ∧
      batch.prevBlockHash = l1.portal.batches.blockHash ∧
      batch.prevDepositNumber = l1.portal.deposits.lastProcessedDepositNumber ∧
      batch.prevProcessedTokenCount = l1.portal.registry.cursor) ∧
    (∀ (anchor : BatchAnchor W) (mode : VerifierMode),
      validateAnchor mgr.context.historyWindow l1 ⟨batch, anchor⟩ = .ok () →
      let attestation := settlementAttestation mgr.context.domain l1.config ⟨batch, anchor⟩ mode
      (∀ (c : AttestationContext) (l1' : L1Reader W) (persistedHead : ℕ) (key : sg.Key)
        (follower : ℕ), c.domain = mgr.context.domain → l1'.config = l1.config → n < 2 ^ 64 →
        n ≤ persistedHead →
        c.validateSequencerSetVersion l1'.portal.gov.sequencerSetVersion = .ok () →
        c.validateSettlementAnchor l1' e.tempoBlockNumber e.tempoBlockHash
          (anchor.blockNumber e.tempoBlockNumber) anchor.blockHash = .ok () →
        mgr.addresses follower = some (sg.address key) → words.Carries attestation →
        ∃ answer, handleSettlementProposal words sg c l1' p persistedHead key
            (attestation.encode words) = .ok answer ∧
          (mgr.countedSignature words attestation follower answer =
              some (sg.address key, sg.sign key (mgr.context.domain.settlementDigest attestation)) ↔
            l1.abi = .t13 ∨ 2 ≤ n)) ∧
      (∀ (proof : Bytes) (signatures : List Bytes) (number : ℕ) (hash : W),
        selectAnchor ctx (submitBatchCall ⟨batch, anchor⟩ mode proof signatures) =
          .ok (number, hash) →
        portalDigest legacy l1.abi l1.portal ctx
          (submitBatchCall ⟨batch, anchor⟩ mode proof signatures) number hash =
            mgr.context.domain.settlementDigest attestation) ∧
      (∀ (messages : List (ℕ × Bytes)) (certificate : SettlementCertificate W)
        (proof : Bytes) (number : ℕ) (hash : W),
        mgr.prepare words l1 ⟨batch, anchor⟩ mode messages = .ok certificate →
        selectAnchor ctx (submitBatchCall ⟨batch, anchor⟩ mode proof certificate.signatures) =
          .ok (number, hash) →
        verifySettlement legacy l1.abi l1.portal ctx
          (submitBatchCall ⟨batch, anchor⟩ mode proof certificate.signatures) number hash = true)) ∧
    (∀ (c : AttestationContext) (l1' : L1Reader W) (persistedHead : ℕ) (key : sg.Key)
      (domain : AttestationDomain) (config : SettlementConfig) (prepared : PreparedBatch W)
      (mode : VerifierMode) (answer : Bytes),
      words.Carries (settlementAttestation domain config prepared mode) →
      handleSettlementProposal words sg c l1' p persistedHead key
        ((settlementAttestation domain config prepared mode).encode words) = .ok answer →
      ∃ m' b' e' w', Consecutive p m' prepared.batch.zoneHeight ∧
        p.FinalizesWith prepared.batch.zoneHeight b' e' w' ∧
        SameSettlement l1'.abi prepared.batch
          (batchOf (p.cursorAt m') prepared.batch.zoneHeight b' e' w')) := by
  intro batch
  have hlt := h.lt
  -- the portal stores the boundary at `m`, so its next index is the index of the batch
  have hindex : l1.portal.batches.withdrawalBatchIndex + 1 = batch.withdrawalBatchIndex := by
    rw [hstores.batchIndex]
    exact (h.index_eq hobeys hn).symm
  refine ⟨⟨⟨?_, ?_, ?_⟩, hstores.blockHash.symm, hstores.deposits.symm, hstores.tokens.symm⟩,
    ?_, ?_⟩
  · exact preparationCursor_eq hobeys h.prev hstores
  · have hrange := processBlockRange_eq hobeys hn (p.cursorAt m) (n - m - 1) (m + 1) (by omega)
      (by omega) fun k hlow hhigh => h.between k (by omega) hhigh
    rwa [show n - m - 1 + 1 = n - m by omega] at hrange
  · rw [cursorAt_finalizes hn]
    rfl
  · intro anchor mode hvalid attestation
    refine ⟨?_, ?_, ?_⟩
    · intro c l1' persistedHead key follower hdomain hconfig hheight hdurable hversion hanchor hpeer
        hcarries
      -- the follower rebuilds the batch from its own chain and signs the same attestation
      have hsigns : signProposal sg c l1' p persistedHead key
          (settlementAttestation c.domain l1'.config ⟨batch, anchor⟩ mode) = _ :=
        signProposal_eq hc hobeys h hn hheight hdurable hversion hanchor mode key
      rw [hdomain, hconfig] at hsigns
      refine ⟨(sign sg attestation mgr.context.domain key).encode words, ?_, ?_⟩
      · rw [handleSettlementProposal, hcarries.decode_encode]
        exact congrArg (Except.map (SignedSettlementAttestation.encode words)) hsigns
      · have hbound := (hobeys.numbered _ _ _ hn.block hn.finalizations).2
        rw [countedSignature_sign_iff hpeer hcarries (hc.keccak_ne_zero _) (Nat.zero_lt_of_lt hlt)
          hheight hbound]
        rw [show attestation.tokenEnablementTransitionHash =
            l1.abi.tokenTransitionHash _ _ from rfl,
          tokenTransitionHash_eq_zero_iff hc]
        cases l1.abi with
        | legacy => exact ⟨fun htwo => .inr (htwo rfl), fun htwo _ => htwo.resolve_left nofun⟩
        | t13 => exact iff_of_true nofun (.inl rfl)
    · intro proof signatures number hash hselect
      obtain ⟨rfl, rfl⟩ := selectAnchor_eq hdeployed hvalid hselect
      exact portalDigest_eq hc hdeployed hindex mode proof signatures
    · intro messages certificate proof number hash hprepare hselect
      exact prepare_verifies hc hdeployed hindex hprepare hselect
  · intro c l1' persistedHead key domain config prepared mode answer hcarries hanswer
    rw [handleSettlementProposal, hcarries.decode_encode] at hanswer
    obtain ⟨signed, hsigned, -⟩ := bind_ok_iff.1 hanswer
    obtain ⟨m', b', e', w', anchor, mode', hcons, hfinal, hequal⟩ := signProposal_ok hobeys hsigned
    exact ⟨m', b', e', w', hcons, hfinal, (settlementAttestation_inj hc hequal).2⟩

end TempoZones.Settle

namespace TempoZones.Example

open TempoZones.Lib TempoZones.Settle

def byteSigning : Signing Sym where
  Key := UInt8
  address key := Fin.ofNat _ key.toNat
  sign key _ := List.replicate 65 key
  recover _ signature := signature.head?.map fun key => Fin.ofNat _ key.toNat
  recover_sign _ _ := rfl
  length_sign _ _ := rfl

/-- The first batch before T13, a checkpoint-only block, and a batch after T13. -/
def crossingChain : ZoneProvider Sym where
  blocks :=
    [⟨.num 61, [[.ofEvent (.tempoAdvanced (.num 51) 5 1 (.num 41) 1 none)],
      [.ofEvent (.batchFinalized 0 1)]]⟩,
    ⟨.num 62, [[.ofEvent (.tempoBlockFinalized (.num 52) 6 0)]]⟩,
    ⟨.num 63, [[.ofEvent (.tempoAdvanced (.num 53) 7 2 (.num 43) 3 (some 1))],
      [.ofEvent (.batchFinalized 0 2)]]⟩]

def quorumGov : Governance :=
  { start.portal.gov with
    sequencers := [1, 2]
    sequencerThreshold := 2
    role := fun a => if a = 1 ∨ a = 2 then .sequencer else .none
    leader := 1 }

theorem quorumGov_coherent : Coherent quorumGov where
  size_pos := by decide
  size_le := by decide
  nodup := by decide
  ne_zero := by simp [quorumGov]
  role_iff a := by
    by_cases hmember : a = 1 ∨ a = 2
    · simp only [quorumGov, if_pos hmember, true_iff]
      rcases hmember with rfl | rfl <;> decide
    simp only [quorumGov, if_neg hmember, reduceCtorEq, false_iff, List.mem_cons,
      List.not_mem_nil, or_false]
    exact hmember
  threshold_pos := by decide
  threshold_le := by decide
  leader_mem := by decide

/-- The portal after the first batch, before its token cursor is initialized. -/
def crossingPortal : Portal Sym :=
  { start.portal with
    gov := quorumGov
    batches := ⟨1, .num 61, 1, 5⟩
    deposits := { start.portal.deposits with lastProcessedDepositNumber := 1 }
    registry := { start.portal.registry with
      lastProcessedEnabledTokenCount := 0
      tokenEnablementCursorInitialized := false } }

def crossingL1 : L1Reader Sym where
  blockNumber := 9
  headerHash n := if n = 7 then some (.num 53) else if n = 8 then some (.num 54) else none
  portal := crossingPortal
  abi := .t13

def crossingManager : SettlementManager byteSigning where
  context := ⟨⟨ctx.env.chainid, 100, quorumGov.zoneId⟩, some quorumGov.sequencerSetVersion, 10⟩
  signer := (1 : UInt8)
  addresses n := if n = 0 then some 2 else none

def crossingCtx : CallCtx Sym :=
  ⟨env, { ext with
    recover := byteSigning.recover
    getBlockHash := fun n => if n = 7 then .num 53 else if n = 8 then .num 54 else 0 }⟩

/-- A portal before T13 that does not accept anything. -/
def noLegacy : LegacyPortal Sym := ⟨fun _ _ _ _ _ => 0, fun _ _ _ _ _ => false⟩

theorem crossing_deployed : Deployed noLegacy crossingManager crossingL1 crossingCtx where
  chainId := rfl
  address := rfl
  zoneId := rfl
  coherent := quorumGov_coherent
  leader := by decide
  registered := by
    intro follower a haddress
    simp only [crossingManager] at haddress
    split at haddress
    · cases haddress
      decide
    · cases haddress
  recover _ _ _ hrecover := hrecover
  history := by
    intro n
    simp only [crossingCtx, crossingL1]
    split
    · exact .inr rfl
    split
    · exact .inr rfl
    · exact .inl rfl
  compatible := nofun

def crossingBlock : Settle.ZoneBlock Sym :=
  ⟨.num 63, [[.ofEvent (.tempoAdvanced (.num 53) 7 2 (.num 43) 3 (some 1))],
    [.ofEvent (.batchFinalized 0 2)]]⟩

def crossingAdvance : TempoAdvanced Sym := ⟨.num 53, 7, .num 43, 3, 1⟩

theorem crossing_last : crossingChain.FinalizesWith 3 crossingBlock crossingAdvance (0, 2) :=
  ⟨rfl, rfl, rfl⟩

theorem crossing_first : crossingChain.Finalizes 1 := ⟨_, ⟨.num 51, 5, .num 41, 1, 0⟩, (0, 1), rfl,
  rfl, rfl⟩

theorem crossing_obeys : crossingChain.Obeys where
  blocks := by
    intro b hb
    simp only [crossingChain, List.mem_cons, List.not_mem_nil, or_false] at hb
    rcases hb with rfl | rfl | rfl
    · exact .finalized _ _ rfl rfl
    · exact .checkpointOnly rfl rfl
    · exact .finalized _ _ rfl rfl
  numbered := by
    intro n b w hblock hw
    rcases n with - | - | - | - | n <;> cases hblock <;> cases hw
    · exact ⟨rfl, by decide⟩
    · exact ⟨rfl, by decide⟩
  hashes := by decide
  nonzero := by
    intro b hb
    simp only [crossingChain, List.mem_cons, List.not_mem_nil, or_false] at hb
    rcases hb with rfl | rfl | rfl <;> exact fun hzero => by cases hzero

theorem crossing_consecutive : Consecutive crossingChain 1 3 where
  lt := by decide
  prev := .inr crossing_first
  next := ⟨_, _, _, crossing_last⟩
  between := by
    intro k hlow hhigh
    obtain rfl : k = 2 := by omega
    rintro ⟨b, e, w, hblock, hadvances, hfinalizations⟩
    cases hblock
    cases hfinalizations

theorem crossing_stores : StoresBoundary crossingL1.portal crossingChain 1 :=
  ⟨rfl, rfl, rfl, rfl, rfl⟩

/-- The attestation of the batch across T13 in ancestry mode. -/
def crossingAttestation : Settle.SettlementAttestation Sym :=
  settlementAttestation crossingManager.context.domain crossingL1.config
    ⟨batchOf (crossingChain.cursorAt 1) 3 crossingBlock crossingAdvance (0, 2),
      .ancestry 8 (.num 54)⟩ .nitroV1

/-- L1 before the first batch. -/
def firstL1 : L1Reader Sym where
  blockNumber := 6
  headerHash n := if n = 5 then some (.num 51) else none
  portal :=
    { crossingPortal with
      batches := ⟨0, 0, 0, 0⟩
      deposits := { start.portal.deposits with lastProcessedDepositNumber := 0 } }
  abi := .legacy

/-- The first batch in direct mode. -/
def firstPrepared : PreparedBatch Sym where
  batch := batchOf (crossingChain.cursorAt 0) 1
    ⟨.num 61, [[.ofEvent (.tempoAdvanced (.num 51) 5 1 (.num 41) 1 none)],
      [.ofEvent (.batchFinalized 0 1)]]⟩ ⟨.num 51, 5, .num 41, 1, 0⟩ (0, 1)
  anchor := .direct (.num 51)

def firstAttestation : Settle.SettlementAttestation Sym :=
  settlementAttestation crossingManager.context.domain firstL1.config firstPrepared .nitroV1

/-- Words are numbered in the order in which the two attestations use them. -/
def usedWords : List Sym :=
  [0, .num 54, crossingAttestation.blockTransitionHash,
    crossingAttestation.depositQueueTransitionHash,
    crossingAttestation.tokenEnablementTransitionHash, crossingAttestation.verifierConfigHash,
    .num 51, firstAttestation.blockTransitionHash, firstAttestation.depositQueueTransitionHash]

def numberedWords : WireWords Sym where
  bits w := Fin.ofNat _ (usedWords.idxOf w)
  word n := usedWords.getD n 0
  bits_zero := rfl
  word_zero := rfl

/-- Follower 2 signs the leader's attestation of the batch across T13, and its answer counts. -/
theorem crossing_agrees :
    ∃ answer, handleSettlementProposal numberedWords byteSigning crossingManager.context crossingL1
        crossingChain 3 (2 : UInt8) (crossingAttestation.encode numberedWords) = .ok answer ∧
      crossingManager.countedSignature numberedWords crossingAttestation 0 answer =
        some (2, List.replicate 65 2) := by
  have hcarries : numberedWords.Carries crossingAttestation := by
    unfold WireWords.Carries
    decide +kernel
  obtain ⟨answer, hanswer, hcounted⟩ :=
    ((leader_follower_portal_agree Sym.collisionFree crossing_obeys crossing_consecutive
      crossing_last numberedWords crossing_deployed crossing_stores).2.1 (.ancestry 8 (.num 54))
      .nitroV1 rfl).1 crossingManager.context crossingL1 3 (2 : UInt8) 0 rfl rfl (by decide) le_rfl
      rfl rfl rfl hcarries
  exact ⟨answer, hanswer, hcounted.2 (.inl rfl)⟩

/-- The first batch before T13 ends at block 1: follower 2 signs the leader's attestation, but the
leader reads its answer as another message, and it does not count. -/
theorem first_batch_answer_lost :
    StoresBoundary firstL1.portal crossingChain 0 ∧
      validateAnchor crossingManager.context.historyWindow firstL1 firstPrepared = .ok () ∧
      ∃ answer, handleSettlementProposal numberedWords byteSigning crossingManager.context firstL1
          crossingChain 3 (2 : UInt8) (firstAttestation.encode numberedWords) = .ok answer ∧
        crossingManager.countedSignature numberedWords firstAttestation 0 answer = none := by
  refine ⟨⟨rfl, rfl, rfl, rfl, rfl⟩, rfl, (SignedSettlementAttestation.sign byteSigning
    firstAttestation crossingManager.context.domain (2 : UInt8)).encode numberedWords, ?_, ?_⟩
  · decide +kernel
  · decide +kernel

end TempoZones.Example
