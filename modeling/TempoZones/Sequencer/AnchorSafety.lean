import TempoZones.Sequencer.BatchAnchors
import TempoZones.Sequencer.SettlementAgreement
import TempoZones.Spf.BatchSoundness

/-!
# Usable anchors

An anchor is resolved from an L1 chain (`TempoChain`) and a cache with some of its headers. The
anchor is accepted at the tip it was resolved for, by the batch proof, and by the portal as long as
the margin lasts, exactly when the margin is less than half of the window and the history contract
serves the window (`batch_anchor_usable`). With a larger margin it can be older than the Tempo
block: it is rejected, and preparation is rebuilt again and again (`large_margin_rebuilds`).
-/

namespace TempoZones.Settle

open Lib Spf List BatchAnchorConfig Interruption
open HeaderCache (peek)

variable {W C : Type} [EvmWord W] [DecidableEq W] [HeaderCache W C]
  {decodeHeader : Bytes → Option (TempoHeader W)} {batch : BatchData W}

/-! ## The batch proof -/

/-- A header as it is encoded after a fetch: it decodes to a header with the number it was asked for,
and its parent and hash are those of the encoding. -/
def WellFormed (decodeHeader : Bytes → Option (TempoHeader W))
    (entry : ℕ × CachedAncestryHeader W) : Prop :=
  ∃ header, decodeHeader entry.2.encoded = some header ∧ header.number = entry.1 ∧
    header.parentHash = entry.2.parentHash ∧ entry.2.hash = keccak256 [.raw entry.2.encoded]

theorem extends_of_isChain {rest : List (CachedAncestryHeader W)} :
    ∀ {base : CachedAncestryHeader W} {number : ℕ}, List.IsChain ParentOf (base :: rest) →
      (∀ entry ∈ numbered number (base :: rest), WellFormed decodeHeader entry) →
      ∃ last, (base :: rest)[rest.length]? = some last ∧
        Spf.Extends decodeHeader ⟨base.hash, number⟩ (rest.map (·.encoded))
          ⟨last.hash, number + rest.length⟩ := by
  induction rest with
  | nil =>
    intro base number _ _
    exact ⟨base, rfl, .nil _⟩
  | cons next rest ih =>
    intro base number hchain hwell
    rw [isChain_cons_cons] at hchain
    have hnumbered : numbered number (base :: next :: rest) =
        (number, base) :: numbered (number + 1) (next :: rest) := rfl
    rw [hnumbered] at hwell
    obtain ⟨last, hlast, hextends⟩ := ih hchain.2 fun entry hentry =>
      hwell entry (mem_cons_of_mem _ hentry)
    obtain ⟨header, hdecoded, hnumber, hparent, hhash⟩ :=
      hwell (number + 1, next) (mem_cons_of_mem _ mem_cons_self)
    refine ⟨last, hlast, ?_⟩
    have hend : number + (next :: rest).length = number + 1 + rest.length := by
      rw [length_cons]
      omega
    rw [hend]
    refine .cons hdecoded (hparent.trans hchain.1) hnumber ?_
    rw [hnumber, ← hhash]
    exact hextends

theorem Ancestry.accepted {F : Type} {fromBlock toBlock : ℕ}
    {all : List (ℕ × CachedAncestryHeader W)} {headers : List Bytes} (hrange : fromBlock ≤ toBlock)
    (hbound : toBlock < 2 ^ 64) (h : Ancestry fromBlock toBlock all headers)
    (hwell : ∀ entry ∈ all, WellFormed decodeHeader entry) :
    ∃ base anchor, (fromBlock, base) ∈ all ∧ (toBlock, anchor) ∈ all ∧
      ∀ inputs : PublicInputs W, inputs.anchorBlockNumber = toBlock →
        inputs.anchorBlockHash = anchor.hash →
        validateTempoAnchor (F := F) decodeHeader fromBlock base.hash inputs headers = .ok () := by
  obtain ⟨chain, hlength, hperm, hchain, rfl⟩ := h
  cases chain with
  | nil => cases hlength
  | cons base rest =>
    have hrest : rest.length = toBlock - fromBlock := Nat.succ.inj hlength
    obtain ⟨last, hlast, hextends⟩ := extends_of_isChain hchain fun entry hentry =>
      hwell entry (hperm.mem_iff.2 hentry)
    have hend : fromBlock + rest.length = toBlock := by omega
    refine ⟨base, last, ?_, ?_, ?_⟩
    · exact hperm.mem_iff.2 (mem_numbered.2 ⟨le_rfl, by rw [Nat.sub_self]; rfl⟩)
    · rw [hperm.mem_iff, mem_numbered, ← hrest]
      exact ⟨hrange, hlast⟩
    intro inputs hnumber hhash
    apply validateTempoAnchor_of_extends
    · rw [hnumber]
      exact hbound
    · rw [hnumber, hhash, ← hend]
      exact hextends

/-! ## L1 chains -/

/-- Canonical L1 chain up to its tip: every header is encoded, has its number and names its parent. -/
structure TempoChain (decodeHeader : Bytes → Option (TempoHeader W)) where
  tip : ℕ
  header : ℕ → TempoHeader W
  encoded : ℕ → Bytes
  tip_lt : tip < 2 ^ 64
  decoded : ∀ n, n ≤ tip → decodeHeader (encoded n) = some (header n)
  number : ∀ n, n ≤ tip → (header n).number = n
  parent : ∀ n, n < tip → (header (n + 1)).parentHash = keccak256 [.raw (encoded n)]

namespace TempoChain

variable (chain : TempoChain decodeHeader)

def hash (n : ℕ) : W := keccak256 [.raw (chain.encoded n)]

def cached (n : ℕ) : CachedAncestryHeader W where
  parentHash := (chain.header n).parentHash
  hash := chain.hash n
  encoded := chain.encoded n

def provider : L1Provider W where
  blockNumber := chain.tip
  header n := if n ≤ chain.tip then
    some ⟨chain.hash n, (chain.header n).parentHash, chain.encoded n⟩ else none

theorem provider_blockNumber : chain.provider.blockNumber = chain.tip := rfl

theorem provider_header {n : ℕ} (hn : n ≤ chain.tip) : chain.provider.header n =
    some ⟨chain.hash n, (chain.header n).parentHash, chain.encoded n⟩ := if_pos hn

def segment (first length : ℕ) : List (CachedAncestryHeader W) :=
  (range' first length).map chain.cached

/-- The headers of a segment with their numbers. -/
def entries (first length : ℕ) : List (ℕ × CachedAncestryHeader W) :=
  (range' first length).map fun n => (n, chain.cached n)

theorem mem_entries {first length n : ℕ} {header : CachedAncestryHeader W}
    (h : (n, header) ∈ chain.entries first length) : header = chain.cached n := by
  obtain ⟨_, -, heq⟩ := mem_map.1 h
  cases heq
  rfl

theorem wellFormed_entries {first length : ℕ} (hbound : first + length ≤ chain.tip + 1) :
    ∀ entry ∈ chain.entries first length, WellFormed decodeHeader entry := by
  intro entry hentry
  obtain ⟨n, hn, rfl⟩ := mem_map.1 hentry
  rw [mem_range'_1] at hn
  have htip : n ≤ chain.tip := by omega
  exact ⟨chain.header n, chain.decoded n htip, chain.number n htip, rfl, rfl⟩

theorem numbered_segment (first length : ℕ) :
    numbered first (chain.segment first length) = chain.entries first length := by
  unfold segment entries
  induction length generalizing first with
  | zero => rfl
  | succ length ih =>
    rw [range'_succ, map_cons, map_cons, ← ih (first + 1)]
    rfl

theorem segment_isChain {first length : ℕ} (hbound : first + length ≤ chain.tip + 1) :
    (chain.segment first length).IsChain ParentOf := by
  unfold segment
  induction length generalizing first with
  | zero => exact .nil
  | succ length ih =>
    cases length with
    | zero => exact .singleton _
    | succ length =>
      rw [range'_succ, map_cons]
      have hrest := @ih (first + 1) (by omega)
      rw [range'_succ, map_cons] at hrest ⊢
      exact .cons_cons (chain.parent first (by omega)) hrest

/-- A segment is the ancestry of its last block, base included. -/
theorem ancestry {fromBlock toBlock : ℕ} (hle : fromBlock ≤ toBlock) (hto : toBlock ≤ chain.tip)
    {all : List (ℕ × CachedAncestryHeader W)}
    (hperm : all.Perm (chain.entries fromBlock (toBlock - fromBlock + 1))) :
    Ancestry fromBlock toBlock all
      ((chain.segment (fromBlock + 1) (toBlock - fromBlock)).map (·.encoded)) := by
  refine ⟨chain.segment fromBlock (toBlock - fromBlock + 1), ?_, ?_,
    chain.segment_isChain (by omega), ?_⟩
  · rw [segment, length_map, length_range']
  · rwa [chain.numbered_segment]
  · rw [segment, segment, range'_succ]
    rfl

theorem fetch_eq {blocks : List ℕ} (h : ∀ n ∈ blocks, n ≤ chain.tip) :
    chain.provider.fetch blocks = .ok (blocks.map fun n => (n, chain.cached n)) := by
  induction blocks with
  | nil => rfl
  | cons n rest ih =>
    rw [L1Provider.fetch, chain.provider_header (h n mem_cons_self),
      ih fun m hm => h m (mem_cons_of_mem _ hm)]
    rfl

end TempoChain

/-! ## Caches -/

/-- A cache holds headers of the chain only. -/
def TempoChain.Agrees (chain : TempoChain decodeHeader) (cache : C) : Prop :=
  ∀ n header, peek cache n = some header → header = chain.cached n

section Caches

variable {chain : TempoChain decodeHeader} {cache : C}

theorem TempoChain.agrees_empty (chain : TempoChain decodeHeader) :
    chain.Agrees (HeaderCache.empty : C) := by
  intro n header hpeek
  rw [HeaderCache.peek_empty] at hpeek
  cases hpeek

theorem TempoChain.Agrees.commit {fetched : List (ℕ × CachedAncestryHeader W)}
    (hfetched : ∀ entry ∈ fetched, entry.2 = chain.cached entry.1) :
    ∀ {cache : C}, chain.Agrees cache →
      ∃ cache', HeaderCache.commit cache fetched = (.ok (), cache') ∧ chain.Agrees cache' := by
  induction fetched with
  | nil =>
    intro cache h
    exact ⟨cache, rfl, h⟩
  | cons entry rest ih =>
    intro cache h
    obtain ⟨n, header⟩ := entry
    have hheader : header = chain.cached n := hfetched _ mem_cons_self
    have hrest : ∀ entry ∈ rest, entry.2 = chain.cached entry.1 := fun entry hentry =>
      hfetched entry (mem_cons_of_mem _ hentry)
    rw [HeaderCache.commit]
    cases hpeek : peek cache n with
    | some existing =>
      -- two headers of one chain with one number have one hash, so there is no conflict
      have hsame : ¬ existing.hash ≠ header.hash := by rw [not_not, h n existing hpeek, hheader]
      simp only [if_neg hsame]
      exact ih hrest h
    | none =>
      have hinserted := HeaderCache.inserted cache n header
      have hagrees : chain.Agrees (HeaderCache.insert cache n header).2 := by
        intro k found hfound
        rcases HeaderCache.peek_insert hfound with ⟨rfl, rfl⟩ | hold
        · exact hheader
        · exact h k found hold
      generalize HeaderCache.insert cache n header = result at hinserted hagrees
      obtain ⟨taken, cache⟩ := result
      cases hinserted
      exact ih hrest hagrees

theorem merged_perm (h : chain.Agrees cache) {arrival : List ℕ → List ℕ}
    (harrival : ∀ blocks, (arrival blocks).Perm blocks) (range : List ℕ) :
    (range.filterMap (fun n => (peek cache n).map fun header => (n, header)) ++
      (arrival (range.filter fun n => (peek cache n).isNone)).map fun n => (n, chain.cached n)).Perm
      (range.map fun n => (n, chain.cached n)) := by
  have hcached : range.filterMap (fun n => (peek cache n).map fun header => (n, header)) =
      (range.filter fun n => (peek cache n).isSome).map fun n => (n, chain.cached n) := by
    induction range with
    | nil => rfl
    | cons n rest ih =>
      cases hpeek : peek cache n with
      | none =>
        rw [filterMap_cons_none (by rw [hpeek]; rfl),
          filter_cons_of_neg (by rw [hpeek]; exact Bool.false_ne_true), ih]
      | some header =>
        rw [filterMap_cons_some (by rw [hpeek]; rfl),
          filter_cons_of_pos (by rw [hpeek]; rfl), ih, map_cons, h n header hpeek]
  have hmissing : (fun n => (peek cache n).isNone) = fun n => !(peek cache n).isSome := by
    funext n
    cases peek cache n <;> rfl
  rw [hcached, ← map_append]
  apply List.Perm.map
  refine ((harrival _).append_left _).trans ?_
  rw [hmissing]
  exact filter_append_perm _ range

theorem fetchAncestryHeaders_eq (h : chain.Agrees cache) {timing : FetchTiming C}
    (hnow : chain.Agrees timing.cacheNow)
    (harrival : ∀ blocks, (timing.arrival blocks).Perm blocks) {fromBlock toBlock : ℕ}
    (hlt : fromBlock < toBlock) (hto : toBlock ≤ chain.tip) :
    ∃ cache', fetchAncestryHeaders chain.provider cache timing fromBlock toBlock =
      (.ok ((chain.segment (fromBlock + 1) (toBlock - fromBlock)).map (·.encoded)), cache') ∧
      chain.Agrees cache' := by
  rw [fetchAncestryHeaders, if_neg (Nat.not_le_of_lt hlt)]
  have hperm := merged_perm h harrival (range' fromBlock (toBlock - fromBlock + 1))
  have hmissing : ∀ n ∈ timing.arrival ((range' fromBlock (toBlock - fromBlock + 1)).filter
      fun n => (peek cache n).isNone), n ≤ chain.tip := by
    intro n hn
    have hrange := (mem_filter.1 ((harrival _).mem_iff.1 hn)).1
    rw [mem_range'_1] at hrange
    omega
  obtain ⟨fetchedHeaders, hresolved⟩ :=
    (resolveAncestryHeaders_ok_iff hlt.le).2 (chain.ancestry hlt.le hto hperm)
  have hcommit : ∀ entry ∈ fetchedHeaders, entry.2 = chain.cached entry.1 := by
    intro entry hentry
    exact chain.mem_entries (hperm.mem_iff.1 (resolveAncestryHeaders_fetched hresolved entry hentry))
  obtain ⟨cache', hcache, hagrees⟩ := TempoChain.Agrees.commit hcommit hnow
  refine ⟨cache', ?_, hagrees⟩
  simp only [chain.fetch_eq hmissing, hresolved, hcache]

end Caches

/-! ## Resolved anchors -/

/-- One resolution at a tip: the caches hold headers of the chain, and every missing header arrives
once. -/
structure Resolution (C : Type) [HeaderCache W C] (chain : TempoChain decodeHeader) where
  cache : C
  timing : FetchTiming C
  agrees : chain.Agrees cache
  agreesNow : chain.Agrees timing.cacheNow
  arrives : ∀ blocks, (timing.arrival blocks).Perm blocks

/-- What an anchor is for a Tempo block at the tip of a chain: the block itself while the margin is
kept, or a later block at the margin with the headers up to it. -/
inductive AnchorAt (config : BatchAnchorConfig) (chain : TempoChain decodeHeader)
    (tempoBlockNumber : ℕ) : BatchAnchor W → List Bytes → Prop
  | direct (near : chain.tip - tempoBlockNumber < config.effectiveWindow) :
      AnchorAt config chain tempoBlockNumber (.direct (chain.hash tempoBlockNumber)) []
  | ancestry {anchorBlock : ℕ} (atMargin : anchorBlock = chain.tip - config.safetyMargin)
      (newer : tempoBlockNumber < anchorBlock) :
      AnchorAt config chain tempoBlockNumber (.ancestry anchorBlock (chain.hash anchorBlock))
        ((chain.segment (tempoBlockNumber + 1) (anchorBlock - tempoBlockNumber)).map (·.encoded))

section Anchors

variable {config : BatchAnchorConfig} {chain : TempoChain decodeHeader} {tempoBlockNumber : ℕ}
  {anchor : BatchAnchor W} {headers : List Bytes}

theorem resolveBatchAnchor_eq (hhalf : 2 * config.safetyMargin < config.historyWindow)
    (htempo : tempoBlockNumber ≤ chain.tip) (r : Resolution C chain) :
    ∃ anchor headers cache',
      resolveBatchAnchor config chain.provider r.cache r.timing tempoBlockNumber =
        (.ok (anchor, headers), cache') ∧
      chain.Agrees cache' ∧ AnchorAt config chain tempoBlockNumber anchor headers := by
  rw [resolveBatchAnchor, chain.provider_blockNumber, if_neg (Nat.not_lt.2 htempo)]
  by_cases hnear : chain.tip - tempoBlockNumber < config.effectiveWindow
  · refine ⟨_, _, HeaderCache.empty, ?_, chain.agrees_empty, .direct hnear⟩
    rw [if_pos hnear, chain.provider_header htempo]
  · -- the gap is at least the window without the margin, which is more than the margin
    have hnewer : tempoBlockNumber < chain.tip - config.safetyMargin := by
      unfold effectiveWindow at hnear
      omega
    have htip : chain.tip - config.safetyMargin ≤ chain.tip := Nat.sub_le _ _
    obtain ⟨cache', hfetch, hagrees⟩ :=
      fetchAncestryHeaders_eq r.agrees r.agreesNow r.arrives hnewer htip
    refine ⟨_, _, cache', ?_, hagrees, .ancestry rfl hnewer⟩
    rw [if_neg hnear]
    simp only [hfetch, chain.provider_header htip]

theorem AnchorAt.bounds (htempo : tempoBlockNumber ≤ chain.tip)
    (h : AnchorAt config chain tempoBlockNumber anchor headers) :
    tempoBlockNumber ≤ anchor.blockNumber tempoBlockNumber ∧
      anchor.blockNumber tempoBlockNumber ≤ chain.tip ∧
      chain.tip - anchor.blockNumber tempoBlockNumber ≤
        max (config.effectiveWindow - 1) config.safetyMargin ∧
      anchor.blockHash = chain.hash (anchor.blockNumber tempoBlockNumber) := by
  cases h with
  | direct near =>
    refine ⟨le_rfl, htempo, ?_, rfl⟩
    change chain.tip - tempoBlockNumber ≤ _
    omega
  | @ancestry anchorBlock atMargin newer =>
    refine ⟨newer.le, atMargin ▸ Nat.sub_le _ _, ?_, rfl⟩
    change chain.tip - anchorBlock ≤ _
    omega

theorem AnchorAt.validated (htempo : batch.tempoBlockNumber ≤ chain.tip)
    (h : AnchorAt config chain batch.tempoBlockNumber anchor headers) :
    validatePreparedAnchor config chain.provider ⟨batch, anchor⟩ = .ok chain.tip ∧
      validateManagedAnchor config chain.provider ⟨batch, anchor⟩ = .ok () := by
  obtain ⟨hnewer, htip, hgap, hhash⟩ := h.bounds htempo
  have hmargin := config.margin_lt
  unfold effectiveWindow at hgap
  have hpredates : ¬ anchor.blockNumber batch.tempoBlockNumber < batch.tempoBlockNumber :=
    Nat.not_lt.2 hnewer
  have hahead : ¬ chain.tip < anchor.blockNumber batch.tempoBlockNumber := Nat.not_lt.2 htip
  have hwindow : chain.tip - anchor.blockNumber batch.tempoBlockNumber < config.historyWindow := by
    omega
  constructor
  · simp only [validatePreparedAnchor, ok_iff, elim_pure_eq_ok]
    exact ⟨⟨⟩, hpredates, ⟨⟩, hahead, ⟨⟩, hwindow, _, chain.provider_header htip, ⟨⟩, hhash.symm, rfl⟩
  · simp only [validateManagedAnchor, ok_iff, elim_pure_eq_ok]
    exact ⟨⟨⟩, hpredates, ⟨⟩, hahead, ⟨⟩, hwindow, _, chain.provider_header htip, hhash.symm⟩

theorem AnchorAt.proven {F : Type} (htempo : tempoBlockNumber ≤ chain.tip)
    (h : AnchorAt config chain tempoBlockNumber anchor headers) {inputs : PublicInputs W}
    (hnumber : inputs.anchorBlockNumber = anchor.blockNumber tempoBlockNumber)
    (hhash : inputs.anchorBlockHash = anchor.blockHash) :
    validateTempoAnchor (F := F) decodeHeader tempoBlockNumber (chain.hash tempoBlockNumber) inputs
      headers = .ok () := by
  have hlt := chain.tip_lt
  obtain ⟨-, htip, -, -⟩ := h.bounds htempo
  cases h with
  | direct near =>
    apply validateTempoAnchor_of_extends (by omega)
    rw [hnumber, hhash]
    exact .nil _
  | @ancestry anchorBlock atMargin newer =>
    obtain ⟨base, last, hbase, hlast, haccepted⟩ := (chain.ancestry newer.le htip (.refl _)).accepted
      (F := F) newer.le (htip.trans_lt hlt) (chain.wellFormed_entries (by omega))
    cases chain.mem_entries hbase
    cases chain.mem_entries hlast
    exact haccepted inputs hnumber hhash

/-- The history contract serves the hashes of the chain, for the last blocks before the current. -/
def ServesHistory (ctx : CallCtx W) (chain : TempoChain decodeHeader) : Prop :=
  ∀ n, n ≤ chain.tip → n < ctx.env.number → ctx.env.number ≤ n + HISTORY_SERVE_WINDOW →
    ctx.ext.getBlockHash n = chain.hash n

theorem AnchorAt.selected (hc : CollisionFree W)
    (hhalf : 2 * config.safetyMargin < config.historyWindow)
    (hserved : config.safetyMargin = 0 ∨ config.historyWindow ≤ HISTORY_SERVE_WINDOW + 1)
    (htempo : batch.tempoBlockNumber ≤ chain.tip)
    (h : AnchorAt config chain batch.tempoBlockNumber anchor headers) {ctx : CallCtx W}
    (hafter : chain.tip < ctx.env.number)
    (hmargin : ctx.env.number ≤ chain.tip + config.safetyMargin)
    (hhistory : ServesHistory ctx chain) (mode : VerifierMode) (proof : Bytes)
    (signatures : List Bytes) :
    selectAnchor ctx (submitBatchCall ⟨batch, anchor⟩ mode proof signatures) =
      .ok (anchor.blockNumber batch.tempoBlockNumber, anchor.blockHash) := by
  obtain ⟨hnewer, htip, hgap, hhash⟩ := h.bounds htempo
  unfold effectiveWindow at hgap
  have hwindow : ctx.env.number ≤ anchor.blockNumber batch.tempoBlockNumber +
      HISTORY_SERVE_WINDOW := by
    have := config.margin_lt
    omega
  have hserves := hhistory _ htip (by omega) hwindow
  have hnonzero : ctx.ext.getBlockHash (anchor.blockNumber batch.tempoBlockNumber) ≠ 0 := by
    rw [hserves]
    exact hc.keccak_ne_zero _
  rw [hhash, ← hserves]
  cases h with
  | direct near =>
    have hrecent : (submitBatchCall ⟨batch, .direct (chain.hash batch.tempoBlockNumber)⟩ mode proof
        signatures).recentTempoBlockNumber = 0 := rfl
    rw [selectAnchor, if_pos hrecent]
    simp only [ok_iff]
    exact ⟨⟨⟩, htempo.trans hafter.le, _, rfl, ⟨⟩, hnonzero, rfl⟩
  | @ancestry anchorBlock atMargin newer =>
    have hrecent : (submitBatchCall ⟨batch, .ancestry anchorBlock (chain.hash anchorBlock)⟩ mode proof
        signatures).recentTempoBlockNumber ≠ 0 := Nat.ne_of_gt (Nat.zero_lt_of_lt newer)
    rw [selectAnchor, if_neg hrecent]
    simp only [ok_iff]
    exact ⟨⟨⟩, newer, ⟨⟩, htip.trans hafter.le, _, rfl, ⟨⟩, hnonzero, rfl⟩

end Anchors

/-! ## The preparation loop -/

theorem prepareCertificate_validated {α : Type} (collection : Collection α) :
    ∃ result : Except Interruption α,
      prepareCertificate (W := W) (.ok ()) collection = result.mapError error := by
  have hticks : ∀ ticks : List (Except Interruption Unit), ∃ result : Except Interruption Unit,
      (ticks.forM fun tick => do
        (Except.ok () : Except (BatchSubmitError W) Unit)
        tick.mapError error) = result.mapError error := by
    intro ticks
    induction ticks with
    | nil => exact ⟨.ok (), rfl⟩
    | cons tick rest ih =>
      cases tick with
      | error interruption => exact ⟨.error interruption, rfl⟩
      | ok _ => exact ih
  obtain ⟨status, ticks, result⟩ := collection
  cases status with
  | error interruption => exact ⟨.error interruption, rfl⟩
  | ok _ =>
    obtain ⟨ticked, hticked⟩ := hticks ticks
    have hprepare : prepareCertificate (W := W) (.ok ()) ⟨.ok (), ticks, result⟩ =
        (ticked.mapError error >>= fun _ =>
          result.mapError error) := by
      rw [← hticked]
      rfl
    rw [hprepare]
    cases ticked with
    | error interruption => exact ⟨.error interruption, rfl⟩
    | ok _ => exact ⟨result, rfl⟩

theorem prepareLoop_interrupted {α β : Type} (result : Except Interruption α) (f : α → β)
    (rest : List (Except (BatchSubmitError W) β)) :
    prepareLoop ((do let a ← result.mapError error; pure (f a)) :: rest) =
      some (do let a ← result.mapError error; pure (f a)) := by
  cases result with
  | ok _ => rfl
  | error interruption => cases interruption <;> rfl

/-- A turn of the loop at the tip of a chain: a resolution, and what the collection of signatures
meets. -/
abbrev Turn (C : Type) [HeaderCache W C] (chain : TempoChain decodeHeader) (α : Type) :=
  Resolution C chain × Collection α

/-- The attempt that `process_finalized_batch` makes in a turn. -/
def Turn.attempt {α : Type} {chain : TempoChain decodeHeader} (config : BatchAnchorConfig)
    (batch : BatchData W) (turn : Turn C chain α) :
    Except (BatchSubmitError W) (PreparedBatch W × α) :=
  prepareAttempt config chain.provider turn.1.cache turn.1.timing batch turn.2

theorem prepareLoop_first {α : Type} {config : BatchAnchorConfig}
    (hhalf : 2 * config.safetyMargin < config.historyWindow) {chain : TempoChain decodeHeader}
    (htempo : batch.tempoBlockNumber ≤ chain.tip) (turn : Turn C chain α)
    (rest : List (Except (BatchSubmitError W) (PreparedBatch W × α))) :
    prepareLoop (turn.attempt config batch :: rest) = some (turn.attempt config batch) := by
  obtain ⟨r, collection⟩ := turn
  obtain ⟨anchor, headers, cache', hresolve, -, hat⟩ := resolveBatchAnchor_eq hhalf htempo r
  obtain ⟨result, hresult⟩ := prepareCertificate_validated (W := W) collection
  have hattempt : Turn.attempt config batch (r, collection) =
      (do let a ← result.mapError error; pure (⟨batch, anchor⟩, a)) := by
    simp only [Turn.attempt, prepareAttempt, hresolve, (hat.validated htempo).2, hresult]
  rw [hattempt]
  exact prepareLoop_interrupted result _ rest

/-- A configuration works with every L1 chain and every Tempo block up to its tip, however the needed
headers are divided into cached and fetched ones: an anchor is resolved, the submitter accepts it at
the same tip, the portal in any of the next `safetyMargin` blocks, and the batch proof accepts its
headers; the preparation loop ends at its first turn while the tip does not change. -/
def BatchAnchorConfig.Usable (config : BatchAnchorConfig) (W C F α : Type) [EvmWord W]
    [DecidableEq W] [HeaderCache W C] : Prop :=
  ∀ (decodeHeader : Bytes → Option (TempoHeader W)) (chain : TempoChain decodeHeader)
    (batch : BatchData W), batch.tempoBlockNumber ≤ chain.tip →
    (∀ r : Resolution C chain, ∃ anchor headers cache',
      resolveBatchAnchor config chain.provider r.cache r.timing batch.tempoBlockNumber =
        (.ok (anchor, headers), cache') ∧ chain.Agrees cache' ∧
      ((∃ hash, anchor = .direct hash) ∨
        ∃ n hash, anchor = .ancestry n hash ∧ batch.tempoBlockNumber < n) ∧
      validatePreparedAnchor config chain.provider ⟨batch, anchor⟩ = .ok chain.tip ∧
      (∀ ctx : CallCtx W, chain.tip < ctx.env.number →
        ctx.env.number ≤ chain.tip + config.safetyMargin → ServesHistory ctx chain →
        ∀ mode proof signatures,
          selectAnchor ctx (submitBatchCall ⟨batch, anchor⟩ mode proof signatures) =
            .ok (anchor.blockNumber batch.tempoBlockNumber, anchor.blockHash)) ∧
      ∀ inputs : PublicInputs W,
        inputs.anchorBlockNumber = anchor.blockNumber batch.tempoBlockNumber →
        inputs.anchorBlockHash = anchor.blockHash →
        validateTempoAnchor (F := F) decodeHeader batch.tempoBlockNumber
          (chain.hash batch.tempoBlockNumber) inputs headers = .ok ()) ∧
    ∀ (turn : Turn C chain α) rest,
      prepareLoop (turn.attempt config batch :: rest) = some (turn.attempt config batch)

/-! ## Configurations that do not work -/

/-- Headers whose encoding has their number as its length. -/
def lengthHeader (n : ℕ) : TempoHeader W where
  parentHash := keccak256 [.raw (replicate (n - 1) 0)]
  number := n
  stateRoot := 0
  timestamp := n
  timestampMillisPart := 0

def decodeLength (rlp : Bytes) : Option (TempoHeader W) := some (lengthHeader rlp.length)

/-- A chain with any tip. -/
def lengthChain (tip : ℕ) (tip_lt : tip < 2 ^ 64) : TempoChain (decodeLength (W := W)) where
  tip := tip
  header := lengthHeader
  encoded n := replicate n 0
  tip_lt := tip_lt
  decoded := fun n _ => by rw [decodeLength, length_replicate]
  number := fun _ _ => rfl
  parent := fun _ _ => rfl

def coldCache (chain : TempoChain decodeHeader) : Resolution C chain where
  cache := HeaderCache.empty
  timing := ⟨id, HeaderCache.empty⟩
  agrees := chain.agrees_empty
  agreesNow := chain.agrees_empty
  arrives := fun _ => .refl _

def anchoredBatch (tempoBlockNumber : ℕ) : BatchData W where
  zoneHeight := 1
  tempoBlockNumber := tempoBlockNumber
  prevBlockHash := 0
  nextBlockHash := 0
  prevProcessedDepositHash := 0
  nextProcessedDepositHash := 0
  prevDepositNumber := 0
  nextDepositNumber := 0
  prevProcessedTokenCount := 0
  nextProcessedTokenCount := 0
  withdrawalQueueHash := 0
  withdrawalBatchIndex := 1

/-- The history contract answers zero outside of what it serves. -/
def servingCtx (chain : TempoChain decodeHeader) (env : BlockEnv) : CallCtx W where
  env
  ext :=
    { self := 0
      zones := fun _ => 0
      recover := fun _ _ => none
      verify := fun _ => false
      getBlockHash := fun n =>
        if n < env.number ∧ env.number ≤ n + HISTORY_SERVE_WINDOW then chain.hash n else 0
      isTIP20 := fun _ => false
      metadata := fun token => ⟨token, [], [], []⟩
      transferPolicyIsSet := fun _ => false
      transferPolicyMigrates := fun _ => false
      isAuthorizedRecipient := fun _ _ => false
      ecrecover := fun _ _ _ _ => 0 }

section Unusable

variable {config : BatchAnchorConfig} {F α : Type} (h : config.Usable W C F α)
include h

/-- At tip `historyWindow` the anchor of block `safetyMargin` would not be newer than it. -/
theorem BatchAnchorConfig.Usable.half (hbound : config.historyWindow < 2 ^ 64) :
    2 * config.safetyMargin < config.historyWindow := by
  by_contra hhalf
  have hmargin := config.margin_lt
  let chain := lengthChain (W := W) config.historyWindow hbound
  obtain ⟨anchor, headers, cache', hresolve, -, hshape, -⟩ :=
    (h _ chain (anchoredBatch config.safetyMargin) hmargin.le).1 (coldCache chain)
  have hancestry : resolveBatchAnchor config chain.provider (HeaderCache.empty : C)
      ⟨id, HeaderCache.empty⟩ config.safetyMargin =
      (.ok (.ancestry (config.historyWindow - config.safetyMargin)
        (chain.hash (config.historyWindow - config.safetyMargin)), []), HeaderCache.empty) := by
    have htip : chain.tip = config.historyWindow := rfl
    rw [resolveBatchAnchor, chain.provider_blockNumber, htip, if_neg (Nat.not_lt.2 hmargin.le),
      effectiveWindow, if_neg (lt_irrefl _)]
    simp only [fetchAncestryHeaders]
    rw [if_pos (by omega), chain.provider_header (htip ▸ Nat.sub_le _ _)]
  cases hancestry.symm.trans hresolve
  rcases hshape with ⟨hash, hdirect⟩ | ⟨n, hash, heq, hnewer⟩
  · cases hdirect
  · cases heq
    change config.safetyMargin < config.historyWindow - config.safetyMargin at hnewer
    omega

/-- At tip 8192 a direct anchor is not served any more when the margin has passed. -/
theorem BatchAnchorConfig.Usable.served (hmargin : config.safetyMargin ≠ 0) :
    config.historyWindow ≤ HISTORY_SERVE_WINDOW + 1 := by
  by_contra hserved
  have hlt := config.margin_lt
  have hwindow : HISTORY_SERVE_WINDOW = 8191 := rfl
  let chain := lengthChain (W := W) 8192 (by decide)
  let tempo := min config.safetyMargin 8192
  have htempo : tempo ≤ chain.tip := Nat.min_le_right _ _
  obtain ⟨anchor, headers, cache', hresolve, -, -, -, hportal, -⟩ :=
    (h _ chain (anchoredBatch tempo) htempo).1 (coldCache chain)
  have hnear : chain.tip - tempo < config.effectiveWindow := by
    change 8192 - min config.safetyMargin 8192 < config.historyWindow - config.safetyMargin
    omega
  have hdirect : resolveBatchAnchor config chain.provider (HeaderCache.empty : C)
      ⟨id, HeaderCache.empty⟩ tempo = (.ok (.direct (chain.hash tempo), []), HeaderCache.empty) := by
    rw [resolveBatchAnchor, chain.provider_blockNumber, if_neg (Nat.not_lt.2 htempo), if_pos hnear,
      chain.provider_header htempo]
  cases hdirect.symm.trans hresolve
  have hlate : tempo + 8192 < 2 ^ 64 := by omega
  let env : BlockEnv := ⟨tempo + 8192, 0, 0, 1, hlate, by decide, by decide⟩
  have hselect := hportal (servingCtx chain env)
    (by change 8192 < min config.safetyMargin 8192 + 8192; omega)
    (by change min config.safetyMargin 8192 + 8192 ≤ 8192 + config.safetyMargin; omega)
    (fun n hn hbefore hwindow => if_pos ⟨hbefore, hwindow⟩) .noProof [] []
  have hzero : (servingCtx chain env).ext.getBlockHash tempo = 0 :=
    if_neg (show ¬ (tempo < tempo + 8192 ∧ tempo + 8192 ≤ tempo + 8191) by omega)
  have hrecent : (submitBatchCall ⟨anchoredBatch tempo, .direct (chain.hash tempo)⟩ .noProof []
      []).recentTempoBlockNumber = 0 := rfl
  rw [selectAnchor, if_pos hrecent] at hselect
  simp only [ok_iff] at hselect
  obtain ⟨-, -, hash, rfl, -, hnonzero, -⟩ := hselect
  exact hnonzero hzero

end Unusable

/-! ## Main result -/

/-- **Batch anchors are usable.** A configuration of two 64-bit numbers that the constructor accepts
works in every situation exactly if the margin is less than half of the window and, unless the
margin is zero, the history contract still serves the last block of the window when the margin has
passed. Any two lists of headers resolve exactly if together they are complete, without duplicates
and linked, whatever their order and division, and the batch proof accepts the result. -/
theorem batch_anchor_usable (hc : CollisionFree W) {historyWindow safetyMargin : ℕ}
    {config : BatchAnchorConfig} (hnew : new historyWindow safetyMargin = .ok config)
    (hbound : historyWindow < 2 ^ 64) (C F α : Type) [HeaderCache W C] :
    (config.Usable W C F α ↔ 2 * safetyMargin < historyWindow ∧
      (safetyMargin = 0 ∨ historyWindow ≤ HISTORY_SERVE_WINDOW + 1)) ∧
    ∀ (decodeHeader : Bytes → Option (TempoHeader W)) (fromBlock toBlock : ℕ),
      fromBlock ≤ toBlock → toBlock < 2 ^ 64 →
      ∀ (cached fetched : List (ℕ × CachedAncestryHeader W)),
        (∀ headers, (∃ fetchedHeaders, resolveAncestryHeaders fromBlock toBlock cached fetched =
            .ok ⟨headers, fetchedHeaders⟩) ↔
          Ancestry fromBlock toBlock (cached ++ fetched) headers) ∧
        (∀ cached' fetched' headers, (cached ++ fetched).Perm (cached' ++ fetched') →
          ((∃ fetchedHeaders, resolveAncestryHeaders fromBlock toBlock cached fetched =
              .ok ⟨headers, fetchedHeaders⟩) ↔
            ∃ fetchedHeaders, resolveAncestryHeaders fromBlock toBlock cached' fetched' =
              .ok ⟨headers, fetchedHeaders⟩)) ∧
        ∀ headers, Ancestry fromBlock toBlock (cached ++ fetched) headers →
          (∀ entry ∈ cached ++ fetched, WellFormed decodeHeader entry) →
          ∃ base anchor, (fromBlock, base) ∈ cached ++ fetched ∧
            (toBlock, anchor) ∈ cached ++ fetched ∧ ∀ inputs : PublicInputs W,
              inputs.anchorBlockNumber = toBlock → inputs.anchorBlockHash = anchor.hash →
              validateTempoAnchor (F := F) decodeHeader fromBlock base.hash inputs headers =
                .ok () := by
  -- the constructor keeps both limits
  have hconfig : config.historyWindow = historyWindow ∧ config.safetyMargin = safetyMargin := by
    unfold new at hnew
    split at hnew
    · cases hnew
    · split at hnew
      · cases hnew
      · cases hnew
        exact ⟨rfl, rfl⟩
  obtain ⟨rfl, rfl⟩ := hconfig
  refine ⟨⟨fun husable => ⟨husable.half hbound, ?_⟩, ?_⟩, ?_⟩
  · exact or_iff_not_imp_left.2 husable.served
  · rintro ⟨hhalf, hserved⟩ decodeHeader chain batch htempo
    refine ⟨?_, fun turn rest => prepareLoop_first hhalf htempo turn rest⟩
    intro r
    obtain ⟨anchor, headers, cache', hresolve, hagrees, hat⟩ := resolveBatchAnchor_eq hhalf htempo r
    refine ⟨anchor, headers, cache', hresolve, hagrees, ?_, (hat.validated htempo).1, ?_, ?_⟩
    · cases hat with
      | direct near => exact .inl ⟨_, rfl⟩
      | ancestry atMargin newer => exact .inr ⟨_, _, rfl, newer⟩
    · intro ctx hafter hmargin hhistory mode proof signatures
      exact hat.selected hc hhalf hserved htempo hafter hmargin hhistory mode proof signatures
    · intro inputs hnumber hhash
      exact hat.proven htempo hnumber hhash
  · intro decodeHeader fromBlock toBlock hrange hbound cached fetched
    refine ⟨fun headers => resolveAncestryHeaders_ok_iff hrange, ?_, ?_⟩
    · intro cached' fetched' headers hperm
      rw [resolveAncestryHeaders_ok_iff hrange, resolveAncestryHeaders_ok_iff hrange]
      constructor
      · rintro ⟨chain, hlength, hchain, hlinked, hheaders⟩
        exact ⟨chain, hlength, hperm.symm.trans hchain, hlinked, hheaders⟩
      · rintro ⟨chain, hlength, hchain, hlinked, hheaders⟩
        exact ⟨chain, hlength, hperm.trans hchain, hlinked, hheaders⟩
    · intro headers hancestry hwell
      exact hancestry.accepted hrange hbound hwell

/-- A cache that keeps everything. -/
instance : HeaderCache W (List (ℕ × CachedAncestryHeader W)) where
  empty := []
  peek cache n := (cache.find? fun entry => decide (entry.1 = n)).map Prod.snd
  insert cache n header := (true, (n, header) :: cache)
  peek_empty := fun _ => rfl
  inserted := fun _ _ _ => rfl
  peek_insert := by
    intro cache n header k found h
    by_cases hk : n = k
    · simp only [find?_cons, hk, decide_true] at h
      exact .inl ⟨hk.symm, (Option.some.inj h).symm⟩
    · simp only [find?_cons, hk, decide_false] at h
      exact .inr h

end TempoZones.Settle

namespace TempoZones.Example

open TempoZones.Lib TempoZones.Settle TempoZones.Spf

/-- A window of ten blocks, of which `safetyMargin` are kept. -/
def tenBlocks (safetyMargin : ℕ) (h : safetyMargin < 10) : BatchAnchorConfig := ⟨10, safetyMargin, h⟩

/-- Twenty blocks. -/
def shortChain : TempoChain (decodeLength (W := Sym)) := lengthChain 20 (by decide)

/-- The cache holds block 14 already. -/
def warmCache : Resolution (List (ℕ × CachedAncestryHeader Sym)) shortChain where
  cache := [(14, shortChain.cached 14)]
  timing := ⟨id, []⟩
  agrees := by
    intro n header h
    obtain ⟨entry, hentry, rfl⟩ := Option.map_eq_some_iff.1 h
    have hn : entry.1 = n := by simpa using List.find?_some hentry
    obtain rfl := List.mem_singleton.1 (List.mem_of_find?_eq_some hentry)
    rw [← hn]
  agreesNow := nofun
  arrives := fun _ => .refl _

end TempoZones.Example

namespace TempoZones.Settle

open Lib Spf

/-- With a margin of 4 of 10 blocks, block 12 is anchored at block 16 of tip 20. -/
theorem batch_anchor_usable_example :
    ∃ anchor headers cache', resolveBatchAnchor (Example.tenBlocks 4 (by decide))
        Example.shortChain.provider Example.warmCache.cache Example.warmCache.timing 12 =
          (.ok (anchor, headers), cache') ∧
      validatePreparedAnchor (Example.tenBlocks 4 (by decide)) Example.shortChain.provider
        ⟨anchoredBatch 12, anchor⟩ = .ok 20 := by
  obtain ⟨anchor, headers, cache', hresolve, -, -, hvalid, -⟩ :=
    (((batch_anchor_usable Sym.collisionFree (BatchAnchorConfig.new_ok (Example.tenBlocks 4 (by decide))) (by decide)
      _ Unit Unit).1.2 (by decide)) _ Example.shortChain (anchoredBatch 12) (by decide)).1
      Example.warmCache
  exact ⟨anchor, headers, cache', hresolve, hvalid⟩

/-- With a margin of 9 of 10 blocks, block 19 is anchored at block 11 of tip 20. The anchor is rejected
at the same tip, and the loop does not end. -/
theorem large_margin_rebuilds :
    BatchAnchorConfig.new 10 9 = .ok (Example.tenBlocks 9 (by decide)) ∧
      (resolveBatchAnchor (Example.tenBlocks 9 (by decide)) Example.shortChain.provider
        Example.warmCache.cache Example.warmCache.timing 19).1 =
          .ok (.ancestry 11 (Example.shortChain.hash 11), []) ∧
      validatePreparedAnchor (Example.tenBlocks 9 (by decide)) Example.shortChain.provider
        ⟨anchoredBatch 19, .ancestry 11 (Example.shortChain.hash 11)⟩ =
          .error (.preparedAnchorInvalid .anchorPredatesTempoBlock) ∧
      ∀ n, prepareLoop (List.replicate n (Turn.attempt (Example.tenBlocks 9 (by decide))
        (anchoredBatch 19) (Example.warmCache, ⟨.ok (), [], .ok ()⟩))) = none := by
  refine ⟨rfl, rfl, rfl, ?_⟩
  intro n
  induction n with
  | zero => rfl
  | succ n ih => exact ih

end TempoZones.Settle
