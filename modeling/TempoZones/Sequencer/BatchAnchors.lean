import TempoZones.Lib.NumberedTable
import TempoZones.Sequencer.Attestation

/-!
# Anchors of batches

The portal reads anchor hashes from the history contract, which serves the last
`HISTORY_SERVE_WINDOW` blocks. A recent Tempo block is the anchor itself; an older one is connected
to a recent anchor by the headers in between, cached or fetched (`resolveBatchAnchor`). Merged
headers resolve exactly when they are one chain over the range, in whatever order they come
(`resolveAncestryHeaders_ok_iff`).
-/

namespace TempoZones.Settle

open Lib List

variable {W C : Type} [EvmWord W] [DecidableEq W]

/-! ## Configuration -/

def HISTORY_SERVE_WINDOW : ℕ := 8191

def DEFAULT_EIP2935_SAFETY_MARGIN : ℕ := 360

inductive AnchorConfigError where
  | zeroWindow
  | marginTooLarge (safetyMargin historyWindow : ℕ)

/-- `BatchAnchorConfig`, with what its constructor checks. -/
structure BatchAnchorConfig where
  historyWindow : ℕ
  safetyMargin : ℕ
  margin_lt : safetyMargin < historyWindow

namespace BatchAnchorConfig

def new (historyWindow safetyMargin : ℕ) : Except AnchorConfigError BatchAnchorConfig :=
  if historyWindow = 0 then .error .zeroWindow
  else if h : historyWindow ≤ safetyMargin then .error (.marginTooLarge safetyMargin historyWindow)
  else .ok ⟨historyWindow, safetyMargin, Nat.lt_of_not_le h⟩

def effectiveWindow (c : BatchAnchorConfig) : ℕ := c.historyWindow - c.safetyMargin

def default : BatchAnchorConfig := ⟨HISTORY_SERVE_WINDOW, DEFAULT_EIP2935_SAFETY_MARGIN, by decide⟩

theorem new_ok (c : BatchAnchorConfig) : new c.historyWindow c.safetyMargin = .ok c := by
  have hmargin := c.margin_lt
  rw [new, if_neg (by omega), dif_neg (by omega)]

end BatchAnchorConfig

/-! ## Merging headers -/

structure CachedAncestryHeader (W : Type) where
  parentHash : W
  hash : W
  encoded : Bytes

inductive AncestryError (W : Type) where
  | outOfRange (blockNumber fromBlock toBlock : ℕ)
  | duplicate (blockNumber : ℕ)
  | notFound (blockNumber : ℕ)
  | chainBroken (blockNumber : ℕ) (expected actual : W)
  | conflicting (blockNumber : ℕ) (cached fetched : W)
  | cacheRefused (blockNumber : ℕ)
  | notConfirmed (tempoBlockNumber tip : ℕ)

/-- A complete, ordered, parent-linked ancestry range. -/
structure ResolvedAncestry (W : Type) where
  headers : List Bytes
  fetchedHeaders : List (ℕ × CachedAncestryHeader W)

abbrev MergedHeaders (W : Type) := List (Option (CachedAncestryHeader W × Bool))

/-- Closure `insert` of `resolve_ancestry_headers`. -/
def insertHeader (fromBlock toBlock : ℕ) (wasFetched : Bool) (merged : MergedHeaders W)
    (entry : ℕ × CachedAncestryHeader W) : Except (AncestryError W) (MergedHeaders W) :=
  if ¬ (fromBlock ≤ entry.1 ∧ entry.1 ≤ toBlock) then
    .error (.outOfRange entry.1 fromBlock toBlock)
  else
    match merged[entry.1 - fromBlock]? with
    | some (some _) => .error (.duplicate entry.1)
    | _ => .ok (merged.set (entry.1 - fromBlock) (some (entry.2, wasFetched)))

def linkHeaders (parentHash : W) (blockNumber : ℕ) :
    MergedHeaders W → Except (AncestryError W) (ResolvedAncestry W)
  | [] => pure ⟨[], []⟩
  | none :: _ => .error (.notFound blockNumber)
  | some (header, wasFetched) :: rest => do
      require (header.parentHash = parentHash)
        (AncestryError.chainBroken blockNumber parentHash header.parentHash)
      let linked ← linkHeaders header.hash (blockNumber + 1) rest
      pure ⟨header.encoded :: linked.headers,
        if wasFetched then (blockNumber, header) :: linked.fetchedHeaders else linked.fetchedHeaders⟩

def resolveAncestryHeaders (fromBlock toBlock : ℕ)
    (cached fetched : List (ℕ × CachedAncestryHeader W)) :
    Except (AncestryError W) (ResolvedAncestry W) := do
  let rangeLen := toBlock - fromBlock + 1
  let merged ← cached.foldlM (insertHeader fromBlock toBlock false) (List.replicate rangeLen none)
  let merged ← fetched.foldlM (insertHeader fromBlock toBlock true) merged
  match merged with
  | some (base, baseWasFetched) :: rest => do
      let linked ← linkHeaders base.hash (fromBlock + 1) rest
      pure ⟨linked.headers, if baseWasFetched then (fromBlock, base) :: linked.fetchedHeaders
        else linked.fetchedHeaders⟩
  | _ => .error (.notFound fromBlock)

/-! ## Cache -/

/-- The cache of headers, a bounded map of a library outside the repository. It takes every header;
a lookup finds what was inserted last for the number, or nothing when that was evicted. -/
class HeaderCache (W : outParam Type) (C : Type) where
  empty : C
  peek : C → ℕ → Option (CachedAncestryHeader W)
  insert : C → ℕ → CachedAncestryHeader W → Bool × C
  peek_empty : ∀ n, peek empty n = none
  inserted : ∀ cache n header, (insert cache n header).1 = true
  peek_insert : ∀ {cache n header k found}, peek (insert cache n header).2 k = some found →
    (k = n ∧ found = header) ∨ peek cache k = some found

variable [HeaderCache W C]

namespace HeaderCache

/-- Commit of the fetched headers: an entry that another task added meanwhile has to be the same. -/
def commit (cache : C) : List (ℕ × CachedAncestryHeader W) → Except (AncestryError W) Unit × C
  | [] => (.ok (), cache)
  | (blockNumber, header) :: rest =>
    match peek cache blockNumber with
    | some existing =>
      if existing.hash ≠ header.hash then
        (.error (.conflicting blockNumber existing.hash header.hash), cache)
      else commit cache rest
    | none =>
      match insert cache blockNumber header with
      | (true, cache) => commit cache rest
      | (false, cache) => (.error (.cacheRefused blockNumber), cache)

end HeaderCache

open HeaderCache (peek)

/-! ## Resolving an anchor -/

structure RpcHeader (W : Type) where
  hash : W
  parentHash : W
  encoded : Bytes

structure L1Provider (W : Type) where
  blockNumber : ℕ
  header : ℕ → Option (RpcHeader W)

def RpcHeader.cached (header : RpcHeader W) : CachedAncestryHeader W where
  parentHash := header.parentHash
  hash := keccak256 [.raw header.encoded]
  encoded := header.encoded

def L1Provider.fetch (l1 : L1Provider W) :
    List ℕ → Except (AncestryError W) (List (ℕ × CachedAncestryHeader W))
  | [] => pure []
  | blockNumber :: rest =>
    match l1.header blockNumber with
    | none => .error (.notFound blockNumber)
    | some header => do
        let fetched ← L1Provider.fetch l1 rest
        pure ((blockNumber, header.cached) :: fetched)

/-- Timing of one fetch: the order in which responses arrive, and the cache when they are
committed. -/
structure FetchTiming (C : Type) where
  arrival : List ℕ → List ℕ
  cacheNow : C

def fetchAncestryHeaders (l1 : L1Provider W) (cache : C) (timing : FetchTiming C)
    (fromBlock toBlock : ℕ) : Except (AncestryError W) (List Bytes) × C :=
  if toBlock ≤ fromBlock then (.ok [], cache)
  else
    let range := List.range' fromBlock (toBlock - fromBlock + 1)
    let cached := range.filterMap fun n => (peek cache n).map fun header => (n, header)
    let missing := range.filter fun n => (peek cache n).isNone
    match l1.fetch (timing.arrival missing) with
    | .error e => (.error e, timing.cacheNow)
    | .ok fetched =>
      match resolveAncestryHeaders fromBlock toBlock cached fetched with
      | .error e => (.error e, timing.cacheNow)
      | .ok resolved =>
        match HeaderCache.commit timing.cacheNow resolved.fetchedHeaders with
        | (.error e, cache') => (.error e, cache')
        | (.ok (), cache') => (.ok resolved.headers, cache')

/-- `resolve_batch_anchor`: the anchor with its ancestry headers, and the cache. -/
def resolveBatchAnchor (config : BatchAnchorConfig) (l1 : L1Provider W) (cache : C)
    (timing : FetchTiming C) (tempoBlockNumber : ℕ) :
    Except (AncestryError W) (BatchAnchor W × List Bytes) × C :=
  if l1.blockNumber < tempoBlockNumber then
    (.error (.notConfirmed tempoBlockNumber l1.blockNumber), cache)
  else if l1.blockNumber - tempoBlockNumber < config.effectiveWindow then
    match l1.header tempoBlockNumber with
    | none => (.error (.notFound tempoBlockNumber), HeaderCache.empty)
    | some header => (.ok (.direct header.hash, []), HeaderCache.empty)
  else
    let anchorBlock := l1.blockNumber - config.safetyMargin
    match fetchAncestryHeaders l1 cache timing tempoBlockNumber anchorBlock with
    | (.error e, cache') => (.error e, cache')
    | (.ok headers, cache') =>
      match l1.header anchorBlock with
      | none => (.error (.notFound anchorBlock), cache')
      | some header => (.ok (.ancestry anchorBlock header.hash, headers), cache')

/-! ## Checks of a prepared anchor -/

inductive BatchSubmitError (W : Type) where
  | portalAdvanced
  | preparedAnchorInvalid (reason : SettleError)
  | proverHardforkChanged
  | other (reason : SettleError)
  | ancestry (reason : AncestryError W)

/-- `validate_prepared_anchor` of the submitter. -/
def validatePreparedAnchor (config : BatchAnchorConfig) (l1 : L1Provider W)
    (prepared : PreparedBatch W) : Except (BatchSubmitError W) ℕ := do
  let anchorBlockNumber := prepared.anchorBlockNumber
  require (¬ anchorBlockNumber < prepared.batch.tempoBlockNumber)
    (.preparedAnchorInvalid .anchorPredatesTempoBlock)
  require (¬ l1.blockNumber < anchorBlockNumber) (.other .anchorAheadOfTip)
  require (l1.blockNumber - anchorBlockNumber < config.historyWindow)
    (.preparedAnchorInvalid .anchorOutsideWindow)
  let canonical ← (l1.header anchorBlockNumber).elim (.error (.other .anchorMissing)) pure
  require (canonical.hash = prepared.anchor.blockHash)
    (.preparedAnchorInvalid .anchorNotCanonical)
  pure l1.blockNumber

/-- `validate_anchor` of the settlement manager. -/
def validateManagedAnchor (config : BatchAnchorConfig) (l1 : L1Provider W)
    (prepared : PreparedBatch W) : Except (BatchSubmitError W) Unit := do
  let anchorBlockNumber := prepared.anchorBlockNumber
  require (¬ anchorBlockNumber < prepared.batch.tempoBlockNumber)
    (.preparedAnchorInvalid .anchorPredatesTempoBlock)
  require (¬ l1.blockNumber < anchorBlockNumber)
    (.preparedAnchorInvalid .anchorAheadOfTip)
  require (l1.blockNumber - anchorBlockNumber < config.historyWindow)
    (.preparedAnchorInvalid .anchorOutsideWindow)
  let canonical ← (l1.header anchorBlockNumber).elim (.error (.other .anchorMissing)) pure
  require (canonical.hash = prepared.anchor.blockHash)
    (.preparedAnchorInvalid .anchorNotCanonical)

/-! ## Preparation -/

inductive Interruption where
  | portalAdvanced
  | failed (reason : SettleError)

def Interruption.error : Interruption → BatchSubmitError W
  | .portalAdvanced => .portalAdvanced
  | .failed reason => .other reason

/-- Other reads of one preparation: the portal status before the first check, the portal status and
the broadcast at every later tick, and how the collection ends. -/
structure Collection (α : Type) where
  status : Except Interruption Unit
  ticks : List (Except Interruption Unit)
  result : Except Interruption α

/-- `prepare` of the settlement manager, with `validate` for each check of the anchor. -/
def prepareCertificate {α : Type} (validate : Except (BatchSubmitError W) Unit)
    (collection : Collection α) : Except (BatchSubmitError W) α := do
  collection.status.mapError Interruption.error
  validate
  collection.ticks.forM fun tick => do
    validate
    tick.mapError Interruption.error
  collection.result.mapError Interruption.error

/-- One turn of the loop of `process_finalized_batch` at an unchanged tip. -/
def prepareAttempt {α : Type} (config : BatchAnchorConfig) (l1 : L1Provider W)
    (cache : C) (timing : FetchTiming C) (batch : BatchData W)
    (collection : Collection α) : Except (BatchSubmitError W) (PreparedBatch W × α) :=
  match (resolveBatchAnchor config l1 cache timing batch.tempoBlockNumber).1 with
  | .error e => .error (.ancestry e)
  | .ok (anchor, _) => do
      let certificate ← prepareCertificate
        (validateManagedAnchor config l1 ⟨batch, anchor⟩) collection
      pure (⟨batch, anchor⟩, certificate)

/-- Loop of `process_finalized_batch` over its attempts: `none` when all of them were rebuilt. -/
def prepareLoop {α : Type} :
    List (Except (BatchSubmitError W) α) → Option (Except (BatchSubmitError W) α)
  | [] => none
  | .error (.preparedAnchorInvalid _) :: rest => prepareLoop rest
  | .error .proverHardforkChanged :: rest => prepareLoop rest
  | result :: _ => some result

/-! ## Merged headers -/

abbrev ParentOf (header child : CachedAncestryHeader W) : Prop := child.parentHash = header.hash

section Merge

variable {fromBlock toBlock : ℕ} {wasFetched : Bool} {merged merged' : MergedHeaders W}
  {entries : List (ℕ × (CachedAncestryHeader W × Bool))}

def tagged (wasFetched : Bool) (entry : ℕ × CachedAncestryHeader W) :
    ℕ × (CachedAncestryHeader W × Bool) := (entry.1, (entry.2, wasFetched))

theorem map_fst_tagged (added : List (ℕ × CachedAncestryHeader W)) :
    (added.map (tagged wasFetched)).map Prod.fst = added.map Prod.fst := by
  rw [map_map]
  rfl

theorem insertHeader_ok_iff (h : Tabulates fromBlock merged entries)
    {entry : ℕ × CachedAncestryHeader W} :
    insertHeader fromBlock toBlock wasFetched merged entry = .ok merged' ↔
      (fromBlock ≤ entry.1 ∧ entry.1 ≤ toBlock) ∧ entry.1 ∉ entries.map Prod.fst ∧
        merged' = merged.set (entry.1 - fromBlock) (some (entry.2, wasFetched)) := by
  unfold insertHeader
  by_cases hrange : fromBlock ≤ entry.1 ∧ entry.1 ≤ toBlock
  · rw [if_neg (not_not.2 hrange)]
    -- the slot of a number is taken exactly if the number was inserted before
    have hslot : (∃ a, merged[entry.1 - fromBlock]? = some (some a)) ↔
        entry.1 ∈ entries.map Prod.fst := by
      constructor
      · rintro ⟨a, ha⟩
        exact mem_map.2 ⟨_, (h.entry hrange.1).1 ha, rfl⟩
      · intro hmem
        obtain ⟨⟨n, a⟩, hmem, rfl⟩ := mem_map.1 hmem
        exact ⟨a, (h.entry hrange.1).2 hmem⟩
    split
    · next a ha =>
      constructor
      · rintro ⟨⟩
      · rintro ⟨-, hnew, -⟩
        exact absurd (hslot.1 ⟨a, ha⟩) hnew
    · next hfree =>
      constructor
      · intro hok
        cases hok
        exact ⟨hrange, fun hmem => (hslot.2 hmem).elim fun a ha => hfree a ha, rfl⟩
      · rintro ⟨-, -, rfl⟩
        rfl
  · rw [if_pos hrange]
    constructor
    · rintro ⟨⟩
    · rintro ⟨hin, -⟩
      exact absurd hin hrange

/-- A loop of insertions tabulates what it inserted, and it succeeds when the numbers are in the range
and different. -/
theorem insertHeaders_spec {added : List (ℕ × CachedAncestryHeader W)} :
    ∀ {merged : MergedHeaders W} {entries : List (ℕ × (CachedAncestryHeader W × Bool))},
      Tabulates fromBlock merged entries → merged.length = toBlock - fromBlock + 1 →
      (∀ merged', added.foldlM (insertHeader fromBlock toBlock wasFetched) merged = .ok merged' →
        Tabulates fromBlock merged' (entries ++ added.map (tagged wasFetched)) ∧
          merged'.length = toBlock - fromBlock + 1) ∧
      ((entries.map Prod.fst ++ added.map Prod.fst).Nodup →
        (∀ n ∈ added.map Prod.fst, fromBlock ≤ n ∧ n ≤ toBlock) →
        ∃ merged', added.foldlM (insertHeader fromBlock toBlock wasFetched) merged = .ok merged') := by
  -- the table and what it holds change with every insertion, so both stay general
  induction added with
  | nil =>
    intro merged entries h hlength
    refine ⟨?_, fun _ _ => ⟨merged, rfl⟩⟩
    intro merged' hok
    cases hok
    rw [map_nil, append_nil]
    exact ⟨h, hlength⟩
  | cons entry rest ih =>
    intro merged entries h hlength
    have hstep : ∀ merged₁, insertHeader fromBlock toBlock wasFetched merged entry = .ok merged₁ →
        Tabulates fromBlock merged₁ (entries ++ [tagged wasFetched entry]) ∧
          merged₁.length = toBlock - fromBlock + 1 := by
      intro merged₁ hok
      obtain ⟨hrange, hnew, rfl⟩ := (insertHeader_ok_iff h).1 hok
      rw [length_set]
      exact ⟨h.place _ (by omega) hnew, hlength⟩
    constructor
    · intro merged' hok
      rw [foldlM_cons] at hok
      obtain ⟨merged₁, hfirst, hrest⟩ := bind_ok_iff.1 hok
      obtain ⟨htab, hlength₁⟩ := hstep merged₁ hfirst
      have hresult := (ih htab hlength₁).1 merged' hrest
      rwa [append_assoc] at hresult
    · intro hnodup hin
      have hnew : entry.1 ∉ entries.map Prod.fst := by
        intro hmem
        exact disjoint_of_nodup_append hnodup hmem mem_cons_self
      have hfirst : insertHeader fromBlock toBlock wasFetched merged entry = .ok _ :=
        (insertHeader_ok_iff h).2 ⟨hin entry.1 mem_cons_self, hnew, rfl⟩
      obtain ⟨htab, hlength₁⟩ := hstep _ hfirst
      obtain ⟨merged', hrest⟩ := (ih htab hlength₁).2 (by
          rw [map_append, append_assoc]
          exact hnodup)
        fun n hn => hin n (mem_cons_of_mem _ hn)
      refine ⟨merged', ?_⟩
      rw [foldlM_cons, hfirst]
      exact hrest

theorem linkHeaders_ok_iff {table : MergedHeaders W} :
    ∀ {base : CachedAncestryHeader W} {blockNumber : ℕ} {linked : ResolvedAncestry W},
      linkHeaders base.hash blockNumber table = .ok linked ↔
        ∃ chain : List (CachedAncestryHeader W × Bool), table = chain.map some ∧
          List.IsChain ParentOf (base :: chain.map Prod.fst) ∧
          linked.headers = chain.map (·.1.encoded) ∧
          linked.fetchedHeaders = ((numbered blockNumber chain).filter (·.2.2)).map
            fun entry => (entry.1, entry.2.1) := by
  -- along the table; `base` is the header linked last
  induction table with
  | nil =>
    intro base blockNumber linked
    constructor
    · intro h
      cases h
      exact ⟨[], rfl, .singleton base, rfl, rfl⟩
    · rintro ⟨chain, htable, -, hheaders, hfetched⟩
      obtain rfl := map_eq_nil_iff.1 htable.symm
      obtain ⟨headers, fetchedHeaders⟩ := linked
      cases hheaders
      cases hfetched
      rfl
  | cons slot rest ih =>
    intro base blockNumber linked
    cases slot with
    | none =>
      constructor
      · rintro ⟨⟩
      · rintro ⟨chain, htable, -⟩
        cases chain <;> cases htable
    | some entry =>
      obtain ⟨header, wasFetched⟩ := entry
      simp only [linkHeaders, ok_iff]
      constructor
      · rintro ⟨-, hparent, linked', hrest, rfl⟩
        obtain ⟨chain, rfl, hchain, hheaders, hfetched⟩ := ih.1 hrest
        refine ⟨(header, wasFetched) :: chain, rfl, .cons_cons hparent hchain, ?_, ?_⟩
        · exact congrArg (header.encoded :: ·) hheaders
        · cases wasFetched <;> simp [numbered, hfetched]
      · rintro ⟨chain, htable, hchain, hheaders, hfetched⟩
        cases chain with
        | nil => cases htable
        | cons first chain =>
          cases htable
          rw [map_cons, isChain_cons_cons] at hchain
          refine ⟨⟨⟩, hchain.1, ⟨chain.map (·.1.encoded), _⟩,
            ih.2 ⟨chain, rfl, hchain.2, rfl, rfl⟩, ?_⟩
          obtain ⟨headers, fetchedHeaders⟩ := linked
          cases hheaders
          cases hfetched
          cases wasFetched <;> simp [numbered]

def taggedEntries (cached fetched : List (ℕ × CachedAncestryHeader W)) :
    List (ℕ × (CachedAncestryHeader W × Bool)) :=
  cached.map (tagged false) ++ fetched.map (tagged true)

theorem untag_taggedEntries (cached fetched : List (ℕ × CachedAncestryHeader W)) :
    (taggedEntries cached fetched).map (Prod.map id Prod.fst) = cached ++ fetched := by
  rw [taggedEntries, map_append, map_map, map_map]
  exact congrArg₂ (· ++ ·) (map_id cached) (map_id fetched)

variable {cached fetched : List (ℕ × CachedAncestryHeader W)}

theorem insertHeaders_full (hrange : fromBlock ≤ toBlock)
    (hnumbers : ((cached ++ fetched).map Prod.fst).Perm
      (List.range' fromBlock (toBlock - fromBlock + 1))) :
    ∃ (merged : MergedHeaders W) (items : List (CachedAncestryHeader W × Bool)),
      cached.foldlM (insertHeader fromBlock toBlock false)
        (List.replicate (toBlock - fromBlock + 1) none) = .ok merged ∧
      fetched.foldlM (insertHeader fromBlock toBlock true) merged = .ok (items.map some) ∧
      items.length = toBlock - fromBlock + 1 ∧
      (taggedEntries cached fetched).Perm (numbered fromBlock items) := by
  have hempty : Tabulates fromBlock
      (List.replicate (toBlock - fromBlock + 1) (none : Option (CachedAncestryHeader W × Bool))) [] :=
    .replicate _ _
  have hlength := length_replicate (n := toBlock - fromBlock + 1)
    (a := (none : Option (CachedAncestryHeader W × Bool)))
  have hnodup := hnumbers.nodup_iff.2 nodup_range'
  have hin : ∀ n ∈ (cached ++ fetched).map Prod.fst, fromBlock ≤ n ∧ n ≤ toBlock := by
    intro n hn
    rw [hnumbers.mem_iff, mem_range'_1] at hn
    omega
  rw [map_append] at hnodup hin
  have hfirst : ∃ merged, cached.foldlM (insertHeader fromBlock toBlock false)
      (List.replicate (toBlock - fromBlock + 1) none) = .ok merged :=
    (insertHeaders_spec hempty hlength).2 hnodup.of_append_left
      fun n hn => hin n (mem_append_left _ hn)
  obtain ⟨merged₁, hcached⟩ := hfirst
  obtain ⟨htab₁, hlength₁⟩ := (insertHeaders_spec hempty hlength).1 _ hcached
  have hsecond : ∃ merged, fetched.foldlM (insertHeader fromBlock toBlock true) merged₁ =
      .ok merged := by
    refine (insertHeaders_spec htab₁ hlength₁).2 ?_ fun n hn => hin n (mem_append_right _ hn)
    rw [nil_append, map_fst_tagged]
    exact hnodup
  obtain ⟨merged₂, hfetched⟩ := hsecond
  obtain ⟨htab₂, hlength₂⟩ := (insertHeaders_spec htab₁ hlength₁).1 _ hfetched
  have hfull : ((taggedEntries cached fetched).map Prod.fst).Perm
      (List.range' fromBlock merged₂.length) := by
    rw [hlength₂, taggedEntries, map_append, map_fst_tagged, map_fst_tagged, ← map_append]
    exact hnumbers
  -- as many different numbers as slots: no slot stays empty
  obtain ⟨items, rfl⟩ := htab₂.full hfull
  rw [length_map] at hlength₂
  exact ⟨merged₁, items, hcached, hfetched, hlength₂, htab₂.perm_numbered⟩

theorem resolveAncestryHeaders_table {resolved : ResolvedAncestry W}
    (h : resolveAncestryHeaders fromBlock toBlock cached fetched = .ok resolved) :
    ∃ items : List (CachedAncestryHeader W × Bool), items.length = toBlock - fromBlock + 1 ∧
      (taggedEntries cached fetched).Perm (numbered fromBlock items) ∧
      List.IsChain ParentOf (items.map Prod.fst) ∧
      resolved.headers = items.tail.map (·.1.encoded) ∧
      resolved.fetchedHeaders = ((numbered fromBlock items).filter (·.2.2)).map
        fun entry => (entry.1, entry.2.1) := by
  have hempty : Tabulates fromBlock
      (List.replicate (toBlock - fromBlock + 1) (none : Option (CachedAncestryHeader W × Bool))) [] :=
    .replicate _ _
  have hlength := length_replicate (n := toBlock - fromBlock + 1)
    (a := (none : Option (CachedAncestryHeader W × Bool)))
  simp only [resolveAncestryHeaders, bind_ok_iff] at h
  obtain ⟨merged₁, hcached, merged₂, hfetched, hlink⟩ := h
  obtain ⟨htab₁, hlength₁⟩ := (insertHeaders_spec hempty hlength).1 _ hcached
  obtain ⟨htab₂, hlength₂⟩ := (insertHeaders_spec htab₁ hlength₁).1 _ hfetched
  split at hlink
  · next base baseWasFetched rest =>
    simp only [ok_iff] at hlink
    obtain ⟨linked, hlinked, rfl⟩ := hlink
    obtain ⟨chain, rfl, hchain, hheaders, hfetchedHeaders⟩ := linkHeaders_ok_iff.1 hlinked
    refine ⟨(base, baseWasFetched) :: chain, ?_, htab₂.perm_numbered, hchain, hheaders, ?_⟩
    · rw [← hlength₂, length_cons, length_cons, length_map]
    · cases baseWasFetched <;> simp [numbered, hfetchedHeaders]
  · cases hlink

/-- The merged headers are one chain over the range, in some order: complete, without duplicates and
linked. `headers` are the encodings after the base. -/
def Ancestry (fromBlock toBlock : ℕ) (all : List (ℕ × CachedAncestryHeader W))
    (headers : List Bytes) : Prop :=
  ∃ chain : List (CachedAncestryHeader W), chain.length = toBlock - fromBlock + 1 ∧
    all.Perm (numbered fromBlock chain) ∧ chain.IsChain ParentOf ∧
    headers = chain.tail.map (·.encoded)

/-- **Resolution of headers.** Headers are returned exactly if what is cached and what is fetched is
together one chain. -/
theorem resolveAncestryHeaders_ok_iff (hrange : fromBlock ≤ toBlock) {headers : List Bytes} :
    (∃ fetchedHeaders, resolveAncestryHeaders fromBlock toBlock cached fetched =
        .ok ⟨headers, fetchedHeaders⟩) ↔
      Ancestry fromBlock toBlock (cached ++ fetched) headers := by
  constructor
  · rintro ⟨fetchedHeaders, h⟩
    obtain ⟨items, hlength, hperm, hchain, hheaders, -⟩ := resolveAncestryHeaders_table h
    refine ⟨items.map Prod.fst, ?_, ?_, hchain, ?_⟩
    · rw [length_map, hlength]
    · rw [← untag_taggedEntries, numbered_map]
      exact hperm.map _
    · rw [← map_tail, map_map]
      exact hheaders
  · rintro ⟨chain, hlength, hperm, hchain, rfl⟩
    have hnumbers : ((cached ++ fetched).map Prod.fst).Perm
        (List.range' fromBlock (toBlock - fromBlock + 1)) := by
      rw [← hlength, ← numbers_numbered]
      exact hperm.map _
    obtain ⟨merged, items, hcached, hfetched, hitems, htagged⟩ := insertHeaders_full hrange hnumbers
    -- both list the same numbered headers, and the numbers fix the order
    have heq : items.map Prod.fst = chain := by
      apply numbered_perm_injective
      rw [numbered_map]
      exact ((htagged.map _).symm.trans (.of_eq (untag_taggedEntries cached fetched))).trans hperm
    subst heq
    cases items with
    | nil => cases hitems
    | cons base rest =>
      obtain ⟨header, baseWasFetched⟩ := base
      have hlink : linkHeaders header.hash (fromBlock + 1) (rest.map some) = .ok
          ⟨rest.map (·.1.encoded), _⟩ := linkHeaders_ok_iff.2 ⟨rest, rfl, hchain, rfl, rfl⟩
      have hheaders : (((header, baseWasFetched) :: rest).map Prod.fst).tail.map (·.encoded) =
          rest.map (·.1.encoded) := by
        rw [map_cons, tail_cons, map_map]
        rfl
      rw [hheaders]
      exact ⟨_, bind_ok_iff.2 ⟨merged, hcached, bind_ok_iff.2
        ⟨_, hfetched, bind_ok_iff.2 ⟨_, hlink, rfl⟩⟩⟩⟩

theorem resolveAncestryHeaders_fetched {resolved : ResolvedAncestry W}
    (h : resolveAncestryHeaders fromBlock toBlock cached fetched = .ok resolved) :
    ∀ entry ∈ resolved.fetchedHeaders, entry ∈ cached ++ fetched := by
  obtain ⟨items, -, hperm, -, -, hfetched⟩ := resolveAncestryHeaders_table h
  intro entry hentry
  rw [hfetched] at hentry
  obtain ⟨tag, htag, rfl⟩ := mem_map.1 hentry
  rw [← untag_taggedEntries]
  exact mem_map.2 ⟨tag, hperm.mem_iff.2 (mem_filter.1 htag).1, rfl⟩

end Merge

end TempoZones.Settle
