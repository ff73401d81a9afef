import TempoZones.Lib.Outcome
import TempoZones.Rpc.LogFilter

/-!
# Log queries reveal the caller's view only

`Block.view` is what a caller may know of a block: its coordinates, the caller's own transactions
with their receipts, and the visible logs. The answers of all log queries are functions of the
views: a scoped filter matches visible logs only (`scope_visible`), and renumbering forgets the
node's positions (`redactAll_congr`).
-/

namespace TempoZones.Rpc

open Lib List Block Log

variable {W : Type} [EvmWord W] [DecidableEq W] {F : Type} {lib : LogLib W} {raw : RawLog W}

/-! ## Views -/

/-- What a caller may know of a transaction: whether it is the caller's own, and then its receipt's
fields, and its visible logs. -/
structure TxView (W F : Type) where
  hash : W
  own : Option (ℕ × F)
  logs : List (RawLog W)
  deriving DecidableEq

/-- The view of a transaction; a foreign transaction without visible logs is not seen. -/
def Tx.view (lib : LogLib W) (caller : Address) (tx : Tx W F) : Option (TxView W F) :=
  let logs := tx.logs.filter fun raw => isLogVisible lib raw caller
  if tx.sender = caller then some ⟨tx.hash, some (tx.gasUsed, tx.other), logs⟩
  else if logs = [] then none
  else some ⟨tx.hash, none, logs⟩

def Block.view (lib : LogLib W) (caller : Address) (b : Block W F) :
    Coordinates W × List (TxView W F) :=
  (b.at_, b.transactions.filterMap (Tx.view lib caller))

def visibleOf (txs : List (TxView W F)) : List (W × RawLog W) :=
  txs.flatMap fun tx => tx.logs.map (tx.hash, ·)

theorem visibleOf_view (caller : Address) (txs : List (Tx W F)) :
    (txs.flatMap fun tx => (tx.logs.map (tx.hash, ·)).filter fun e => isLogVisible lib e.2 caller) =
      visibleOf (txs.filterMap (Tx.view lib caller)) := by
  induction txs with
  | nil => rfl
  | cons tx txs ih =>
    have hmap : ((tx.logs.map (tx.hash, ·)).filter fun e => isLogVisible lib e.2 caller) =
        (tx.logs.filter fun raw => isLogVisible lib raw caller).map (tx.hash, ·) := by
      rw [filter_map]
      rfl
    rw [flatMap_cons, ih, hmap, filterMap_cons]
    unfold Tx.view
    simp only
    split
    · next hnone =>
      split at hnone
      · cases hnone
      split at hnone
      · next hempty => rw [hempty, map_nil, nil_append]
      · cases hnone
    · next v hv =>
      split at hv
      · cases hv
        rfl
      split at hv
      · cases hv
      · cases hv
        rfl

/-! ## A log without its positions -/

def Log.core (log : Log W) : Log W := { log with transactionIndex := 0, logIndex := 0 }

theorem redactAll_congr : ∀ {logs logs' : List (Log W)} (r : LogOrderingRedactor W),
    logs.map core = logs'.map core → r.redactAll logs = r.redactAll logs' := by
  intro logs
  induction logs with
  | nil =>
    intro logs' r h
    rw [map_nil, eq_comm, map_eq_nil_iff] at h
    rw [h]
  | cons log logs ih =>
    intro logs' r h
    cases logs' with
    | nil => cases h
    | cons log' logs' =>
      rw [map_cons, map_cons, cons.injEq] at h
      obtain ⟨hcore, hrest⟩ := h
      have hredact : r.redact log = r.redact log' := by
        have hfields := congrArg (fun core : Log W => (core.inner, core.blockHash,
          core.blockNumber, core.blockTimestamp, core.transactionHash, core.removed)) hcore
        simp only [Log.core, Prod.mk.injEq] at hfields
        obtain ⟨hinner, hblock, hnumber, htime, hhash, hremoved⟩ := hfields
        simp only [LogOrderingRedactor.redact, hhash, Prod.mk.injEq, true_and]
        rw [Log.mk.injEq]
        exact ⟨hinner, hblock, hnumber, htime, rfl, rfl, rfl, hremoved⟩
      rw [LogOrderingRedactor.redactAll, LogOrderingRedactor.redactAll, hredact, ih _ hrest]

theorem core_place (c : Coordinates W) (txHash : W) (txIndex logIndex : ℕ) (removed : Bool)
    (raw : RawLog W) : (c.place txHash txIndex logIndex removed raw).core =
      c.place txHash 0 0 removed raw := rfl

theorem core_placeAll (c : Coordinates W) (txHash : W) (txIndex : ℕ) (removed : Bool) :
    ∀ (raws : List (RawLog W)) (start : ℕ),
      (c.placeAll txHash txIndex removed start raws).map core =
        raws.map (c.place txHash 0 0 removed) := by
  intro raws
  induction raws with
  | nil => exact fun _ => rfl
  | cons raw raws ih =>
    intro start
    rw [Coordinates.placeAll, map_cons, map_cons, ih, core_place]

theorem core_logsFrom (c : Coordinates W) (removed : Bool) :
    ∀ (txs : List (Tx W F)) (txIndex start : ℕ), (logsFrom c removed txIndex start txs).map core =
        (txs.flatMap fun tx => tx.logs.map (tx.hash, ·)).map
          fun e => c.place e.1 0 0 removed e.2 := by
  intro txs
  induction txs with
  | nil => exact fun _ _ => rfl
  | cons tx txs ih =>
    intro txIndex start
    rw [logsFrom, map_append, ih, core_placeAll, flatMap_cons, map_append, map_map]
    rfl

theorem core_filter_logs (b : Block W F) (removed : Bool) (p : RawLog W → Bool) :
    ((b.logs removed).filter fun log => p log.inner).map core =
      ((b.transactions.flatMap fun tx => tx.logs.map (tx.hash, ·)).filter fun e => p e.2).map
        fun e => b.at_.place e.1 0 0 removed e.2 := by
  have hcore := core_logsFrom b.at_ removed b.transactions 0 0
  have hfilter : ((b.logs removed).filter fun log => p log.inner).map core =
      ((b.logs removed).map core).filter fun log => p log.inner := by
    rw [filter_map]
    rfl
  rw [hfilter, logs, hcore, filter_map]
  rfl

theorem filterLogs_congr {logs logs' : List (Log W)} (h : logs.map core = logs'.map core)
    (caller : Address) : filterLogs lib logs caller = filterLogs lib logs' caller := by
  apply redactAll_congr
  have hcore : ∀ logs : List (Log W),
      (logs.filter fun log => isLogVisible lib log.inner caller).map core =
        (logs.map core).filter fun log => isLogVisible lib log.inner caller := by
    intro logs
    rw [filter_map]
    rfl
  rw [hcore, hcore, h]

/-! ## Scoped filters match visible logs -/

/-- What the precompiles behind a log address emit: no zero topic, and a `TransferBlocked` log comes
from the guard, decodes, and names its receiver in the second indexed topic. -/
def PrecompileLog (lib : LogLib W) (tokens : Address → Prop) (raw : RawLog W) : Prop :=
  tokens raw.address ∨ raw.address = lib.guard →
    raw.topics[0]? ≠ some 0 ∧
      (raw.topics[0]? = some TRANSFER_BLOCKED_TOPIC → raw.address = lib.guard ∧
        ∃ event, lib.decodeTransferBlocked raw = some event ∧
          raw.topics[2]? = some (intoWord event.receiver))

theorem intoWord_injective : Function.Injective (intoWord : Address → W) := by
  intro a b h
  exact Fin.ext (EvmWord.ofNat_injective h)

namespace Filter

variable {f : Filter W}

/-- Event types that a filter asks for, among those of the layer. -/
def asked (f : Filter W) : List W :=
  if f.topics0 = [] then WHITELISTED_TOPICS
  else f.topics0.filter fun t => decide (t ∈ (WHITELISTED_TOPICS : List W))

/-- Those of them that may name the caller in the first topic. -/
def single (f : Filter W) : List W := f.asked.filter fun t => decide (t ≠ TRANSFER_BLOCKED_TOPIC)

/-- Those of them that may name the caller in the second topic. -/
def pair (f : Filter W) : List W := f.asked.filter fun t => decide (t ∈ (TWO_PARTY_TOPICS : List W))

/-- The addresses after `scope_filter_addresses`, when it accepts them. -/
def scopedAddress (lib : LogLib W) (zoneTokens : List Address) (f : Filter W) : List Address :=
  if f.address = [] then zoneTokens ++ [lib.guard] else f.address

theorem mem_asked {t : W} :
    t ∈ f.asked ↔ t ∈ (WHITELISTED_TOPICS : List W) ∧ (f.topics0 = [] ∨ t ∈ f.topics0) := by
  unfold asked
  split
  · next hall => simp [hall]
  · next hsome => simp [hsome, and_comm]

theorem matches_iff : f.matches raw = true ↔ (f.address = [] ∨ raw.address ∈ f.address) ∧
      (f.topics0 = [] ∨ ∃ t ∈ f.topics0, raw.topics[0]? = some t) ∧
      (f.topics1 = [] ∨ ∃ t ∈ f.topics1, raw.topics[1]? = some t) ∧
      (f.topics2 = [] ∨ ∃ t ∈ f.topics2, raw.topics[2]? = some t) ∧
      (f.topics3 = [] ∨ ∃ t ∈ f.topics3, raw.topics[3]? = some t) := by
  have htopic : ∀ (wanted : List W) (topic : Option W),
      matchesTopic wanted topic = true ↔ wanted = [] ∨ ∃ t ∈ wanted, topic = some t := by
    intro wanted topic
    cases topic <;> simp [matchesTopic]
  simp only [Filter.matches, Bool.and_eq_true, Bool.or_eq_true, List.isEmpty_iff,
    decide_eq_true_eq, htopic, and_assoc]

/-- What an accepted filter matches by its addresses. -/
theorem scopedAddress_iff {zoneTokens : List Address} {a : Address}
    (hall : ∀ a ∈ f.address, a ∈ zoneTokens ∨ a = lib.guard) :
    (f.scopedAddress lib zoneTokens = [] ∨ a ∈ f.scopedAddress lib zoneTokens) ↔
      (f.address = [] ∨ a ∈ f.address) ∧ (a ∈ zoneTokens ∨ a = lib.guard) := by
  by_cases hempty : f.address = []
  · simp [scopedAddress, hempty]
  · simp only [scopedAddress, hempty, if_false, false_or, iff_self_and]
    exact hall a

end Filter

variable {caller : Address} {zoneTokens : List Address}

theorem scope_eq (f : Filter W) : scope lib zoneTokens caller f =
    if ∀ a ∈ f.address, a ∈ zoneTokens ∨ a = lib.guard then
      scopeFilterForCaller { f with address := f.scopedAddress lib zoneTokens } caller
    else .error .invalidFilterAddress := by
  unfold scope scopeFilterAddresses
  by_cases hempty : f.address = []
  · simp only [hempty, if_true, not_mem_nil, false_imp_iff, implies_true, Filter.scopedAddress]
    rfl
  · simp only [hempty, if_false, Filter.scopedAddress]
    split <;> rfl

/-- Scoping case by case: the filter matches nothing, or asks for the caller in the first topic, or
in the second. -/
theorem scopeFilterForCaller_eq (f : Filter W) (address : List Address) :
    scopeFilterForCaller { f with address := address } caller =
      if f.asked = [] ∨ f.asked = [0] then .ok { f with address := address, topics0 := [0] }
      else if intoWord caller ∈ f.topics1 ∧ f.single ≠ [] then
        .ok { f with address := address, topics0 := f.single, topics1 := [intoWord caller] }
      else if intoWord caller ∈ f.topics2 ∧ f.pair ≠ [] then
        .ok { f with address := address, topics0 := f.pair, topics2 := [intoWord caller] }
      else .error .callerScopedFilter := by
  have hscoped : scopeFilter { f with address := address } =
    { f with address := address, topics0 := if f.asked = [] then [0] else f.asked } := rfl
  unfold scopeFilterForCaller
  by_cases hnone : f.asked = []
  · simp [hscoped, hnone]
  by_cases hzero : f.asked = [0]
  · simp [hscoped, hzero]
  · simp only [hscoped, hnone, hzero, if_false, or_self]
    rfl

/-- A log with a whitelisted topic other than `TransferBlocked` is visible to the account in its first
indexed topic, and in the second one if the event has two parties. -/
theorem isLogVisible_of_topic {t : W} (htopic : raw.topics[0]? = some t)
    (hwhite : t ∈ (WHITELISTED_TOPICS : List W)) (hne : t ≠ TRANSFER_BLOCKED_TOPIC)
    (hparty : raw.topics[1]? = some (intoWord caller) ∨
      t ∈ (TWO_PARTY_TOPICS : List W) ∧ raw.topics[2]? = some (intoWord caller)) :
    isLogVisible lib raw caller = true := by
  unfold isLogVisible isCallerEligible
  simp only [htopic, Option.elim_some, hwhite, decide_true, Bool.true_and, if_neg hne]
  simp only [WHITELISTED_TOPICS, TWO_PARTY_TOPICS, mem_cons, not_mem_nil, or_false, hne] at hwhite hparty
  split
  · simp only [Bool.or_eq_true, decide_eq_true_eq]
    exact hparty.imp id And.right
  · next hthree =>
    have hone : t = MINT_TOPIC ∨ t = BURN_TOPIC := by
      simpa only [← or_assoc, or_assoc (a := t = TRANSFER_TOPIC), hthree, false_or] using hwhite
    rw [if_pos hone, decide_eq_true_eq]
    exact hparty.resolve_right fun htwo => hthree htwo.1

variable {tokens : Address → Prop}

theorem isLogVisible_second {t : W} (hwf : PrecompileLog lib tokens raw)
    (haddress : tokens raw.address ∨ raw.address = lib.guard) (htopic : raw.topics[0]? = some t)
    (hpair : t ∈ (TWO_PARTY_TOPICS : List W)) (hsecond : raw.topics[2]? = some (intoWord caller)) :
    isLogVisible lib raw caller = true := by
  have hwhite : t ∈ (WHITELISTED_TOPICS : List W) := by
    simp only [TWO_PARTY_TOPICS, WHITELISTED_TOPICS, mem_cons, not_mem_nil, or_false] at hpair ⊢
    rcases hpair with h | h | h | h <;> simp [h]
  by_cases hblocked : t = TRANSFER_BLOCKED_TOPIC
  · subst hblocked
    obtain ⟨hguard, event, hdecode, hreceiver⟩ := (hwf haddress).2 htopic
    rw [hsecond, Option.some.injEq] at hreceiver
    unfold isLogVisible isCallerEligible isTransferBlockedCallerEligible
    simp [htopic, hwhite, hguard, hdecode, intoWord_injective hreceiver]
  · exact isLogVisible_of_topic htopic hwhite hblocked (.inr ⟨hpair, hsecond⟩)

theorem scope_visible {f f' : Filter W} (hzone : ∀ a ∈ zoneTokens, tokens a)
    (h : scope lib zoneTokens caller f = .ok f') (hwf : PrecompileLog lib tokens raw)
    (hmatch : f'.matches raw = true) : isLogVisible lib raw caller = true := by
  rw [scope_eq] at h
  split at h
  · next hall =>
    rw [Filter.matches_iff] at hmatch
    obtain ⟨haddress, htopic0, htopic1, htopic2, -⟩ := hmatch
    have hown : f'.address = f.scopedAddress lib zoneTokens →
        tokens raw.address ∨ raw.address = lib.guard := by
      intro hsame
      rw [hsame, Filter.scopedAddress_iff hall] at haddress
      exact haddress.2.imp (hzone _) id
    rw [scopeFilterForCaller_eq] at h
    split at h
    · cases h
      obtain ⟨t, ht, htopic⟩ := htopic0.resolve_left (cons_ne_nil _ _)
      exact absurd (htopic.trans (congrArg some (mem_singleton.1 ht))) (hwf (hown rfl)).1
    split at h
    · next hfirst =>
      cases h
      obtain ⟨t, ht, htopic⟩ := htopic0.resolve_left hfirst.2
      obtain ⟨u, hu, hcaller⟩ := htopic1.resolve_left (cons_ne_nil _ _)
      obtain ⟨hasked, hne⟩ := mem_filter.1 ht
      exact isLogVisible_of_topic htopic (Filter.mem_asked.1 hasked).1 (of_decide_eq_true hne)
        (.inl (mem_singleton.1 hu ▸ hcaller))
    split at h
    · next hsecond =>
      cases h
      obtain ⟨t, ht, htopic⟩ := htopic0.resolve_left hsecond.2
      obtain ⟨u, hu, hcaller⟩ := htopic2.resolve_left (cons_ne_nil _ _)
      exact isLogVisible_second hwf (hown rfl) htopic
        (of_decide_eq_true (mem_filter.1 ht).2) (mem_singleton.1 hu ▸ hcaller)
    · cases h
  · cases h

/-! ## Log answers are functions of the views -/

def Block.Precompile (lib : LogLib W) (tokens : Address → Prop) (b : Block W F) : Prop :=
  ∀ tx ∈ b.transactions, ∀ raw ∈ tx.logs, PrecompileLog lib tokens raw

def Filter.ScopedTo (lib : LogLib W) (tokens : Address → Prop) (caller : Address) (f : Filter W) :
    Prop :=
  ∀ raw, PrecompileLog lib tokens raw → f.matches raw = true → isLogVisible lib raw caller = true

theorem scopedTo_scope {f f' : Filter W} (hzone : ∀ a ∈ zoneTokens, tokens a)
    (h : scope lib zoneTokens caller f = .ok f') : f'.ScopedTo lib tokens caller :=
  fun _ hwf hmatch => scope_visible hzone h hwf hmatch

def matchingOf (f : Filter W) (removed : Bool) (v : Coordinates W × List (TxView W F)) :
    List (Log W) :=
  ((visibleOf v.2).filter fun e => f.matches e.2).map fun e => v.1.place e.1 0 0 removed e.2

variable {f : Filter W}

theorem core_matching_block (hscope : f.ScopedTo lib tokens caller) {b : Block W F}
    (hwf : b.Precompile lib tokens) (removed : Bool) :
    ((b.logs removed).filter fun log => f.matches log.inner).map core =
      matchingOf f removed (b.view lib caller) := by
  rw [core_filter_logs, matchingOf, view]
  simp only
  rw [← visibleOf_view, filter_flatMap, filter_flatMap]
  refine congrArg (map _) (flatMap_congr ?_)
  intro tx htx
  rw [filter_filter]
  refine filter_congr ?_
  intro e he
  obtain ⟨raw, hraw, rfl⟩ := mem_map.1 he
  -- a match is visible, so asking for visibility as well changes nothing
  by_cases hmatch : f.matches raw = true
  · simp only [hmatch, hscope raw (hwf tx htx raw hraw) hmatch, Bool.and_self]
  · simp only [Bool.not_eq_true _ ▸ hmatch, Bool.false_and]

theorem core_matching (hscope : f.ScopedTo lib tokens caller) {h : History W F}
    (hwf : ∀ b ∈ h.blocks, b.Precompile lib tokens) (selected : Coordinates W → Bool) :
    (matching h f selected).map (fun m => (m.1, m.2.map core)) =
      ((h.blocks.map (view lib caller)).filter fun v => selected v.1).map
        fun v => (v.1, matchingOf f false v) := by
  rw [matching, map_map, filter_map, map_map]
  refine map_congr_left ?_
  intro b hb
  simp only [Function.comp_apply, core_matching_block hscope (hwf b (mem_of_mem_filter hb))]
  rfl

section TwoHistories

variable {tokens : Address → Prop} {caller : Address} {h h' : History W F}
  (hwf : ∀ b ∈ h.blocks, b.Precompile lib tokens)
  (hwf' : ∀ b ∈ h'.blocks, b.Precompile lib tokens)
  (hview : h.blocks.map (view lib caller) = h'.blocks.map (view lib caller))

include hview in
theorem coordinates_congr : h.blocks.map at_ = h'.blocks.map at_ := by
  have hfst := congrArg (map Prod.fst) hview
  rwa [map_map, map_map] at hfst

variable {f : Filter W}

include hwf hwf' hview

theorem Backend.logs_congr (backend : Backend W) (hscope : f.ScopedTo lib tokens caller) :
    (backend.logs h f).map (map core) = (backend.logs h' f).map (map core) := by
  unfold Backend.logs
  rw [coordinates_congr hview]
  cases f.blocks (h'.blocks.map at_) with
  | error e => rfl
  | ok selected =>
    have hmatching : (matching h f selected).map (fun m => (m.1, m.2.map core)) =
        (matching h' f selected).map (fun m => (m.1, m.2.map core)) := by
      rw [core_matching hscope hwf, core_matching hscope hwf', hview]
    have hcount : (matching h f selected).map (fun m => (m.1, m.2.length)) =
        (matching h' f selected).map (fun m => (m.1, m.2.length)) := by
      have hlength := congrArg (map fun m : Coordinates W × List (Log W) =>
        (m.1, m.2.length)) hmatching
      simpa only [map_map, Function.comp_def, length_map] using hlength
    have hcore : ((matching h f selected).flatMap Prod.snd).map core =
        ((matching h' f selected).flatMap Prod.snd).map core := by
      have hflat := congrArg (flatMap Prod.snd) hmatching
      simpa only [flatMap_map, map_flatMap] using hflat
    simp only [bind, Except.bind, hcount]
    cases backend.refuses ((matching h' f selected).map fun m => (m.1, m.2.length)) with
    | some e => rfl
    | none => exact congrArg Except.ok hcore

theorem filterLogs_logs_congr (backend : Backend W) (hscope : f.ScopedTo lib tokens caller) :
    (backend.logs h f).map (filterLogs lib · caller) =
      (backend.logs h' f).map (filterLogs lib · caller) := by
  have hcore : ∀ answer : Except RpcError (List (Log W)), answer.map (filterLogs lib · caller) =
      (answer.map (map core)).map (filterLogs lib · caller) := by
    rintro (e | logs)
    · rfl
    refine congrArg Except.ok (filterLogs_congr ?_ caller)
    rw [map_map]
    rfl
  rw [hcore, Backend.logs_congr hwf hwf' hview backend hscope, ← hcore]

theorem getLogs_congr (backend : Backend W) {zoneTokens : List Address}
    (hzone : ∀ a ∈ zoneTokens, tokens a) (f : Filter W) :
    getLogs lib backend h zoneTokens caller f = getLogs lib backend h' zoneTokens caller f := by
  unfold getLogs
  cases hf : scope lib zoneTokens caller f with
  | error e => rfl
  | ok f' => exact filterLogs_logs_congr hwf hwf' hview backend (scopedTo_scope hzone hf)

/-- A filter as `eth_newFilter` and `eth_newBlockFilter` install it. -/
def FilterKind.InstalledBy (lib : LogLib W) (tokens : Address → Prop) (caller : Address) :
    FilterKind W → Prop
  | .blocks => True
  | .logs f => ∃ zoneTokens requested, (∀ a ∈ zoneTokens, tokens a) ∧
      scope lib zoneTokens caller requested = .ok f

theorem getFilterLogs_congr (backend : Backend W) {kind : FilterKind W}
    (hkind : kind.InstalledBy lib tokens caller) :
    getFilterLogs lib backend h caller kind = getFilterLogs lib backend h' caller kind := by
  cases kind with
  | blocks => rfl
  | logs f =>
    obtain ⟨zoneTokens, requested, hzone, hscope⟩ := hkind
    exact filterLogs_logs_congr hwf hwf' hview backend (scopedTo_scope hzone hscope)

theorem getFilterChanges_congr (backend : Backend W) {kind : FilterKind W}
    (hkind : kind.InstalledBy lib tokens caller) (next : ℕ) :
    getFilterChanges lib backend h caller next kind =
      getFilterChanges lib backend h' caller next kind := by
  cases kind with
  | blocks =>
    unfold getFilterChanges
    rw [coordinates_congr hview]
  | logs f =>
    obtain ⟨zoneTokens, requested, hzone, hscope⟩ := hkind
    -- the poll replaces the block range and nothing that matching reads
    have hpoll : ({ f with blocks := backend.changes next f.blocks } : Filter W).ScopedTo
        lib tokens caller :=
      fun raw hraw hmatch => scopedTo_scope hzone hscope raw hraw hmatch
    have hform : ∀ h : History W F, getFilterChanges lib backend h caller next (.logs f) =
        ((backend.logs h { f with blocks := backend.changes next f.blocks }).map
          (filterLogs lib · caller)).map FilterChanges.logs := by
      intro h
      unfold getFilterChanges
      simp only
      cases backend.logs h { f with blocks := backend.changes next f.blocks } <;> rfl
    rw [hform, hform, filterLogs_logs_congr hwf hwf' hview backend hpoll]

end TwoHistories

/-! ## Own receipts are functions of the views -/

def TxView.receipt (lib : LogLib W) (caller : Address) (c : Coordinates W) (v : TxView W F) :
    Option (Receipt W F) :=
  v.own.map fun fields =>
    let logs := filterLogs lib (v.logs.map (c.place v.hash 0 0 false)) caller
    { «from» := caller
      transactionHash := v.hash
      transactionIndex := 0
      blockHash := c.hash
      blockNumber := c.number
      gasUsed := fields.1
      cumulativeGasUsed := fields.1
      logs := logs
      logsBloom := lib.bloom (logs.map inner)
      other := fields.2 }

theorem filterLogs_visible (raws : List (RawLog W)) (place : RawLog W → Log W)
    (hplace : ∀ raw, (place raw).inner = raw) (caller : Address) :
    filterLogs lib (raws.map place) caller =
      filterLogs lib ((raws.filter fun raw => isLogVisible lib raw caller).map place) caller := by
  have hfilter : ∀ raws : List (RawLog W),
      ((raws.map place).filter fun log => isLogVisible lib log.inner caller) =
        (raws.filter fun raw => isLogVisible lib raw caller).map place := by
    intro raws
    rw [filter_map]
    simp only [Function.comp_def, hplace]
  unfold filterLogs
  rw [hfilter, hfilter, filter_filter]
  simp only [Bool.and_self]

theorem own_receiptsFrom (caller : Address) (c : Coordinates W) :
    ∀ (txs : List (Tx W F)) (txIndex start gas : ℕ),
      ((receiptsFrom lib c txIndex start gas txs).filter fun r => decide (r.from = caller)).map
          (filterReceiptLogs lib) =
        (txs.filterMap (Tx.view lib caller)).filterMap (TxView.receipt lib caller c) := by
  intro txs
  induction txs with
  | nil => exact fun _ _ _ => rfl
  | cons tx txs ih =>
    intro txIndex start gas
    by_cases hown : tx.sender = caller
    · -- the caller's own: positions are redacted, the other fields are those of the view
      have hlogs : filterLogs lib (c.placeAll tx.hash txIndex false start tx.logs) caller =
          filterLogs lib ((tx.logs.filter fun raw => isLogVisible lib raw caller).map
            (c.place tx.hash 0 0 false)) caller := by
        rw [← filterLogs_visible _ _ (fun _ => rfl)]
        apply filterLogs_congr
        rw [core_placeAll, map_map]
        rfl
      have hview : Tx.view lib caller tx = some ⟨tx.hash, some (tx.gasUsed, tx.other),
          tx.logs.filter fun raw => isLogVisible lib raw caller⟩ := if_pos hown
      rw [receiptsFrom, filter_cons_of_pos (by simpa only [decide_eq_true_eq] using hown),
        map_cons, ih, filterMap_cons, hview]
      simp only [filterMap_cons, TxView.receipt, Option.map_some, filterReceiptLogs, hown, hlogs]
    rw [receiptsFrom, filter_cons_of_neg (by simpa only [decide_eq_true_eq] using hown),
      ih, filterMap_cons]
    cases hview : Tx.view lib caller tx with
    | none => rfl
    | some v =>
      have hforeign : v.own = none := by
        rw [Tx.view, if_neg hown] at hview
        split at hview
        · cases hview
        · cases hview
          rfl
      simp only [filterMap_cons, TxView.receipt, hforeign, Option.map_none]

/-- The key of the entry found first decides; entries that fail a test may be dropped before the
search when keys are distinct. -/
theorem find_then_test {A K : Type} [DecidableEq K] (key : A → K) (k : K) (test : A → Bool) :
    ∀ l : List A, (l.map key).Nodup → ((l.find? fun a => decide (key a = k)).filter test) =
        (l.filter test).find? fun a => decide (key a = k) := by
  intro l
  induction l with
  | nil => exact fun _ => rfl
  | cons a l ih =>
    intro hnodup
    rw [map_cons, nodup_cons] at hnodup
    by_cases hkey : key a = k
    · -- no later entry has the key
      have hnone : (l.filter test).find? (fun b => decide (key b = k)) = none := by
        rw [find?_eq_none]
        intro b hb hsame
        rw [hkey, ← of_decide_eq_true hsame] at hnodup
        exact hnodup.1 (mem_map_of_mem (mem_of_mem_filter hb))
      cases htest : test a <;> simp [hkey, htest, hnone]
    · cases htest : test a <;> simp [hkey, htest, ih hnodup.2]

theorem map_hash_receiptsFrom (c : Coordinates W) : ∀ (txs : List (Tx W F)) (txIndex start gas : ℕ),
      (receiptsFrom lib c txIndex start gas txs).map Receipt.transactionHash = txs.map Tx.hash := by
  intro txs
  induction txs with
  | nil => exact fun _ _ _ => rfl
  | cons tx txs ih =>
    intro txIndex start gas
    rw [receiptsFrom, map_cons, map_cons, ih]

theorem transactionReceipt_eq (h : History W F) (caller : Address) (hash : W) :
    transactionReceipt lib h caller hash = ((h.blocks.map (view lib caller)).flatMap fun v =>
        v.2.filterMap (TxView.receipt lib caller v.1)).find?
          fun r => decide (r.transactionHash = hash) := by
  have hdistinct : ((h.blocks.flatMap (receipts lib)).map Receipt.transactionHash).Nodup := by
    have hhashes : (h.blocks.flatMap (receipts lib)).map Receipt.transactionHash =
        (h.blocks.flatMap transactions).map Tx.hash := by
      rw [map_flatMap, map_flatMap]
      exact flatMap_congr fun b _ => map_hash_receiptsFrom _ _ _ _ _
    rw [hhashes]
    exact h.distinct
  have hviews : ((h.blocks.map (view lib caller)).flatMap fun v =>
      v.2.filterMap (TxView.receipt lib caller v.1)) =
        ((h.blocks.flatMap (receipts lib)).filter fun r => decide (r.from = caller)).map
          (filterReceiptLogs lib) := by
    rw [filter_flatMap, map_flatMap, flatMap_map]
    exact flatMap_congr fun b _ => (own_receiptsFrom _ _ _ _ _ _).symm
  rw [hviews, find?_map]
  have hfind := find_then_test Receipt.transactionHash hash (fun r => decide (r.from = caller))
    (h.blocks.flatMap (receipts lib)) hdistinct
  have hkey : ((fun r : Receipt W F => decide (r.transactionHash = hash)) ∘ filterReceiptLogs lib) =
      fun r => decide (r.transactionHash = hash) := rfl
  rw [hkey, ← hfind]
  unfold transactionReceipt
  cases (h.blocks.flatMap (receipts lib)).find? fun r => decide (r.transactionHash = hash) with
  | none => rfl
  | some receipt =>
    by_cases hown : receipt.from = caller
    · simp only [hown, ne_eq, not_true_eq_false, if_false, decide_true, Option.filter_some_pos,
        Option.map_some]
    · simp only [hown, ne_eq, not_false_eq_true, if_true, decide_false, Option.filter_some,
        Bool.false_eq_true, if_false, Option.map_none]

/-! ## The subscription -/

def CanonState.view (lib : LogLib W) (caller : Address) (n : CanonState W F) :
    List (Coordinates W × List (TxView W F)) × List (Coordinates W × List (TxView W F)) :=
  (n.reverted.map (Block.view lib caller), n.committed.map (Block.view lib caller))

def CanonState.Precompile (lib : LogLib W) (tokens : Address → Prop) (n : CanonState W F) : Prop :=
  ∀ b ∈ n.reverted ++ n.committed, b.Precompile lib tokens

theorem core_matching_notification (hscope : f.ScopedTo lib tokens caller)
    {n : CanonState W F} (hwf : n.Precompile lib tokens) :
    (n.matching f).map core = (n.view lib caller).1.flatMap (matchingOf f true) ++
        (n.view lib caller).2.flatMap (matchingOf f false) := by
  have hblocks : ∀ (removed : Bool) (blocks : List (Block W F)),
      (∀ b ∈ blocks, b.Precompile lib tokens) →
        ((blocks.flatMap (logs · removed)).filter fun log => f.matches log.inner).map core =
          (blocks.map (view lib caller)).flatMap (matchingOf f removed) := by
    intro removed blocks hblocks
    rw [filter_flatMap, map_flatMap, flatMap_map]
    exact flatMap_congr fun b hb => core_matching_block hscope (hblocks b hb) removed
  unfold CanonState.matching
  rw [filter_append, map_append, hblocks true _ fun b hb => hwf b (mem_append_left _ hb),
    hblocks false _ fun b hb => hwf b (mem_append_right _ hb)]
  rfl

theorem subscribeLogs_congr {stream stream' : List (CanonState W F)}
    (hwf : ∀ n ∈ stream, n.Precompile lib tokens) (hwf' : ∀ n ∈ stream', n.Precompile lib tokens)
    (hview : stream.map (CanonState.view lib caller) = stream'.map (CanonState.view lib caller))
    (hzone : ∀ a ∈ zoneTokens, tokens a) (f : Filter W) :
    subscribeLogs lib stream zoneTokens caller f =
      subscribeLogs lib stream' zoneTokens caller f := by
  unfold subscribeLogs
  cases hf : scope lib zoneTokens caller f with
  | error e => rfl
  | ok f' =>
    have hcore : ∀ stream : List (CanonState W F), (∀ n ∈ stream, n.Precompile lib tokens) →
        (stream.flatMap (CanonState.matching f')).map core =
          (stream.map (CanonState.view lib caller)).flatMap fun v =>
            v.1.flatMap (matchingOf f' true) ++ v.2.flatMap (matchingOf f' false) := by
      intro stream hstream
      rw [map_flatMap, flatMap_map]
      exact flatMap_congr fun n hn =>
        core_matching_notification (scopedTo_scope hzone hf) (hstream n hn)
    refine congrArg Except.ok (filterLogs_congr ?_ caller)
    rw [hcore stream hwf, hcore stream' hwf', hview]

end TempoZones.Rpc
