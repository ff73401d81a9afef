import TempoZones.Node.InputConsumption
import TempoZones.Node.PeerAgreement

/-!
# Tempo input is consumed by canonical zone blocks only

The four positions of a node follow the head that its writer works on (`Consistent`), in every
interleaving. Each consumption takes the leading pending blocks (`Takes`), and a request that fails
moves nothing (`Unmoved`). The engine's head is the canonical head between advances when the last
fork-choice update of each is accepted. An update that fails is only logged: a generation that stops
then leaves behind a queue without a block that no canonical zone block has imported
(`failed_update_strands_input`).
-/

namespace TempoZones

open Lib List P2p.LeadershipScheduleState DepositQueue L1BlockTracker InputNode

variable {K W : Type} [DecidableEq K] [EvmWord W] [DecidableEq W] {rest : List (SealedL1Block W)}

/-! ## Header ranges -/

theorem checkRange_parent {previous : NumHash W} {header : SealedHeader W}
    {headers : List (SealedHeader W)} (h : checkRange K previous (header :: headers) = .ok ()) :
    header.parentHash = previous.hash := by
  rw [checkRange, bind_ok_iff] at h
  obtain ⟨_, -, h⟩ := h
  rw [bind_ok_iff] at h
  obtain ⟨_, hparent, -⟩ := h
  exact require_ok_iff.1 hparent

theorem InputChain.lastOf_room {chain : InputChain W} {done : List (SealedL1Block W)}
    (h : chain.blocks = done ++ rest) : (lastOf chain.base done).number + 1 < 2 ^ 64 := by
  rcases eq_nil_or_concat done with rfl | ⟨front, last, rfl⟩
  · exact chain.base_lt
  rw [concat_eq_append] at h ⊢
  rw [lastOf_concat]
  exact chain.height_lt last (by rw [h]; simp)

/-- Headers that continue a block of the chain and end at another one are the headers in between: each
hash is the parent hash in the next header, from the last one backwards. -/
theorem checkRange_sealed {chain : InputChain W} {headers : List (SealedHeader W)} :
    ∀ {done before later : List (SealedL1Block W)} {b : SealedL1Block W} {previous : NumHash W}
      {last : SealedHeader W},
      chain.blocks = done ++ (before ++ b :: later) →
      previous.number = (lastOf chain.base done).number →
      checkRange K previous headers = .ok () →
      headers.getLast? = some last → last.toNumHash = b.header →
      (∀ header ∈ headers, ∀ x ∈ chain.blocks, header.hash = x.header.hash →
        header = x.sealedHeader) →
      headers = (before ++ [b]).map SealedL1Block.sealedHeader := by
  induction headers with
  | nil => rintro done before later b previous last _ _ _ ⟨⟩
  | cons header headers ih =>
    intro done before later b previous last hblocks hprevious hrange hlast hanchor hsealed
    obtain ⟨hnumber, hrest⟩ := checkRange_cons hrange
    have hroom := InputChain.lastOf_room hblocks
    have hheight : header.number = (lastOf chain.base done).number + 1 := by
      rw [hnumber, saturatingAdd, hprevious]
      omega
    have hbnumber : last.number = b.number := congrArg NumHash.number hanchor
    cases before with
    | nil =>
      -- the range has one height, so nothing can follow the first header
      have hfirst := (L1Chain.next_follows hblocks).1
      cases headers with
      | nil =>
        cases hlast
        have hb : b ∈ chain.blocks := by rw [hblocks]; simp
        rw [hsealed header mem_cons_self b hb (congrArg NumHash.hash hanchor)]
        rfl
      | cons second headers =>
        have hmem : last ∈ second :: headers := by
          rw [List.getLast?_cons_cons] at hlast
          exact mem_of_getLast? hlast
        have hb : b ∈ chain.blocks := by rw [hblocks]; simp
        have hbroom := chain.height_lt b hb
        have habove := checkRange_above hrest (by show header.number + 1 < _; omega) last hmem
        have habove' : header.number < last.number := habove
        omega
    | cons x before =>
      have hx := (L1Chain.next_follows hblocks).1
      have hblocks' : chain.blocks = (done ++ [x]) ++ (before ++ b :: later) := by
        rw [hblocks]
        simp
      have hxlast : (lastOf chain.base (done ++ [x])).number = x.number := by
        rw [lastOf_concat]
        rfl
      cases headers with
      | nil =>
        have hsame : header = last := by simpa using hlast
        have hlt := (L1Chain.lastOf_bounds hblocks').2 b (by simp)
        rw [hsame] at hheight
        omega
      | cons second headers =>
        rw [List.getLast?_cons_cons] at hlast
        have hrange' := ih hblocks' (hheight.trans (hx.symm.trans hxlast.symm)) hrest hlast hanchor
          (fun h hh => hsealed h (mem_cons_of_mem _ hh))
        have hparent := checkRange_parent hrest
        have hlink : second.parentHash = x.header.hash := by
          obtain ⟨y, rest, hy⟩ := exists_cons_of_ne_nil (concat_ne_nil b before)
          rw [hy] at hrange'
          have hnext : chain.blocks = (done ++ [x]) ++ y :: (rest ++ later) := by
            rw [hblocks', ← cons_append, ← hy]
            simp
          rw [(List.cons.inj hrange').1, ← lastOf_concat chain.base done x]
          exact (L1Chain.next_follows hnext).2
        have hxmem : x ∈ chain.blocks := by rw [hblocks]; simp
        have hheader := hsealed header mem_cons_self x hxmem (hparent.symm.trans hlink)
        rw [hrange', hheader]
        rfl

/-! ## Tracker and schedule -/

namespace L1BlockTracker

variable {t : L1BlockTracker W} {block : NumHash W}

theorem record_prunedThrough {consumed : ℕ} (h : t.prunedThrough = some consumed) :
    (t.record block).2.prunedThrough = some consumed := by
  unfold record
  split
  · split <;> exact h
  split
  · exact h
  simp only [h, Option.getD_some]
  split
  · rfl
  · split <;> split <;> rfl

theorem mem_record_observed {o : NumHash W} (h : o ∈ (t.record block).2.observed) :
    o ∈ t.observed ∨ o = block := by
  unfold record at h
  split at h
  · split at h <;> exact .inl h
  split at h
  · exact .inl h
  simp only at h
  split at h
  · exact .inl h
  split at h <;> split at h
  all_goals first
    | exact .inl h
    | simpa [insert] using h

end L1BlockTracker

@[simp] theorem P2p.LeadershipScheduleState.publish_appliedAnchor
    (s : P2p.LeadershipScheduleState K W) (record : P2p.LeadershipState K) :
    (s.publish record).2.appliedAnchor = s.appliedAnchor := by
  have happend : ∀ r, (s.append r).appliedAnchor = s.appliedAnchor := by
    intro r
    exact maybeBoundForcedRecovery_appliedAnchor _
  unfold publish publishRecord
  split
  · split <;> rfl
  split
  · exact happend _
  split
  · split <;> rfl
  split
  · rfl
  split
  · rfl
  · exact happend _

/-! ## Imports that take the front of the queue -/

inductive Takes (q : DepositQueue W) : List (NumHash W) → ZoneImport W → Prop
  | checkpoints {before later : List (SealedL1Block W)} {b : SealedL1Block W}
      (hpending : q.pending = before ++ b :: later) :
      Takes q ((before ++ [b]).map (·.header)) (.checkpointOnly b.header)
  | full {b : SealedL1Block W} {later : List (SealedL1Block W)} {work : List (L1BlockDeposits W)}
      (hpending : q.pending = b :: later) (hwork : q.operationalWork b.header = .ok work) :
      Takes q [b.header] (.full b.header work)

variable {headers : List (NumHash W)}

theorem Takes.push {q : DepositQueue W} {i : ZoneImport W}
    (h : Takes q headers i) (x : SealedL1Block W) : Takes (q.push x) headers i := by
  cases h with
  | checkpoints hpending =>
    apply Takes.checkpoints
    rw [push, hpending, append_assoc, cons_append]
  | @full b later work hpending hwork =>
    have hpushed : (q.push x).pending = b :: (later ++ [x]) := by rw [push, hpending, cons_append]
    apply Takes.full hpushed
    rw [operationalWork_front hpending] at hwork
    rw [operationalWork_front hpushed]
    exact hwork

def Underway (q : DepositQueue W) : AdvanceStage W → Prop
  | .selected front headers =>
    q.pending.head? = some front ∧ headers <+: q.pending.map (·.header)
  | .prepared headers tempoImport | .building headers tempoImport => Takes q headers tempoImport
  | .built block | .accepted block | .persisted block => Takes q block.headers block.tempoImport
  | .idle => True
  | .consumed => False

theorem Underway.push {q : DepositQueue W} {stage : AdvanceStage W} (h : Underway q stage)
    (x : SealedL1Block W) : Underway (q.push x) stage := by
  cases stage with
  | selected front headers =>
    obtain ⟨hfront, hheaders⟩ := h
    constructor
    · rw [DepositQueue.push, List.head?_append, hfront]
      rfl
    · rw [DepositQueue.push, map_append]
      exact hheaders.trans (prefix_append _ _)
  | prepared headers i
  | building headers i => exact Takes.push h x
  | built block
  | accepted block
  | persisted block => exact Takes.push h x
  | idle => trivial
  | consumed => exact h

namespace InputNode

variable {headers : List (NumHash W)}

theorem prepareImport_underway {n : InputNode K W} {front : SealedL1Block W}
    (h : Underway n.queue (.selected front headers))
    (prepares : Bool) : Underway n.queue (n.prepareImport front headers prepares) := by
  obtain ⟨hfront, hheaders⟩ := h
  unfold prepareImport
  split
  · next final hfinal =>
    obtain ⟨before, b, later, hpending, rfl, rfl⟩ := EngineNode.split_of_headers hheaders hfinal
    exact Takes.checkpoints hpending
  split
  · trivial
  · next work hwork =>
    split
    · obtain ⟨later, hpending⟩ := List.head?_eq_some_iff.1 hfront
      exact Takes.full hpending hwork
    · trivial

variable {q : DepositQueue W}

theorem resolvePayload_underway {i : ZoneImport W} (h : Takes q headers i) (payload : Option W) :
    Underway q (resolvePayload headers i payload) := by
  cases payload with
  | none => trivial
  | some hash => exact h

variable {block : ImportingBlock W}

theorem newPayload_underway (h : Takes q block.headers block.tempoImport)
    (answer : PayloadAnswer) : Underway q (newPayload block answer) := by
  cases answer with
  | valid => exact h
  | invalid
  | syncing
  | failed => trivial

theorem persistWitness_underway
    (h : Takes q block.headers block.tempoImport) (outcome : WitnessOutcome) :
    Underway q (persistWitness block outcome) := by
  cases outcome with
  | skipped
  | persisted => exact h
  | failed
  | cancelled => trivial

end InputNode

/-! ## Consumption -/

theorem Accounts.take {chain : L1Chain W} {n : QueueNode W}
    {finished crossed undelivered : List (SealedL1Block W)}
    (h : Accounts chain n finished crossed undelivered)
    {i : ZoneImport W} (htakes : Takes n.queue headers i) :
    ∃ queue finished' crossed', consumeQueue n.queue i = (.ok (), queue) ∧
      i.reconcile n.queue = (.ok (), queue) ∧
      Accounts chain { n with queue := queue, imports := n.imports ++ [i] } finished' crossed'
        undelivered ∧
      (finished' ++ crossed').map (·.header) = (finished ++ crossed).map (·.header) ++ headers ∧
      (zoneCheckpoint chain.base n.imports).number ≤ i.anchor.number := by
  have hblocks : chain.blocks = (finished ++ crossed) ++ (n.queue.pending ++ undelivered) := by
    rw [h.blocks, append_assoc]
  have hbelow : ∀ b ∈ n.queue.pending,
      (zoneCheckpoint chain.base n.imports).number ≤ b.header.number := by
    intro b hb
    rw [h.covers.zoneCheckpoint_eq]
    exact ((L1Chain.lastOf_bounds hblocks).2 b (mem_append_left _ hb)).le
  cases htakes with
  | @checkpoints before later b hpending =>
    have hdeferred := h.deferThrough_pending hpending
    have haccounts := h.checkpointImport hpending
    rw [hdeferred] at haccounts
    exact ⟨_, _, _, hdeferred, hdeferred, haccounts, by simp, hbelow b (by rw [hpending]; simp)⟩
  | @full b later work hpending hwork =>
    exact ⟨_, _, _, confirmOperational_front hpending,
      h.confirmOperationalThrough_front hpending, h.fullImport hpending hwork, by simp,
      hbelow b (by rw [hpending]; simp)⟩

/-! ## Positions -/

namespace InputNode

structure Positions (chain : InputChain W) (n : InputNode K W) (zone : List (ImportingBlock W))
    (finished crossed undelivered : List (SealedL1Block W)) : Prop where
  accounts : Accounts chain.toL1Chain ⟨n.queue, n.delivered, zoneImports zone⟩ finished crossed
    undelivered
  headers : zone.flatMap (·.headers) = (finished ++ crossed).map (·.header)
  applied : n.schedule.appliedAnchor = some (chain.checkpoint zone).number
  pruned : n.tracker.prunedThrough = some (chain.checkpoint zone).number ∨
    n.tracker.prunedThrough = none ∧ n.queue.pending = [] ∧ n.recording = none
  observed : ∀ o ∈ n.tracker.observed, ∃ b ∈ n.delivered, b.header = o
  recording : ∀ o, n.recording = some o → ∃ b ∈ n.delivered, b.header = o

/-- Positions follow the canonical chain, or the chain that the engine is about to make canonical. -/
inductive Consistent (chain : InputChain W) (n : InputNode K W) : Prop
  | settled {finished crossed undelivered : List (SealedL1Block W)}
      (positions : Positions chain n n.canonical finished crossed undelivered)
      (head : n.head = n.canonical) (underway : Underway n.queue n.stage)
      (absent : n.writer = .absent → n.stage = .idle)
  | updating {finished crossed undelivered : List (SealedL1Block W)} {block : ImportingBlock W}
      (positions : Positions chain n (n.canonical ++ [block]) finished crossed undelivered)
      (pruned : n.tracker.prunedThrough ≠ none) (writer : n.writer = .engine (n.canonical ++ [block]))
      (stage : n.stage = .consumed)
      (le : (chain.checkpoint n.canonical).number ≤ block.tempoImport.anchor.number)

/-- Nothing has moved: blocks may have arrived at the end of the queue, and the first synchronization
may have set the height from which the tracker counts. -/
structure Unmoved (n n' : InputNode K W) : Prop where
  pending : ∃ arrived, n'.queue.pending = n.queue.pending ++ arrived
  deferred : n'.queue.deferred = n.queue.deferred
  pruned : n.tracker.prunedThrough = none ∨
    n'.tracker.prunedThrough = n.tracker.prunedThrough
  applied : n'.schedule.appliedAnchor = n.schedule.appliedAnchor
  head : n'.head = n.head
  canonical : n'.canonical = n.canonical

theorem Unmoved.refl (n : InputNode K W) : Unmoved n n :=
  ⟨⟨[], (append_nil _).symm⟩, rfl, .inr rfl, rfl, rfl, rfl⟩

theorem Unmoved.trans {a b c : InputNode K W} (hab : Unmoved a b) (hbc : Unmoved b c) :
    Unmoved a c where
  pending := by
    obtain ⟨first, hfirst⟩ := hab.pending
    obtain ⟨second, hsecond⟩ := hbc.pending
    exact ⟨first ++ second, by rw [hsecond, hfirst, append_assoc]⟩
  deferred := hbc.deferred.trans hab.deferred
  pruned := by
    rcases hab.pruned with hnone | hsame
    · exact .inl hnone
    · rw [← hsame]
      exact hbc.pruned
  applied := hbc.applied.trans hab.applied
  head := hbc.head.trans hab.head
  canonical := hbc.canonical.trans hab.canonical

section Steps

variable {chain : InputChain W} {n n' : InputNode K W} {zone : List (ImportingBlock W)}
  {finished crossed undelivered : List (SealedL1Block W)}

theorem checkpoint_concat (zone : List (ImportingBlock W)) (block : ImportingBlock W) :
    chain.checkpoint (zone ++ [block]) = block.tempoImport.anchor := by
  rw [InputChain.checkpoint, zoneImports, map_append, zoneCheckpoint, foldl_append]
  rfl

theorem head_engine {lastHeader : List (ImportingBlock W)} (h : n.writer = .engine lastHeader) :
    n.head = lastHeader := by
  rw [head, h]

theorem head_follower (h : n.writer = .follower) : n.head = n.canonical := by rw [head, h]

namespace Positions

/-! ## Subscriber -/

variable {block : ImportingBlock W}

section

variable (h : Positions chain n zone finished crossed undelivered)
include h

theorem synchronized {number : ℕ} (hle : number ≤ (chain.checkpoint zone).number)
    (hfirst : n.tracker.prunedThrough = none → number = (chain.checkpoint zone).number) :
    (n.tracker.initializeConsumedThrough number).prunedThrough =
      some (chain.checkpoint zone).number := by
  rcases h.pruned with hsome | ⟨hnone, -⟩
  · rw [initializeConsumedThrough, hsome]
    exact congrArg some (max_eq_left hle)
  · rw [initializeConsumedThrough, hnone, hfirst hnone]
    rfl

theorem deliver {b : SealedL1Block W} (hsynchronized : n.tracker.prunedThrough.isSome = true)
    (hnext : chain.blocks = n.delivered ++ b :: rest) :
    Positions chain
      { n with
        queue := (n.queue.tryEnqueueSealed b).2
        delivered := n.delivered ++ [b]
        recording := some b.header }
      zone finished crossed rest where
  accounts := h.accounts.deliver hnext
  headers := h.headers
  applied := h.applied
  pruned := by
    rcases h.pruned with hsome | ⟨hnone, -⟩
    · exact .inl hsome
    · rw [hnone] at hsynchronized
      cases hsynchronized
  observed := by
    intro o ho
    obtain ⟨x, hx, hheader⟩ := h.observed o ho
    exact ⟨x, mem_append_left _ hx, hheader⟩
  recording := by
    intro o ho
    cases ho
    exact ⟨b, by simp, rfl⟩

theorem delivered_unmoved {b : SealedL1Block W} (hnext : chain.blocks = n.delivered ++ b :: rest) :
    Unmoved n
      { n with
        queue := (n.queue.tryEnqueueSealed b).2
        delivered := n.delivered ++ [b]
        recording := some b.header } := by
  rw [h.accounts.tryEnqueueSealed_next hnext]
  exact { Unmoved.refl n with pending := ⟨[b], rfl⟩ }

theorem recorded {block : NumHash W} (hrecording : n.recording = some block) :
    (n.tracker.record block).2.prunedThrough = some (chain.checkpoint zone).number ∧
      n.tracker.prunedThrough = some (chain.checkpoint zone).number := by
  rcases h.pruned with hsome | ⟨-, -, hnone⟩
  · exact ⟨record_prunedThrough hsome, hsome⟩
  · rw [hnone] at hrecording
    cases hrecording

theorem record {block : NumHash W} (hrecording : n.recording = some block) :
    Positions chain { n with tracker := (n.tracker.record block).2, recording := none } zone
      finished crossed undelivered :=
  { h with
    pruned := .inl (h.recorded hrecording).1
    observed := by
      intro o ho
      rcases mem_record_observed ho with hold | rfl
      · exact h.observed o hold
      · exact h.recording o hrecording
    recording := by
      intro o ho
      cases ho }

theorem record_unmoved {block : NumHash W} (hrecording : n.recording = some block) :
    Unmoved n { n with tracker := (n.tracker.record block).2, recording := none } := by
  obtain ⟨hkept, hpruned⟩ := h.recorded hrecording
  exact { Unmoved.refl n with pruned := .inr (hkept.trans hpruned.symm) }

/-! ## Imports -/

theorem imported (htakes : Takes n.queue block.headers block.tempoImport) :
    ∃ queue finished' crossed', consumeQueue n.queue block.tempoImport = (.ok (), queue) ∧
      block.tempoImport.reconcile n.queue = (.ok (), queue) ∧
      Positions chain
        { n with
          queue := queue
          tracker := n.tracker.pruneThrough block.tempoImport.anchor.number
          schedule := n.schedule.recordAppliedAnchor block.tempoImport.anchor.number }
        (zone ++ [block]) finished' crossed' undelivered ∧
      (chain.checkpoint zone).number ≤ block.tempoImport.anchor.number := by
  obtain ⟨queue, finished', crossed', hconsumed, hreconciled, haccounts, hheaders, hle⟩ :=
    h.accounts.take htakes
  refine ⟨queue, finished', crossed', hconsumed, hreconciled, ⟨?_, ?_, ?_, ?_, ?_, h.recording⟩, hle⟩
  · rw [zoneImports, map_append]
    exact haccounts
  · rw [flatMap_append, h.headers, hheaders]
    simp
  · -- anchor and pruned height are maxima; the block's anchor is at or above the checkpoint
    rw [checkpoint_concat, recordAppliedAnchor, h.applied]
    exact congrArg some (max_eq_right hle)
  · left
    rw [checkpoint_concat, pruneThrough]
    rcases h.pruned with hsome | ⟨hnone, -⟩
    · rw [hsome]
      exact congrArg some (max_eq_right hle)
    · rw [hnone]
      rfl
  · intro o ho
    exact h.observed o (mem_filter.1 ho).1

theorem takes_of_validated {decoded : DecodedTempoImport W}
    (hsealed : ∀ header ∈ decoded.headers, ∀ b ∈ chain.blocks, header.hash = b.header.hash → header = b.sealedHeader)
    (hvalid : Validated K chain n.queue n.tracker zone decoded block) :
    Takes n.queue block.headers block.tempoImport := by
  obtain ⟨last, hlast, hobserves, himport⟩ := hvalid.anchor
  obtain ⟨b, hb, hheader⟩ := h.observed _ (mem_of_find?_eq_some (of_decide_eq_true hobserves))
  have hblocks : chain.blocks = (finished ++ crossed) ++ (n.queue.pending ++ undelivered) := by
    rw [h.accounts.blocks, append_assoc]
  have hrange := hvalid.range
  rw [validateL1CheckpointRange, bind_ok_iff, InputChain.checkpoint,
    h.accounts.covers.zoneCheckpoint_eq chain.base] at hrange
  obtain ⟨_, -, hrange⟩ := hrange
  -- the anchor is above the checkpoint, so its block is still queued
  have habove : (lastOf chain.base (finished ++ crossed)).number < last.number :=
    checkRange_above hrange (InputChain.lastOf_room hblocks) last (mem_of_getLast? hlast)
  have hnumber : b.number = last.number := congrArg NumHash.number hheader
  have hpending : b ∈ n.queue.pending := by
    have hdelivered : b ∈ (finished ++ crossed) ++ n.queue.pending := by
      rw [append_assoc, ← h.accounts.delivered]
      exact hb
    rcases mem_append.1 hdelivered with hconsumed | hpending
    · have hle := (L1Chain.lastOf_bounds hblocks).1 b hconsumed
      omega
    · exact hpending
  obtain ⟨before, later, hsplit⟩ := append_of_mem hpending
  have hcut : chain.blocks = (finished ++ crossed) ++ (before ++ b :: (later ++ undelivered)) := by
    rw [hblocks, hsplit]
    simp
  have hheaders := checkRange_sealed hcut rfl hrange hlast hheader.symm hsealed
  have htaken : block.headers = (before ++ [b]).map (·.header) := by
    rw [hvalid.headers, hheaders, map_map]
    rfl
  rw [htaken]
  rw [← hheader] at himport
  cases decoded with
  | checkpointOnly headers =>
    rw [← Except.ok.inj himport]
    exact Takes.checkpoints hsplit
  | full header deposits tokens =>
    -- a full import carries one header, so nothing is queued before its block
    have hsingle : before = [] := by
      have hlength := congrArg List.length hheaders
      simp only [DecodedTempoImport.headers, length_singleton, length_map, length_append] at hlength
      exact eq_nil_of_length_eq_zero (by omega)
    subst hsingle
    simp only [peerImport, Except.map] at himport
    split at himport
    · cases himport
    · next work hwork =>
      rw [← Except.ok.inj himport]
      exact Takes.full hsplit hwork

end

end Positions

/-! ## One step -/

theorem updated_of_valid {answer : ForkchoiceAnswer} (h : answer.isValid = true) :
    answer.updated = true := by
  cases answer with
  | valid _ => rfl
  | invalid
  | syncing
  | invalidAttributes
  | failed => cases h

theorem concat_ne (zone : List (ImportingBlock W)) (block : ImportingBlock W) :
    zone ++ [block] ≠ zone := by
  intro h
  have hlength := congrArg List.length h
  simp at hlength

/-- Every step keeps the positions together, and a step that neither consumes input nor makes a block
canonical moves nothing. -/
theorem Consistent.step (h : Consistent chain n)
    (hstep : Step chain (fun answer => answer.isValid = true) n n') :
    (Unmoved n n' ∨ n'.stage = .consumed ∨ n'.stage = .idle ∧ n'.canonical ≠ n.canonical) ∧
      Consistent chain n' := by
  have hpublish := publish_appliedAnchor n.schedule
  cases h with
  | settled hpos hhead hunderway habsent =>
    -- a fork-choice update to the engine's head has no effect while that head is canonical
    have hupdate : ∀ {lastHeader} (answer : ForkchoiceAnswer), n.writer = .engine lastHeader →
        n.forkchoiceUpdated lastHeader answer = n := by
      intro lastHeader answer hwriter
      have hsame : n.canonical = lastHeader := hhead.symm.trans (head_engine hwriter)
      unfold forkchoiceUpdated
      split
      · rw [← hsame]
      · rfl
    have hstill : ∀ stage, Unmoved n { n with stage := stage } := fun _ => { Unmoved.refl n with }
    have hnext : ∀ {stage : AdvanceStage W}, n.stage ≠ .idle ∨ n.writer ≠ .absent →
        Underway n.queue stage → Consistent chain { n with stage := stage } := by
      intro stage hrunning hstage
      refine .settled { hpos with } hhead hstage fun hwriter => ?_
      rcases hrunning with hidle | hpresent
      · exact absurd (habsent hwriter) hidle
      · exact absurd hwriter hpresent
    have hat : ∀ {stage : AdvanceStage W}, n.stage = stage → Underway n.queue stage :=
      fun hstage => hstage ▸ hunderway
    cases hstep with
    | synchronize =>
      have hpruned := hpos.synchronized le_rfl fun _ => rfl
      refine ⟨.inl { Unmoved.refl n with pruned := ?_ },
        .settled { hpos with pruned := .inl hpruned } hhead hunderway habsent⟩
      exact hpos.pruned.symm.imp (fun hnone => hnone.1) fun hsome => hpruned.trans hsome.symm
    | @deliver b rest hrecorded hsynchronized hnew =>
      refine ⟨.inl (hpos.delivered_unmoved hnew), .settled (hpos.deliver hsynchronized hnew)
        hhead ?_ habsent⟩
      show Underway (n.queue.tryEnqueueSealed b).2 n.stage
      rw [hpos.accounts.tryEnqueueSealed_next hnew]
      exact hunderway.push b
    | record hrecording =>
      exact ⟨.inl (hpos.record_unmoved hrecording),
        .settled (hpos.record hrecording) hhead hunderway habsent⟩
    | publish record =>
      exact ⟨.inl { Unmoved.refl n with applied := hpublish record },
        .settled { hpos with applied := (hpublish record).trans hpos.applied } hhead hunderway
          habsent⟩
    | startLeader hnone
    | startFollower hnone =>
      -- a new generation starts from the head of the provider
      exact ⟨.inl { Unmoved.refl n with head := hhead.symm },
        .settled { hpos with } rfl hunderway fun _ => habsent hnone⟩
    | stop hstage =>
      exact ⟨.inl { Unmoved.refl n with head := hhead.symm },
        .settled { hpos with } rfl hunderway fun _ => hstage⟩
    | heartbeat answer hwriter hstage =>
      rw [hupdate answer hwriter]
      exact ⟨.inl (Unmoved.refl n), .settled hpos hhead hunderway habsent⟩
    | select count hwriter hstage hfront =>
      refine ⟨.inl (hstill _), hnext (.inr (by rw [hwriter]; nofun)) ⟨hfront, ?_⟩⟩
      rw [map_take]
      exact take_prefix _ _
    | prepare prepares hstage =>
      exact ⟨.inl (hstill _), hnext (.inl (by rw [hstage]; nofun))
        (prepareImport_underway (hat hstage) prepares)⟩
    | @requestPayload lastHeader headers tempoImport answer hwriter hstage =>
      have htakes : Takes n.queue headers tempoImport := hat hstage
      rw [requestPayload, hupdate answer hwriter]
      refine ⟨.inl (hstill _), hnext (.inl (by rw [hstage]; nofun)) ?_⟩
      split
      · exact htakes
      · trivial
    | resolvePayload payload hstage =>
      exact ⟨.inl (hstill _), hnext (.inl (by rw [hstage]; nofun))
        (resolvePayload_underway (hat hstage) payload)⟩
    | newPayload answer hstage =>
      exact ⟨.inl (hstill _), hnext (.inl (by rw [hstage]; nofun))
        (newPayload_underway (hat hstage) answer)⟩
    | persistWitness outcome hstage =>
      exact ⟨.inl (hstill _), hnext (.inl (by rw [hstage]; nofun))
        (persistWitness_underway (hat hstage) outcome)⟩
    | @consume lastHeader block hwriter hstage =>
      -- the queue has what was accepted, so consumption does not fail
      obtain ⟨queue, _, _, hconsumed, -, hmoved, hle⟩ := hpos.imported (hat hstage)
      obtain rfl : n.canonical = lastHeader := hhead.symm.trans (head_engine hwriter)
      unfold consume
      rw [hconsumed]
      exact ⟨.inr (.inl rfl), .updating { hmoved with } nofun rfl rfl hle⟩
    | finishAdvance hwriter hstage _ => exact (hat hstage).elim
    | receive hwriter hstage hsealed hvalid =>
      exact ⟨.inl (hstill _), hnext (.inr (by rw [hwriter]; nofun))
        (hpos.takes_of_validated hsealed hvalid)⟩
    | duplicate hwriter hstage hold =>
      -- a canonical block lies before everything that is still queued
      have hqueue := hpos.accounts.reconcile_old (mem_map_of_mem hold)
      simp only at hqueue
      rw [hqueue]
      exact ⟨.inl (Unmoved.refl n), .settled hpos hhead hunderway habsent⟩
    | @finishImport block answer hwriter hstage hplain =>
      by_cases hvalid : answer.isValid = true
      · obtain ⟨queue, _, _, -, hreconciled, hmoved, -⟩ := hpos.imported (hat hstage)
        unfold finishImport
        rw [if_pos hvalid]
        simp only [hreconciled]
        exact ⟨.inr (.inr ⟨trivial, concat_ne _ _⟩),
          .settled { hmoved with } (head_follower hwriter) trivial fun _ => rfl⟩
      · -- the follower sends no payload attributes, so a refusal leaves the head alone
        have hupdated : answer.updated = false := by
          cases answer with
          | valid _ => exact absurd rfl hvalid
          | invalidAttributes => exact absurd rfl hplain
          | invalid
          | syncing
          | failed => rfl
        rw [finishImport, if_neg hvalid, forkchoiceUpdated, hupdated]
        exact ⟨.inl (hstill _), hnext (.inr (by rw [hwriter]; nofun)) trivial⟩
  | @updating _ _ _ block hpos hpruned hwriter hstage hle =>
    -- the engine waits for its last update: only the subscriber runs on
    have hbehind : (chain.checkpoint n.canonical).number ≤
        (chain.checkpoint (n.canonical ++ [block])).number := by
      rw [checkpoint_concat]
      exact hle
    cases hstep with
    | synchronize =>
      have hkept := hpos.synchronized hbehind fun hnone => absurd hnone hpruned
      have hsome := hpos.pruned.resolve_right fun hnone => hpruned hnone.1
      exact ⟨.inl { Unmoved.refl n with pruned := .inr (hkept.trans hsome.symm) },
        .updating { hpos with pruned := .inl hkept } nofun hwriter hstage hle⟩
    | deliver hrecorded hsynchronized hnew =>
      exact ⟨.inl (hpos.delivered_unmoved hnew),
        .updating (hpos.deliver hsynchronized hnew) hpruned hwriter hstage hle⟩
    | record hrecording =>
      refine ⟨.inl (hpos.record_unmoved hrecording),
        .updating (hpos.record hrecording) ?_ hwriter hstage hle⟩
      rw [(hpos.recorded hrecording).1]
      nofun
    | publish record =>
      exact ⟨.inl { Unmoved.refl n with applied := hpublish record },
        .updating { hpos with applied := (hpublish record).trans hpos.applied } hpruned hwriter
          hstage hle⟩
    | @finishAdvance lastHeader answer hengine _ hvalid =>
      obtain rfl : n.canonical ++ [block] = lastHeader :=
        (head_engine hwriter).symm.trans (head_engine hengine)
      rw [finishAdvance, forkchoiceUpdated, if_pos (updated_of_valid hvalid)]
      exact ⟨.inr (.inr ⟨rfl, concat_ne _ _⟩),
        .settled { hpos with } (head_engine hengine) trivial fun _ => rfl⟩
    | startLeader hnone
    | startFollower hnone => cases hwriter.symm.trans hnone
    | stop hother
    | heartbeat _ _ hother
    | select _ _ hother _
    | prepare _ hother
    | requestPayload _ _ hother
    | resolvePayload _ hother
    | newPayload _ hother
    | persistWitness _ hother
    | consume _ hother
    | receive _ hother _ _
    | duplicate _ hother _
    | finishImport _ _ hother _ => cases hstage.symm.trans hother

/-! ## Runs -/

theorem Consistent.of_boots (h : Boots chain n) : Consistent chain n := by
  obtain ⟨finished, crossed, undelivered, haccounts⟩ := Accounts.of_run h.queue
  have hdelivered : n.delivered = finished ++ (crossed ++ n.queue.pending) := haccounts.delivered
  rw [h.pending, append_nil] at hdelivered
  refine .settled ⟨haccounts, by rw [h.headers, hdelivered], h.applied,
    .inr ⟨by rw [h.tracker]; rfl, h.pending, h.recording⟩, ?_, ?_⟩ (by rw [head, h.writer])
    (by rw [h.stage]; trivial) fun _ => h.stage
  · rw [h.tracker]
    nofun
  · rw [h.recording]
    nofun

theorem Consistent.of_reached (h : Reached chain (fun answer => answer.isValid = true) n) :
    Consistent chain n := by
  obtain ⟨n₀, hboots, hrun⟩ := h
  induction hrun with
  | refl => exact .of_boots hboots
  | tail _ hstep ih => exact (ih.step hstep).2

def Attempts (chain : InputChain W) (n n' : InputNode K W) : Prop :=
  Step chain (fun answer => answer.isValid = true) n n' ∧ n'.stage.running = true

theorem Consistent.attempts (h : Consistent chain n)
    (hrun : Relation.ReflTransGen (Attempts chain) n n') : Unmoved n n' ∧ Consistent chain n' := by
  induction hrun with
  | refl => exact ⟨Unmoved.refl n, h⟩
  | tail _ hattempt ih =>
    obtain ⟨hstep, hrunning⟩ := hattempt
    obtain ⟨hmoved, hnext⟩ := ih.2.step hstep
    refine ⟨ih.1.trans ?_, hnext⟩
    rcases hmoved with hstill | hstage | ⟨hstage, -⟩
    · exact hstill
    · rw [hstage] at hrunning
      cases hrunning
    · rw [hstage] at hrunning
      cases hrunning

end Steps

/-! ## Between two advances -/

/-- In every run in which the last fork-choice update of each advance is accepted, whenever no
advance is running: the blocks that have left the queue are those imported by the canonical zone
blocks, they end at the checkpoint of the canonical head, tracker, schedule and engine stand there,
no header is imported twice, and an advance that fails leaves all positions as they were. -/
theorem l1_input_consumed_by_canonical_blocks {chain : InputChain W} {n : InputNode K W}
    (hreached : Reached chain (fun answer => answer.isValid = true) n) (hidle : n.stage = .idle) :
    (∃ left, n.delivered = left ++ n.queue.pending ∧
        left.map (·.header) = n.canonical.flatMap (·.headers) ∧
        lastOf chain.base left = chain.checkpoint n.canonical) ∧
      (n.tracker.prunedThrough = some (chain.checkpoint n.canonical).number ∨
        n.tracker.prunedThrough = none ∧ n.queue.pending = []) ∧
      n.schedule.appliedAnchor = some (chain.checkpoint n.canonical).number ∧
      n.head = n.canonical ∧
      (n.canonical.flatMap (·.headers)).Nodup ∧
      ∀ n₁ n₂, Relation.ReflTransGen (Attempts chain) n n₁ →
        Step chain (fun answer => answer.isValid = true) n₁ n₂ → n₂.stage = .idle →
        n₂.canonical = n.canonical → Unmoved n n₂ := by
  cases Consistent.of_reached hreached with
  | updating _ _ _ hstage => cases hstage.symm.trans hidle
  | @settled finished crossed undelivered hpos hhead hunderway habsent =>
    refine ⟨⟨finished ++ crossed, ?_, hpos.headers.symm, ?_⟩, ?_, hpos.applied, hhead, ?_, ?_⟩
    · rw [append_assoc]
      exact hpos.accounts.delivered
    · exact (hpos.accounts.covers.zoneCheckpoint_eq chain.base).symm
    · exact hpos.pruned.imp_right fun hnone => ⟨hnone.1, hnone.2.1⟩
    · rw [hpos.headers]
      -- heights grow along the chain, so its headers are pairwise different
      have hordered := chain.ordered
      rw [hpos.accounts.blocks, ← append_assoc] at hordered
      refine pairwise_map.2 ((pairwise_append.1 hordered).1.imp ?_)
      intro a b hlt hsame
      exact absurd (congrArg NumHash.number hsame) hlt.ne
    · intro n₁ n₂ hattempts hstep hstage hcanonical
      obtain ⟨hstill, hnext⟩ :=
        (Consistent.settled hpos hhead hunderway habsent).attempts hattempts
      rcases (hnext.step hstep).1 with hlast | hconsumed | ⟨-, hmoved⟩
      · exact hstill.trans hlast
      · cases hstage.symm.trans hconsumed
      · exact absurd (hcanonical.trans hstill.canonical.symm) hmoved

namespace Example

open QueueExample

def inputChain : InputChain Sym where
  toL1Chain := QueueExample.chain
  base_lt := by decide
  height_lt := by decide

def booted : InputNode ℕ Sym where
  queue := .new
  delivered := []
  recording := none
  tracker := .new
  schedule := uninitialized.recordAppliedAnchor 4
  canonical := []
  writer := .absent
  stage := .idle

theorem booted_boots : Boots inputChain booted where
  queue := .refl
  pending := rfl
  headers := rfl
  recording := rfl
  tracker := rfl
  applied := rfl
  writer := rfl
  stage := rfl

def importing : ImportingBlock Sym :=
  ⟨.num 9, [enabling.header], .full enabling.header [enabling.toL1BlockDeposits]⟩

def leading : InputNode ℕ Sym where
  queue := ⟨[enabling], none, some enabling.header⟩
  delivered := [enabling]
  recording := none
  tracker := ⟨[enabling.header], some enabling.header, some 4⟩
  schedule := uninitialized.recordAppliedAnchor 4
  canonical := []
  writer := .engine []
  stage := .idle

/-- The leader between the consumption of the block and the last fork-choice update. -/
def consumed : InputNode ℕ Sym :=
  { leading with stage := .persisted importing }.consume [] importing

theorem leading_run (final : ForkchoiceAnswer → Prop) :
    Relation.ReflTransGen (Step inputChain final) booted leading := by
  have hsynchronized : Step inputChain final booted _ := .synchronize
  have hdelivered := (Relation.ReflTransGen.single hsynchronized).tail
    (.deliver (b := enabling) rfl rfl rfl)
  have hrecorded := hdelivered.tail (.record rfl)
  exact hrecorded.tail (.startLeader rfl)

theorem consumed_run (final : ForkchoiceAnswer → Prop) :
    Relation.ReflTransGen (Step inputChain final) booted consumed := by
  have hselected := (leading_run final).tail (.select 0 rfl rfl rfl)
  have hprepared := hselected.tail (.prepare true rfl)
  have hrequested := hprepared.tail (.requestPayload (.valid true) rfl rfl)
  have hbuilt := hrequested.tail (.resolvePayload (some (.num 9)) rfl)
  have haccepted := hbuilt.tail (.newPayload .valid rfl)
  have hpersisted : Relation.ReflTransGen (Step inputChain final) booted
      { leading with stage := .persisted importing } :=
    haccepted.tail (.persistWitness .persisted rfl)
  exact hpersisted.tail (.consume rfl rfl)

def advanced : InputNode ℕ Sym := consumed.finishAdvance [importing] (.valid false)

theorem advanced_reached : Reached inputChain (fun answer => answer.isValid = true) advanced :=
  ⟨booted, booted_boots, (consumed_run _).tail (.finishAdvance rfl rfl rfl)⟩

/-- The block that left the queue is the one that the canonical zone block imports. -/
theorem l1_input_consumed_example :
    Reached inputChain (fun answer => answer.isValid = true) advanced ∧ advanced.stage = .idle ∧
      advanced.queue.pending = [] ∧ advanced.canonical = [importing] ∧
      advanced.tracker.prunedThrough = some 5 ∧ advanced.schedule.appliedAnchor = some 5 ∧
      advanced.head = advanced.canonical := by
  have h := l1_input_consumed_by_canonical_blocks advanced_reached rfl
  exact ⟨advanced_reached, rfl, rfl, rfl, rfl, h.2.2.1, h.2.2.2.1⟩

/-- The update of the same advance has failed, the generation was stopped, and a new one was started. -/
def stranded : InputNode ℕ Sym :=
  { consumed with writer := .engine [], stage := .idle }

/-- The engine is on the canonical head, whose checkpoint is still the base of the chain, but the
next block has left the queue, and tracker and schedule are past it. -/
theorem failed_update_strands_input :
    Reached inputChain (fun _ => True) stranded ∧ stranded.stage = .idle ∧
      stranded.writer = .engine stranded.canonical ∧
      inputChain.checkpoint stranded.canonical = ⟨4, .num 4⟩ ∧
      stranded.canonical.flatMap (·.headers) = [] ∧
      stranded.delivered = [enabling] ∧ stranded.queue.pending = [] ∧
      stranded.tracker.prunedThrough = some 5 ∧ stranded.schedule.appliedAnchor = some 5 := by
  have hfailed : Step inputChain (fun _ => True) consumed (consumed.finishAdvance [importing] .failed) :=
    .finishAdvance rfl rfl trivial
  have hfinished := (consumed_run fun _ => True).tail hfailed
  have hstopped := hfinished.tail (.stop rfl)
  exact ⟨⟨booted, booted_boots, hstopped.tail (.startLeader rfl)⟩, rfl, rfl, rfl, rfl, rfl, rfl, rfl,
    rfl⟩

end Example

end InputNode

end TempoZones
