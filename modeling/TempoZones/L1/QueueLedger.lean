import TempoZones.L1.DepositQueue

/-!
# No portal work is lost by the queue

`QueueNode` follows a deposit queue with the blocks delivered to it and the imports of the zone
chain. Blocks are delivered in order and may be delivered again; the node leads or follows, and may
restart at any checkpoint. `Accounts` splits the delivered blocks into those whose work was
released, those crossed since the last full import, and the pending ones; every step keeps the
split.
-/

namespace TempoZones

open Lib List Relation DepositQueue

variable {W : Type} [EvmWord W] [DecidableEq W] {done : List (SealedL1Block W)} {q : DepositQueue W}

/-! ## Canonical chain and imports -/

/-- The finalized Tempo chain after the block that anchors the zone's genesis. -/
structure L1Chain (W : Type) where
  base : NumHash W
  blocks : List (SealedL1Block W)
  first : ∀ b ∈ blocks.head?, b.number = base.number + 1 ∧ b.parentHash = base.hash
  linked : blocks.IsChain SealedL1Block.Follows
  number_lt : ∀ b ∈ blocks, b.number < 2 ^ 64

/-- An import of the canonical zone chain. A full import records the work that `operational_work`
returned for it. -/
inductive ZoneImport (W : Type) where
  | checkpointOnly (anchor : NumHash W)
  | full (anchor : NumHash W) (work : List (L1BlockDeposits W))

namespace ZoneImport

def anchor : ZoneImport W → NumHash W
  | .checkpointOnly anchor => anchor
  | .full anchor _ => anchor

def work : ZoneImport W → List (L1BlockDeposits W)
  | .checkpointOnly _ => []
  | .full _ work => work

/-- `reconcile_canonical_import`. -/
def reconcile (q : DepositQueue W) : ZoneImport W → Except (QueueError W) Unit × DepositQueue W
  | .checkpointOnly anchor => q.deferThrough anchor
  | .full anchor _ => q.confirmOperationalThrough anchor

end ZoneImport

/-- `latest_operational_tempo_block`: anchor height of the last full import. -/
def lastOperational (base : ℕ) (imports : List (ZoneImport W)) : ℕ :=
  imports.foldl (fun last i => match i with
    | .checkpointOnly _ => last
    | .full anchor _ => anchor.number) base

def zoneCheckpoint (base : NumHash W) (imports : List (ZoneImport W)) : NumHash W :=
  imports.foldl (fun _ i => i.anchor) base

def L1Chain.between (chain : L1Chain W) (low high : ℕ) : List (SealedL1Block W) :=
  chain.blocks.filter fun b => decide (low < b.number ∧ b.number ≤ high)

/-! ## Runs -/

/-- A queue with the blocks delivered to it and the imports of the zone chain. -/
structure QueueNode (W : Type) where
  queue : DepositQueue W
  delivered : List (SealedL1Block W)
  imports : List (ZoneImport W)

namespace QueueNode

def start : QueueNode W := ⟨.new, [], []⟩

def recovered (chain : L1Chain W) (imports : List (ZoneImport W)) :
    Except (QueueError W) Unit × DepositQueue W :=
  let last := lastOperational chain.base.number imports
  let checkpoint := zoneCheckpoint chain.base imports
  new.recoverDeferredWork (last + 1) checkpoint (chain.between last checkpoint.number)

/-- What happens to the queue of a node. A restart may lose the imports that were not yet persisted. -/
inductive Step (chain : L1Chain W) (n : QueueNode W) : QueueNode W → Prop
  | deliver {b : SealedL1Block W} {rest : List (SealedL1Block W)}
      (hnext : chain.blocks = n.delivered ++ b :: rest) :
      Step chain n
        { n with queue := (n.queue.tryEnqueueSealed b).2, delivered := n.delivered ++ [b] }
  | redeliver {b : SealedL1Block W} (hold : b ∈ n.queue.pending ∨
        (b ∈ n.delivered ∧ n.queue.lastEnqueued.isSome = true)) :
      Step chain n { n with queue := (n.queue.tryEnqueueSealed b).2 }
  | leaderFull {b : SealedL1Block W} {later : List (SealedL1Block W)}
      {work : List (L1BlockDeposits W)} (hfront : n.queue.pending = b :: later)
      (hwork : n.queue.operationalWork b.header = .ok work) :
      Step chain n
        { n with queue := (n.queue.confirmOperational b.header).2
                 imports := n.imports ++ [.full b.header work] }
  | followerFull {b : SealedL1Block W} {later : List (SealedL1Block W)}
      {work : List (L1BlockDeposits W)} (hfront : n.queue.pending = b :: later)
      (hwork : n.queue.operationalWork b.header = .ok work) :
      Step chain n
        { n with queue := (n.queue.confirmOperationalThrough b.header).2
                 imports := n.imports ++ [.full b.header work] }
  | checkpointOnly {b : SealedL1Block W} (hpending : b ∈ n.queue.pending) :
      Step chain n
        { n with queue := (n.queue.deferThrough b.header).2
                 imports := n.imports ++ [.checkpointOnly b.header] }
  | duplicate {i : ZoneImport W} (hold : i ∈ n.imports) :
      Step chain n { n with queue := (i.reconcile n.queue).2 }
  | restart {kept lost : List (ZoneImport W)} (hkept : n.imports = kept ++ lost) :
      Step chain n
        { queue := (recovered chain kept).2
          delivered := chain.between chain.base.number (zoneCheckpoint chain.base kept).number
          imports := kept }

end QueueNode

open QueueNode

/-! ## Heights of the chain -/

def lastOf (base : NumHash W) (blocks : List (SealedL1Block W)) : NumHash W :=
  blocks.getLast?.elim base (·.header)

@[simp] theorem lastOf_concat (base : NumHash W) (blocks : List (SealedL1Block W))
    (b : SealedL1Block W) : lastOf base (blocks ++ [b]) = b.header := by
  rw [lastOf, List.getLast?_concat]
  rfl

namespace L1Chain

variable (chain : L1Chain W)

theorem ordered : chain.blocks.Pairwise fun a b => a.number < b.number := by
  have hchain : chain.blocks.IsChain fun a b => a.number < b.number :=
    chain.linked.imp fun a b h => by rw [h.1]; exact Nat.lt_succ_self _
  exact hchain.pairwise

variable {b : SealedL1Block W}

theorem base_lt (hb : b ∈ chain.blocks) : chain.base.number < b.number := by
  have hordered := chain.ordered
  have hfirst := chain.first
  cases hblocks : chain.blocks with
  | nil =>
    rw [hblocks] at hb
    cases hb
  | cons first rest =>
    rw [hblocks] at hb hordered hfirst
    have hnext := (hfirst first rfl).1
    rcases mem_cons.1 hb with rfl | hrest
    · omega
    · have hlt := (pairwise_cons.1 hordered).1 b hrest
      omega

variable {chain}

theorem lastOf_bounds {rest : List (SealedL1Block W)} (h : chain.blocks = done ++ rest) :
    (∀ b ∈ done, b.number ≤ (lastOf chain.base done).number) ∧
      ∀ b ∈ rest, (lastOf chain.base done).number < b.number := by
  have hordered := chain.ordered
  rw [h] at hordered
  obtain ⟨hdone, -, hcross⟩ := pairwise_append.1 hordered
  rcases eq_nil_or_concat done with rfl | ⟨front, last, rfl⟩
  · refine ⟨nofun, fun b hb => ?_⟩
    exact chain.base_lt (by rw [h]; exact mem_append_right _ hb)
  rw [concat_eq_append] at hdone hcross ⊢
  rw [lastOf_concat]
  refine ⟨fun b hb => ?_, fun b hb => ?_⟩
  · rcases mem_append.1 hb with hfront | hlast
    · exact ((pairwise_append.1 hdone).2.2 b hfront last (mem_singleton_self last)).le
    · rw [mem_singleton.1 hlast]
      exact le_rfl
  · exact hcross last (by simp) b hb

theorem next_follows {rest : List (SealedL1Block W)} (h : chain.blocks = done ++ b :: rest) :
    b.number = (lastOf chain.base done).number + 1 ∧
      b.parentHash = (lastOf chain.base done).hash := by
  rcases eq_nil_or_concat done with rfl | ⟨front, last, rfl⟩
  · exact chain.first b (by rw [h]; rfl)
  have hlinked := chain.linked
  rw [h, concat_eq_append] at hlinked
  rw [concat_eq_append, lastOf_concat]
  exact (isChain_append.1 hlinked).2.2 last (by simp) b (by simp)

theorem between_eq {range rest : List (SealedL1Block W)}
    (h : chain.blocks = done ++ (range ++ rest)) :
    chain.between (lastOf chain.base done).number (lastOf chain.base (done ++ range)).number =
      range := by
  obtain ⟨hdone, hafter⟩ := lastOf_bounds h
  obtain ⟨hrange, hrest⟩ := lastOf_bounds (h.trans (append_assoc _ _ _).symm)
  rw [between, h, filter_append, filter_append, (filter_eq_nil_iff (l := done)).2 ?_,
    (filter_eq_self (l := range)).2 ?_, (filter_eq_nil_iff (l := rest)).2 ?_, nil_append, append_nil]
  · intro b hb
    have := hrest b hb
    simp only [decide_eq_true_eq, not_and]
    omega
  · intro b hb
    exact decide_eq_true ⟨hafter b (mem_append_left _ hb), hrange b (mem_append_right _ hb)⟩
  · intro b hb
    have := hdone b hb
    simp only [decide_eq_true_eq, not_and]
    omega

theorem tryEnqueueSealed_next {delivered rest : List (SealedL1Block W)}
    (hnext : chain.blocks = delivered ++ b :: rest) (hpending : ∀ x ∈ q.pending, x ∈ delivered)
    (hlast : q.lastEnqueued = none ∨ q.lastEnqueued = some (lastOf chain.base delivered)) :
    q.tryEnqueueSealed b = (.ok true, q.push b) := by
  have hfresh : (q.pending.find? fun queued => decide (queued.number = b.number)) = none := by
    refine List.find?_eq_none.2 fun queued hqueued => ?_
    have hlt : queued.number < b.number := by
      have hordered := chain.ordered
      rw [hnext] at hordered
      exact (pairwise_append.1 hordered).2.2 queued (hpending queued hqueued) b mem_cons_self
    simpa using hlt.ne
  obtain ⟨hnumber, hparent⟩ := next_follows hnext
  have hbound := chain.number_lt b (by rw [hnext]; simp)
  rw [tryEnqueueSealed, hfresh]
  rcases hlast with hnone | hsome
  · simp only [tryEnqueue, hnone]
  have hadd : checkedAddU64 (lastOf chain.base delivered).number 1 = some b.number := by
    rw [checkedAddU64, if_pos (by omega), hnumber]
  simp only [tryEnqueue, hsome]
  rw [if_neg (by omega), if_neg (by omega), hadd]
  simp [hparent]

theorem tryEnqueueSealed_old {delivered undelivered : List (SealedL1Block W)}
    (hsplit : chain.blocks = delivered ++ undelivered)
    (hlast : q.lastEnqueued = none ∨ q.lastEnqueued = some (lastOf chain.base delivered))
    (hold : b ∈ q.pending ∨ (b ∈ delivered ∧ q.lastEnqueued.isSome = true)) :
    (q.tryEnqueueSealed b).1 ≠ .ok true ∧ (q.tryEnqueueSealed b).2 = q := by
  unfold tryEnqueueSealed
  split
  · split <;> exact ⟨by simp, rfl⟩
  · next hfind =>
    rcases hold with hpending | ⟨hdelivered, hsome⟩
    · have hother := List.find?_eq_none.1 hfind b hpending
      simp at hother
    rcases hlast with hnone | hlast
    · rw [hnone] at hsome
      cases hsome
    have hle := (lastOf_bounds hsplit).1 b hdelivered
    simp only [tryEnqueue, hlast]
    split
    · exact ⟨by simp, rfl⟩
    · rw [if_pos (by omega)]
      split <;> exact ⟨by simp, rfl⟩

end L1Chain

/-! ## Events of blocks -/

def workEvents (blocks : List (L1BlockDeposits W)) : L1PortalEvents W :=
  ⟨blocks.flatMap (·.events.deposits), blocks.flatMap (·.events.enabledTokens)⟩

def sealedEvents (blocks : List (SealedL1Block W)) : L1PortalEvents W :=
  ⟨blocks.flatMap (·.events.deposits), blocks.flatMap (·.events.enabledTokens)⟩

def releasedEvents (imports : List (ZoneImport W)) : L1PortalEvents W :=
  workEvents (imports.flatMap ZoneImport.work)

theorem workEvents_append (a b : List (L1BlockDeposits W)) :
    workEvents (a ++ b) = (workEvents a).extendOperational (workEvents b) := by
  simp [workEvents, L1PortalEvents.extendOperational]

theorem sealedEvents_append (a b : List (SealedL1Block W)) :
    sealedEvents (a ++ b) = (sealedEvents a).extendOperational (sealedEvents b) := by
  simp [sealedEvents, L1PortalEvents.extendOperational]

theorem releasedEvents_concat (imports : List (ZoneImport W)) (i : ZoneImport W) :
    releasedEvents (imports ++ [i]) =
      (releasedEvents imports).extendOperational (workEvents i.work) := by
  rw [releasedEvents, flatMap_append, workEvents_append, flatMap_singleton]
  rfl

/-! ## Histories of imports -/

/-- `finished` are the blocks whose work the imports have released, `crossed` those that
checkpoint-only imports have crossed since the last full import. -/
inductive Covers : List (ZoneImport W) → List (SealedL1Block W) → List (SealedL1Block W) → Prop
  | start : Covers [] [] []
  | checkpointOnly {imports : List (ZoneImport W)} {finished crossed : List (SealedL1Block W)}
      (before : List (SealedL1Block W)) (b : SealedL1Block W)
      (h : Covers imports finished crossed) :
      Covers (imports ++ [.checkpointOnly b.header]) finished (crossed ++ (before ++ [b]))
  | full {imports : List (ZoneImport W)} {finished crossed : List (SealedL1Block W)}
      {b : SealedL1Block W} {work : List (L1BlockDeposits W)}
      (h : Covers imports finished crossed)
      (hwork : workEvents work = sealedEvents (crossed ++ [b])) :
      Covers (imports ++ [.full b.header work]) (finished ++ (crossed ++ [b])) []

namespace Covers

variable {imports : List (ZoneImport W)} {finished crossed : List (SealedL1Block W)}

theorem lastOperational_eq (base : NumHash W) (h : Covers imports finished crossed) :
    lastOperational base.number imports = (lastOf base finished).number := by
  induction h with
  | start => rfl
  | checkpointOnly before b _ ih =>
    rw [lastOperational, foldl_append]
    exact ih
  | full _ _ ih =>
    rw [lastOperational, foldl_append, ← append_assoc, lastOf_concat]
    rfl

theorem zoneCheckpoint_eq (base : NumHash W) (h : Covers imports finished crossed) :
    zoneCheckpoint base imports = lastOf base (finished ++ crossed) := by
  cases h with
  | start => rfl
  | checkpointOnly before b _ =>
    rw [zoneCheckpoint, foldl_append, ← append_assoc, ← append_assoc, lastOf_concat]
    rfl
  | full _ _ =>
    rw [zoneCheckpoint, foldl_append, append_nil, ← append_assoc, lastOf_concat]
    rfl

section

variable (h : Covers imports finished crossed)
include h

theorem releasedEvents_eq : releasedEvents imports = sealedEvents finished := by
  induction h with
  | start => rfl
  | checkpointOnly before b _ ih =>
    rw [releasedEvents_concat, ih]
    simp [ZoneImport.work, workEvents, L1PortalEvents.extendOperational]
  | full _ hwork ih =>
    rw [releasedEvents_concat, ih, sealedEvents_append]
    exact congrArg _ hwork

theorem anchor_mem {i : ZoneImport W} (hi : i ∈ imports) :
    ∃ b ∈ finished ++ crossed, i.anchor = b.header ∧
      ((∃ anchor work, i = .full anchor work) → b ∈ finished) := by
  induction h with
  | start => cases hi
  | @checkpointOnly imports finished crossed before b h ih =>
    rcases mem_append.1 hi with hold | hnew
    · obtain ⟨c, hc, hanchor, hfull⟩ := ih hold
      exact ⟨c, by rw [← append_assoc]; exact mem_append_left _ hc, hanchor, hfull⟩
    rw [mem_singleton.1 hnew]
    refine ⟨b, by simp, rfl, ?_⟩
    rintro ⟨anchor, work, hcontra⟩
    cases hcontra
  | @full imports finished crossed b work h hwork ih =>
    rcases mem_append.1 hi with hold | hnew
    · obtain ⟨c, hc, hanchor, -⟩ := ih hold
      have hfinished : c ∈ finished ++ (crossed ++ [b]) := by
        rw [← append_assoc]
        exact mem_append_left _ hc
      exact ⟨c, mem_append_left _ hfinished, hanchor, fun _ => hfinished⟩
    · rw [mem_singleton.1 hnew]
      exact ⟨b, by simp, rfl, fun _ => by simp⟩

theorem of_append {kept lost : List (ZoneImport W)} (hkept : imports = kept ++ lost) :
    ∃ finished' crossed' later, Covers kept finished' crossed' ∧
      finished ++ crossed = finished' ++ (crossed' ++ later) := by
  induction h generalizing lost with
  | start =>
    obtain ⟨rfl, rfl⟩ := append_eq_nil_iff.1 hkept.symm
    exact ⟨[], [], [], .start, rfl⟩
  | @checkpointOnly imports finished crossed before b h ih =>
    rcases eq_nil_or_concat lost with rfl | ⟨front, last, rfl⟩
    · rw [append_nil] at hkept
      exact ⟨_, _, [], hkept ▸ h.checkpointOnly before b, by simp⟩
    rw [concat_eq_append, ← append_assoc] at hkept
    obtain ⟨f, c, later, hcovers, hblocks⟩ := ih (append_inj_left' hkept rfl)
    refine ⟨f, c, later ++ (before ++ [b]), hcovers, ?_⟩
    rw [← append_assoc, hblocks]
    simp only [append_assoc]
  | @full imports finished crossed b work h hwork ih =>
    rcases eq_nil_or_concat lost with rfl | ⟨front, last, rfl⟩
    · rw [append_nil] at hkept
      exact ⟨_, _, [], hkept ▸ h.full hwork, by simp⟩
    rw [concat_eq_append, ← append_assoc] at hkept
    obtain ⟨f, c, later, hcovers, hblocks⟩ := ih (append_inj_left' hkept rfl)
    refine ⟨f, c, later ++ [b], hcovers, ?_⟩
    rw [append_nil, ← append_assoc, hblocks]
    simp only [append_assoc]

theorem work_eq {chain : L1Chain W} {rest : List (SealedL1Block W)}
    {before after : List (ZoneImport W)} {anchor : NumHash W} {work : List (L1BlockDeposits W)}
    (hchain : chain.blocks = finished ++ (crossed ++ rest))
    (himports : imports = before ++ .full anchor work :: after) :
    workEvents work = sealedEvents
      (chain.between (lastOperational chain.base.number before) anchor.number) := by
  rw [append_cons] at himports
  obtain ⟨f, c, later, hcovers, hblocks⟩ := h.of_append himports
  rw [← append_assoc, hblocks] at hchain
  generalize hkept : before ++ [ZoneImport.full anchor work] = kept at hcovers
  cases hcovers with
  | start => simp at hkept
  | checkpointOnly _ b _ => simpa using congrArg List.getLast? hkept
  | @full earlier finished' crossed' b work' hearlier hwork =>
    obtain ⟨rfl, hlast⟩ := append_inj' hkept rfl
    cases hlast
    have hsplit : chain.blocks = finished' ++ ((crossed' ++ [b]) ++ (later ++ rest)) := by
      rw [hchain]
      simp only [append_assoc, nil_append]
    rw [hwork, hearlier.lastOperational_eq, ← L1Chain.between_eq hsplit, ← append_assoc,
      lastOf_concat]

end

end Covers

theorem DepositQueue.deferThrough_split {before later : List (SealedL1Block W)}
    {b : SealedL1Block W} (hsplit : q.pending = before ++ b :: later)
    (hordered : q.pending.Pairwise fun a b => a.number < b.number) :
    q.deferThrough b.header =
      (.ok (), { q with pending := later, deferred := (before ++ [b]).foldl deferBlock q.deferred }) := by
  rw [hsplit] at hordered
  obtain ⟨-, hrest, hcross⟩ := pairwise_append.1 hordered
  obtain ⟨work, hwork, hheader⟩ := foldl_deferBlock_concat q.deferred before b
  rw [deferThrough, hsplit, deferLoop_through (fun x hx => hcross x hx b mem_cons_self)
    (pairwise_cons.1 hrest).1]
  simp only [hwork, checkDeferred, hheader, if_true]
  rw [require_ok_iff.2 trivial]

theorem DepositQueue.confirmOperational_front {b : SealedL1Block W} {later : List (SealedL1Block W)}
    (hfront : q.pending = b :: later) :
    q.confirmOperational b.header = (.ok (), { q with pending := later, deferred := none }) := by
  simp [confirmOperational, confirm, hfront]

/-! ## Accounting -/

/-- The delivered blocks are those whose work was released, those crossed since, and the pending
ones; the queue's own records agree with this split. -/
structure Accounts (chain : L1Chain W) (n : QueueNode W)
    (finished crossed undelivered : List (SealedL1Block W)) : Prop where
  blocks : chain.blocks = finished ++ (crossed ++ (n.queue.pending ++ undelivered))
  delivered : n.delivered = finished ++ (crossed ++ n.queue.pending)
  deferred : n.queue.deferred = crossed.foldl deferBlock none
  lastEnqueued : (n.queue.lastEnqueued = none ∧ crossed = [] ∧ n.queue.pending = []) ∨
    n.queue.lastEnqueued = some (lastOf chain.base n.delivered)
  covers : Covers n.imports finished crossed

namespace Accounts

variable {chain : L1Chain W} {n : QueueNode W}
  {finished crossed undelivered : List (SealedL1Block W)}

variable {b : SealedL1Block W} {rest before later : List (SealedL1Block W)}
variable {work : List (L1BlockDeposits W)}

section

variable (h : Accounts chain n finished crossed undelivered)
include h

theorem blocks_delivered : chain.blocks = n.delivered ++ undelivered := by
  rw [h.blocks, h.delivered]
  simp only [append_assoc]

theorem consumed_lt {a b : SealedL1Block W} (ha : a ∈ finished ++ crossed)
    (hb : b ∈ n.queue.pending) : a.number < b.number := by
  have hordered := chain.ordered
  rw [h.blocks, ← append_assoc] at hordered
  exact (pairwise_append.1 hordered).2.2 a ha b (mem_append_left _ hb)

theorem pending_ordered : n.queue.pending.Pairwise fun a b => a.number < b.number := by
  have hordered := chain.ordered
  rw [h.blocks, ← append_assoc] at hordered
  exact (pairwise_append.1 (pairwise_append.1 hordered).2.1).1

theorem pending_linked : n.queue.pending.IsChain SealedL1Block.Follows := by
  have hlinked := chain.linked
  rw [h.blocks, ← append_assoc] at hlinked
  exact (isChain_append.1 (isChain_append.1 hlinked).2.1).1

theorem lastEnqueued_of_pending {last : SealedL1Block W}
    (hlast : n.queue.pending.getLast? = some last) : n.queue.lastEnqueued = some last.header := by
  rcases h.lastEnqueued with ⟨-, -, hempty⟩ | hsome
  · rw [hempty] at hlast
    cases hlast
  · rw [hsome, h.delivered, lastOf, List.getLast?_append, List.getLast?_append, hlast]
    rfl

theorem tryEnqueueSealed_next (hnext : chain.blocks = n.delivered ++ b :: rest) :
    n.queue.tryEnqueueSealed b = (.ok true, n.queue.push b) := by
  refine L1Chain.tryEnqueueSealed_next hnext (fun x hx => ?_) ?_
  · rw [h.delivered]
    exact mem_append_right _ (mem_append_right _ hx)
  · exact h.lastEnqueued.imp (fun hnone => hnone.1) id

theorem tryEnqueueSealed_old
    (hold : b ∈ n.queue.pending ∨ (b ∈ n.delivered ∧ n.queue.lastEnqueued.isSome = true)) :
    (n.queue.tryEnqueueSealed b).2 = n.queue :=
  (L1Chain.tryEnqueueSealed_old h.blocks_delivered (h.lastEnqueued.imp (fun hnone => hnone.1) id)
    hold).2

theorem deferred_ends {work : DeferredPortalWork W} (hwork : n.queue.deferred = some work) :
    ∃ b ∈ crossed, work.lastHeader = b.header := by
  rw [h.deferred] at hwork
  rcases eq_nil_or_concat crossed with rfl | ⟨front, last, rfl⟩
  · cases hwork
  rw [concat_eq_append] at hwork ⊢
  obtain ⟨work', hwork', hheader⟩ := foldl_deferBlock_concat none front last
  rw [hwork'] at hwork
  cases hwork
  exact ⟨last, by simp, hheader⟩

theorem confirmOperationalThrough_front (hfront : n.queue.pending = b :: later) :
    n.queue.confirmOperationalThrough b.header =
      (.ok (), { n.queue with pending := later, deferred := none }) := by
  have hordered := h.pending_ordered
  rw [hfront] at hordered
  have hrelease : releaseDeferred b.header n.queue.deferred = none := by
    cases hdeferred : n.queue.deferred with
    | none => rfl
    | some work =>
      obtain ⟨c, hc, hheader⟩ := h.deferred_ends hdeferred
      have hlt : c.header.number < b.header.number :=
        h.consumed_lt (mem_append_right _ hc) (by rw [hfront]; exact mem_cons_self)
      rw [releaseDeferred, Option.filter_some, hheader, decide_eq_false (by omega)]
      rfl
  rw [confirmOperationalThrough, hfront, confirmLoop_front (pairwise_cons.1 hordered).1, hrelease]

theorem reconcile_old {i : ZoneImport W} (hi : i ∈ n.imports) :
    (i.reconcile n.queue).2 = n.queue := by
  obtain ⟨b, hb, hanchor, hfinished⟩ := h.covers.anchor_mem hi
  have hlater : ∀ x ∈ n.queue.pending, i.anchor.number < x.number := fun x hx => by
    rw [hanchor]
    exact h.consumed_lt hb hx
  cases i with
  | checkpointOnly anchor =>
    simp only [ZoneImport.anchor] at hlater
    show (n.queue.deferThrough anchor).2 = n.queue
    rw [deferThrough, deferLoop_of_later hlater]
  | full anchor work =>
    simp only [ZoneImport.anchor] at hlater
    have hmem := hfinished ⟨anchor, work, rfl⟩
    have hrelease : releaseDeferred anchor n.queue.deferred = n.queue.deferred := by
      cases hdeferred : n.queue.deferred with
      | none => rfl
      | some deferred =>
        obtain ⟨c, hc, hheader⟩ := h.deferred_ends hdeferred
        -- the deferred work ends at a crossed block, and those are after the finished ones
        have hlt : b.header.number < c.header.number := by
          have hordered := chain.ordered
          rw [h.blocks] at hordered
          exact (pairwise_append.1 hordered).2.2 b hmem c (mem_append_left _ hc)
        have hnumber : anchor.number < deferred.lastHeader.number := by
          rw [hheader, show anchor = b.header from hanchor]
          exact hlt
        rw [releaseDeferred, Option.filter_some, decide_eq_true hnumber]
        rfl
    show (n.queue.confirmOperationalThrough anchor).2 = n.queue
    rw [confirmOperationalThrough, confirmLoop_of_later hlater, hrelease]

theorem operationalWork_eq (hfront : n.queue.pending = b :: later)
    (hwork : n.queue.operationalWork b.header = .ok work) :
    workEvents work = sealedEvents (crossed ++ [b]) := by
  have hpending : n.queue.toPending.pending =
      b.toL1BlockDeposits :: later.map (·.toL1BlockDeposits) := by
    rw [toPending, hfront]
    rfl
  obtain ⟨work', hwork', hdeposits, htokens⟩ := PendingDeposits.operationalWork_front hpending
  have heq : work = work' := Except.ok.inj (hwork.symm.trans hwork')
  subst heq
  have howed : n.queue.toPending.owed = sealedEvents crossed := by
    rw [sealedEvents, ← owedBy_foldl_deferBlock, ← h.deferred]
    rfl
  rw [workEvents, hdeposits, htokens, howed, sealedEvents_append]
  simp [sealedEvents, L1PortalEvents.extendOperational]

theorem deferThrough_pending (hsplit : n.queue.pending = before ++ b :: later) :
    n.queue.deferThrough b.header =
      (.ok (), { n.queue with
        pending := later
        deferred := (crossed ++ (before ++ [b])).foldl deferBlock none }) := by
  rw [deferThrough_split hsplit h.pending_ordered, h.deferred, ← foldl_append]

end

theorem recovered_eq {imports : List (ZoneImport W)} (hcovers : Covers imports finished crossed)
    (hchain : chain.blocks = finished ++ (crossed ++ rest)) :
    (recovered chain imports).1 = .ok () ∧ (recovered chain imports).2 =
        ⟨[], crossed.foldl deferBlock none, crossed.getLast?.map (·.header)⟩ := by
  have hlast := hcovers.lastOperational_eq chain.base
  have hcheckpoint := hcovers.zoneCheckpoint_eq chain.base
  have hfetched := L1Chain.between_eq hchain
  simp only [recovered, hlast, hcheckpoint, hfetched, recoverDeferredWork]
  rw [if_neg (by simp [new])]
  rcases eq_nil_or_concat crossed with rfl | ⟨front, last, rfl⟩
  · rw [append_nil, if_pos (Nat.lt_succ_self _)]
    exact ⟨rfl, rfl⟩
  rw [concat_eq_append] at hchain ⊢
  have hlt : (lastOf chain.base finished).number < last.header.number :=
    (L1Chain.lastOf_bounds hchain).2 last (by simp)
  obtain ⟨work, hwork, hheader⟩ := foldl_deferBlock_concat none front last
  rw [← append_assoc, lastOf_concat, if_neg (by omega), hwork]
  simp [hheader, restoreDeferred, new]

/-! ## Preservation -/

section

variable (h : Accounts chain n finished crossed undelivered)
include h

theorem deliver (hnext : chain.blocks = n.delivered ++ b :: rest) : Accounts chain
      { n with queue := (n.queue.tryEnqueueSealed b).2, delivered := n.delivered ++ [b] }
      finished crossed rest := by
  rw [h.tryEnqueueSealed_next hnext]
  exact {
    blocks := by
      rw [hnext, h.delivered]
      simp only [push, append_assoc, singleton_append]
    delivered := by
      rw [h.delivered]
      simp only [push, append_assoc]
    deferred := h.deferred
    lastEnqueued := .inr (by simp only [push, lastOf_concat])
    covers := h.covers }

theorem fullImport (hfront : n.queue.pending = b :: later)
    (hwork : n.queue.operationalWork b.header = .ok work) :
    Accounts chain
      { n with queue := { n.queue with pending := later, deferred := none }
               imports := n.imports ++ [.full b.header work] }
      (finished ++ (crossed ++ [b])) [] undelivered where
  blocks := by
    rw [h.blocks, hfront]
    simp
  delivered := by
    rw [h.delivered, hfront]
    simp
  deferred := rfl
  lastEnqueued := by
    rcases h.lastEnqueued with ⟨-, -, hempty⟩ | hsome
    · rw [hempty] at hfront
      cases hfront
    · exact .inr hsome
  covers := h.covers.full (h.operationalWork_eq hfront hwork)

theorem checkpointImport (hsplit : n.queue.pending = before ++ b :: later) : Accounts chain
      { n with queue := (n.queue.deferThrough b.header).2
               imports := n.imports ++ [.checkpointOnly b.header] }
      finished (crossed ++ (before ++ [b])) undelivered := by
  rw [h.deferThrough_pending hsplit]
  exact {
    blocks := by
      rw [h.blocks, hsplit]
      simp
    delivered := by
      rw [h.delivered, hsplit]
      simp
    deferred := rfl
    lastEnqueued := by
      rcases h.lastEnqueued with ⟨-, -, hempty⟩ | hsome
      · rw [hempty] at hsplit
        simp at hsplit
      · exact .inr hsome
    covers := h.covers.checkpointOnly before b }

end

theorem restart {kept : List (ZoneImport W)} (hcovers : Covers kept finished crossed)
    (hchain : chain.blocks = finished ++ (crossed ++ rest)) :
    Accounts chain
      { queue := (recovered chain kept).2
        delivered := chain.between chain.base.number (zoneCheckpoint chain.base kept).number
        imports := kept }
      finished crossed rest := by
  have hdelivered : chain.between chain.base.number (zoneCheckpoint chain.base kept).number =
      finished ++ crossed := by
    rw [hcovers.zoneCheckpoint_eq]
    have hall : chain.blocks = [] ++ ((finished ++ crossed) ++ rest) := by
      rw [hchain, append_assoc, nil_append]
    exact L1Chain.between_eq hall
  rw [(recovered_eq hcovers hchain).2, hdelivered]
  exact {
    blocks := hchain
    delivered := by simp
    deferred := rfl
    lastEnqueued := by
      rcases eq_nil_or_concat crossed with rfl | ⟨front, last, rfl⟩
      · exact .inl ⟨rfl, rfl, rfl⟩
      refine .inr ?_
      rw [concat_eq_append, ← append_assoc, lastOf_concat, List.getLast?_concat]
      rfl
    covers := hcovers }

theorem step {n' : QueueNode W} (h : Accounts chain n finished crossed undelivered)
    (hstep : QueueNode.Step chain n n') :
    ∃ finished crossed undelivered, Accounts chain n' finished crossed undelivered := by
  cases hstep with
  | deliver hnext => exact ⟨_, _, _, h.deliver hnext⟩
  | redeliver hold =>
    rw [h.tryEnqueueSealed_old hold]
    exact ⟨_, _, _, h⟩
  | leaderFull hfront hwork =>
    rw [confirmOperational_front hfront]
    exact ⟨_, _, _, h.fullImport hfront hwork⟩
  | followerFull hfront hwork =>
    rw [h.confirmOperationalThrough_front hfront]
    exact ⟨_, _, _, h.fullImport hfront hwork⟩
  | checkpointOnly hpending =>
    obtain ⟨before, later, hsplit⟩ := append_of_mem hpending
    exact ⟨_, _, _, h.checkpointImport hsplit⟩
  | duplicate hold =>
    rw [h.reconcile_old hold]
    exact ⟨_, _, _, h⟩
  | restart hkept =>
    obtain ⟨f, c, later, hcovers, hblocks⟩ := h.covers.of_append hkept
    have hchain : chain.blocks = f ++ (c ++ (later ++ (n.queue.pending ++ undelivered))) := by
      rw [h.blocks, ← append_assoc, hblocks]
      simp only [append_assoc]
    exact ⟨_, _, _, restart hcovers hchain⟩

theorem of_run (hrun : ReflTransGen (QueueNode.Step chain) start n) :
    ∃ finished crossed undelivered, Accounts chain n finished crossed undelivered := by
  induction hrun with
  | refl => exact ⟨[], [], chain.blocks, rfl, rfl, rfl, .inl ⟨rfl, rfl, rfl⟩, .start⟩
  | tail _ hstep ih =>
    obtain ⟨finished, crossed, undelivered, h⟩ := ih
    exact h.step hstep

theorem ledger (h : Accounts chain n finished crossed undelivered) :
    ((releasedEvents n.imports).extendOperational
      (owedBy n.queue.deferred)).extendOperational (sealedEvents n.queue.pending) =
        sealedEvents n.delivered := by
  have howed : owedBy n.queue.deferred = sealedEvents crossed := by
    rw [h.deferred]
    exact owedBy_foldl_deferBlock crossed
  rw [h.covers.releasedEvents_eq, howed, h.delivered, ← append_assoc, sealedEvents_append,
    sealedEvents_append]

end Accounts

/-! ## No work is lost -/

/-- In every state of every run the released, deferred and pending work are together the delivered
work, in order; each full import was handed the work of the blocks after the one before it up to its
anchor; the pending blocks are linked and end at the last enqueued block; a restart recovers the
deferred work; and a failing enqueue or confirmation changes nothing. -/
theorem queue_accounts_for_delivered_work (chain : L1Chain W) {n : QueueNode W}
    (hrun : ReflTransGen (QueueNode.Step chain) start n) :
    ((releasedEvents n.imports).extendOperational
        (owedBy n.queue.deferred)).extendOperational (sealedEvents n.queue.pending) =
          sealedEvents n.delivered ∧
      (∃ undelivered, chain.blocks = n.delivered ++ undelivered) ∧
      (∀ before anchor work after, n.imports = before ++ .full anchor work :: after →
        workEvents work = sealedEvents
          (chain.between (lastOperational chain.base.number before) anchor.number)) ∧
      n.queue.pending.IsChain SealedL1Block.Follows ∧
      (∀ last, n.queue.pending.getLast? = some last →
        n.queue.lastEnqueued = some last.header) ∧
      ((recovered chain n.imports).1 = .ok () ∧
        (recovered chain n.imports).2.deferred = n.queue.deferred) ∧
      (∀ block e, (n.queue.tryEnqueue block).1 = .error e → (n.queue.tryEnqueue block).2 = n.queue) ∧
      (∀ block e, (n.queue.tryEnqueueSealed block).1 = .error e →
        (n.queue.tryEnqueueSealed block).2 = n.queue) ∧
      ∀ expected e, (n.queue.confirm expected).1 = .error e →
        (n.queue.confirm expected).2 = n.queue := by
  obtain ⟨finished, crossed, undelivered, h⟩ := Accounts.of_run hrun
  obtain ⟨hok, hrecovered⟩ := Accounts.recovered_eq h.covers h.blocks
  refine ⟨h.ledger, ⟨_, h.blocks_delivered⟩, ?_, h.pending_linked, ?_, ⟨hok, ?_⟩, ?_, ?_, ?_⟩
  · intro before anchor work after himports
    exact h.covers.work_eq h.blocks himports
  · intro last hlast
    exact h.lastEnqueued_of_pending hlast
  · rw [hrecovered, h.deferred]
  · intro block e herror
    exact tryEnqueue_error herror
  · intro block e herror
    exact tryEnqueueSealed_error herror
  · intro expected e herror
    exact confirm_error herror

namespace QueueExample

/-- Block `n` of a chain whose hashes are its heights. -/
def block (n : ℕ) (events : L1PortalEvents Sym) : SealedL1Block Sym :=
  ⟨⟨⟨n, .num n⟩, events⟩, .num (n - 1)⟩

def token (t : Address) : EnabledToken := ⟨t, [], [], []⟩

/-- A block that enables a token, one with a bounce-back and one that enables another token. -/
def enabling : SealedL1Block Sym := block 5 ⟨[], [token 7]⟩
def bouncing : SealedL1Block Sym := block 6 ⟨[.bounceBack ⟨7, 1, 30⟩], []⟩
def enablingAgain : SealedL1Block Sym := block 7 ⟨[], [token 8]⟩

def chain : L1Chain Sym where
  base := ⟨4, .num 4⟩
  blocks := [enabling, bouncing, enablingAgain]
  first := by decide
  linked := by
    simp only [isChain_cons_cons, isChain_singleton, SealedL1Block.Follows]
    decide
  number_lt := by decide

def work : List (L1BlockDeposits Sym) :=
  [⟨⟨5, .num 5⟩, ⟨[], [token 7]⟩⟩, bouncing.toL1BlockDeposits]

/-- The first block was crossed, the second imported in full, the third is pending. -/
def node : QueueNode Sym where
  queue := ⟨[enablingAgain], none, some ⟨7, .num 7⟩⟩
  delivered := chain.blocks
  imports := [.checkpointOnly ⟨5, .num 5⟩, .full ⟨6, .num 6⟩ work]

def restarted : QueueNode Sym where
  queue := ⟨[], some ⟨⟨5, .num 5⟩, [⟨[], [token 7]⟩]⟩, some ⟨5, .num 5⟩⟩
  delivered := [enabling]
  imports := [.checkpointOnly ⟨5, .num 5⟩]

theorem restarted_reached : ReflTransGen (QueueNode.Step chain) start restarted := by
  have hfirst : QueueNode.Step chain start _ := .deliver (b := enabling) rfl
  have hdelivered := (ReflTransGen.single hfirst).tail (.deliver (b := bouncing) rfl)
  have hredelivered := hdelivered.tail (.redeliver (b := enabling) (.inl mem_cons_self))
  have hcrossed := hredelivered.tail (.checkpointOnly (b := enabling) mem_cons_self)
  exact hcrossed.tail (.restart (append_nil _).symm)

theorem node_reached : ReflTransGen (QueueNode.Step chain) start node := by
  have hdelivered := restarted_reached.tail (QueueNode.Step.deliver (b := bouncing) rfl)
  have himported := hdelivered.tail (.leaderFull (b := bouncing) rfl rfl)
  have hduplicate := himported.tail (.duplicate mem_cons_self)
  exact hduplicate.tail (.deliver (b := enablingAgain) rfl)

/-- Nothing is lost across the restart: the full import releases the work crossed before it. -/
theorem queue_accounts_after_restart :
    ReflTransGen (QueueNode.Step chain) start node ∧
      ((releasedEvents node.imports).extendOperational
        (owedBy node.queue.deferred)).extendOperational
          (sealedEvents node.queue.pending) = sealedEvents chain.blocks ∧
      workEvents work = sealedEvents [enabling, bouncing] := by
  have h := queue_accounts_for_delivered_work chain node_reached
  exact ⟨node_reached, h.1, h.2.2.1 [.checkpointOnly ⟨5, .num 5⟩] ⟨6, .num 6⟩ work [] rfl⟩

end QueueExample

end TempoZones
