import TempoZones.Node.BlockEngine

/-!
# Only the rightful leader builds, and never across a pause

`Rightful` says that the node leads an anchor according to the finalized history or the forced
recovery, `ClearOf` that an import started when no pause in effect reached its headers. What the
engine finds in the queue is covered by what was published before (`Published`), whenever the two
tasks are interrupted.
-/

namespace TempoZones

open Lib List Relation P2p.LeadershipScheduleState P2p.LeadershipState ReflTransGen DepositQueue Option

variable {K W : Type} [DecidableEq K] [EvmWord W] [DecidableEq W]

/-! ## Properties of imports -/

/-- The node leads the anchor: by the finalized history with its founding leader, and by the history
itself from its first transition on. -/
def Rightful (h : P2p.TransitionHistory K) (recovery : Option (P2p.RecoveryDirective K W)) (me : K)
    (anchor : ℕ) : Prop :=
  ∃ epoch, h.founded.reference recovery anchor = some (epoch, me) ∧
    ((∃ first ∈ h.records.head?, first.activationTempoBlock ≤ anchor) →
      h.reference recovery anchor = some (epoch, me))

/-- At some block at or before the newest observation the portal was not paused, and every pause event
up to the anchor is at or before that block. -/
def ClearOf (l1 : FinalizedL1 K W) (gate : PauseGate W) (anchor : ℕ) : Prop :=
  ∃ m, l1.paused m = false ∧ (∃ e ∈ gate, m ≤ e.1.number) ∧
    ∀ p ≤ anchor, l1.portalPause p = some true → p ≤ m

structure GateCovers (l1 : FinalizedL1 K W) (gate : PauseGate W) (number : ℕ) : Prop where
  truthful : ∀ e ∈ gate, e.2 = l1.paused e.1.number
  reaches : ∃ e ∈ gate, ∀ p ≤ number, l1.portalPause p ≠ none → p ≤ e.1.number

section Gate

variable {l1 : FinalizedL1 K W} {gate : PauseGate W} {number anchor : ℕ}

theorem observePortalPause_mono {block : NumHash W} {paused : Bool} {m : ℕ}
    (h : ∃ e ∈ gate, m ≤ e.1.number) :
    ∃ e ∈ (gate.observePortalPause block paused).2, m ≤ e.1.number := by
  obtain ⟨e, he, hle⟩ := h
  rcases gate.observePortalPause_cases block paused with ⟨hnew, hlater⟩ | ⟨hkept, -⟩
  · rw [hnew]
    exact ⟨_, rfl, hle.trans (hlater e he).le⟩
  · rw [hkept]
    exact ⟨e, he, hle⟩

theorem GateCovers.observe (h : GateCovers l1 gate number) (block : NumHash W) :
    GateCovers l1 (gate.observePortalPause block (l1.paused block.number)).2 number := by
  obtain ⟨e, he, hreaches⟩ := h.reaches
  rcases gate.observePortalPause_cases block (l1.paused block.number) with
    ⟨hnew, hlater⟩ | ⟨hkept, -⟩
  · rw [hnew]
    refine ⟨fun e' he' => ?_, _, rfl, fun p hp hevent => (hreaches p hp hevent).trans (hlater e he).le⟩
    cases he'
    rfl
  · rw [hkept]
    exact h

theorem ClearOf.observe (h : ClearOf l1 gate anchor) (block : NumHash W) (paused : Bool) :
    ClearOf l1 (gate.observePortalPause block paused).2 anchor := by
  obtain ⟨m, hpaused, hle, hevents⟩ := h
  exact ⟨m, hpaused, observePortalPause_mono hle, hevents⟩

theorem GateCovers.clear (h : GateCovers l1 gate number) (hopen : gate.portalPaused = false)
    (hanchor : anchor ≤ number) : ClearOf l1 gate anchor := by
  obtain ⟨e, he, hreaches⟩ := h.reaches
  refine ⟨e.1.number, ?_, ⟨e, he, le_rfl⟩, fun p hp hevent => ?_⟩
  · rw [← h.truthful e he]
    rw [mem_def.1 he] at hopen
    exact hopen
  · exact hreaches p (hp.trans hanchor) (by rw [hevent]; exact some_ne_none _)

end Gate

namespace EngineNode

variable {l1 : FinalizedL1 K W} {spec : ZoneSchedule W} {me : K} {d : P2p.RecoveryDirective K W}
  {recovery : Option (P2p.RecoveryDirective K W)} {n n' : EngineNode K W}

/-! ## Invariants -/

def Fetched (l1 : FinalizedL1 K W) (n : EngineNode K W) (block : SealedL1Block W) : Prop :=
  (∃ rest, l1.chain.blocks = n.delivered ++ block :: rest) ∨ block ∈ n.delivered

def TransitionsPublished (n : EngineNode K W) (number : ℕ) : Prop :=
  ∀ r ∈ n.leadership.pending, number < r.activationTempoBlock

def Published (l1 : FinalizedL1 K W) (n : EngineNode K W) : SubscriberPhase W → Prop
  | .ready => True
  | .fetched block => n.Fetched l1 block
  | .transitionPublished block => n.Fetched l1 block ∧ n.TransitionsPublished block.number
  | .pausePublished block => n.Fetched l1 block ∧ n.TransitionsPublished block.number ∧
      (l1.portalPause block.number ≠ none → ∃ e ∈ n.gate, block.number ≤ e.1.number)

def Selected (n : EngineNode K W) (front : SealedL1Block W) (headers : List (NumHash W)) : Prop :=
  n.queue.pending.head? = some front ∧ headers <+: n.queue.pending.map (·.header)

def Checked (l1 : FinalizedL1 K W) (recovery : Option (P2p.RecoveryDirective K W)) (me : K)
    (n : EngineNode K W) : EnginePhase W → Prop
  | .idle => True
  | .peeked front => n.Selected front []
  | .selected front headers => n.Selected front headers
  | .checking front permitted rest => n.Selected front (permitted ++ rest) ∧
      Rightful l1.leaders recovery me front.number ∧
      ∀ x ∈ permitted, Rightful l1.leaders recovery me x.number
  | .permitted front headers => n.Selected front headers ∧
      Rightful l1.leaders recovery me front.number ∧
      ∀ x ∈ headers, Rightful l1.leaders recovery me x.number
  | .cleared front headers => n.Selected front headers ∧
      (Rightful l1.leaders recovery me front.number ∧ ClearOf l1 n.gate front.number) ∧
      ∀ x ∈ headers, Rightful l1.leaders recovery me x.number ∧ ClearOf l1 n.gate x.number
  | .consumed anchor => anchor ≤ (lastOf l1.chain.base n.delivered).number ∧
      ∀ b ∈ n.queue.pending, anchor < b.number
  | .exited _ => True

/-- What holds in every interleaving. -/
structure Safe (l1 : FinalizedL1 K W) (d : P2p.RecoveryDirective K W)
    (recovery : Option (P2p.RecoveryDirective K W)) (me : K) (n : EngineNode K W) : Prop where
  delivery : ∃ consumed undelivered, n.delivered = consumed ++ n.queue.pending ∧
    l1.chain.blocks = n.delivered ++ undelivered
  lastEnqueued : (n.queue.lastEnqueued = none ∧ n.delivered = []) ∨
    n.queue.lastEnqueued = some (lastOf l1.chain.base n.delivered)
  applied : ∀ x ∈ n.leadership.schedule.appliedAnchor,
    x ≤ (lastOf l1.chain.base n.delivered).number ∧ ∀ b ∈ n.queue.pending, x < b.number
  tracks : P2p.Tracks l1.leaders d n.leadership
  directive : n.leadership.directive d = recovery
  governed : (∃ first ∈ n.leadership.observed.head?,
      first.activationTempoBlock ≤ l1.chain.base.number) ∨
    (l1.leaders.records = n.leadership.observed ++ n.leadership.pending ∧
      n.leadership.installed = false)
  transitions : n.TransitionsPublished (lastOf l1.chain.base n.delivered).number
  gate : GateCovers l1 n.gate (lastOf l1.chain.base n.delivered).number
  subscriber : n.Published l1 n.subscriber
  engine : n.Checked l1 recovery me n.engine
  imports : ∀ i ∈ n.imports, ∀ x ∈ i.headers,
    Rightful l1.leaders recovery me x.number ∧ ClearOf l1 i.gate x.number

/-! ## What the invariants give -/

variable {phase : EnginePhase W}
variable {b : SealedL1Block W}

section

variable (h : Safe l1 d recovery me n)
include h

theorem Safe.checked (hphase : n.engine = phase) : n.Checked l1 recovery me phase :=
  hphase ▸ h.engine

theorem Safe.published {phase : SubscriberPhase W} (hphase : n.subscriber = phase) :
    n.Published l1 phase :=
  hphase ▸ h.subscriber

theorem Safe.pending_ordered : n.queue.pending.Pairwise fun a b => a.number < b.number := by
  obtain ⟨consumed, undelivered, hdelivered, hblocks⟩ := h.delivery
  have hordered := l1.chain.ordered
  rw [hblocks, hdelivered] at hordered
  exact (pairwise_append.1 (pairwise_append.1 hordered).1).2.1

theorem Safe.mem_delivered (hb : b ∈ n.queue.pending) : b ∈ n.delivered := by
  obtain ⟨consumed, undelivered, hdelivered, -⟩ := h.delivery
  rw [hdelivered]
  exact mem_append_right _ hb

theorem Safe.delivered_bounds (hb : b ∈ n.delivered) :
    l1.chain.base.number < b.number ∧ b.number ≤ (lastOf l1.chain.base n.delivered).number := by
  obtain ⟨consumed, undelivered, -, hblocks⟩ := h.delivery
  refine ⟨l1.chain.base_lt ?_, (L1Chain.lastOf_bounds hblocks).1 b hb⟩
  rw [hblocks]
  exact mem_append_left _ hb

end

variable {front : SealedL1Block W} {headers : List (NumHash W)}

theorem Selected.mem (h : n.Selected front headers) {x : NumHash W} (hx : x ∈ headers) :
    ∃ b ∈ n.queue.pending, b.header = x :=
  mem_map.1 (h.2.subset hx)

theorem Selected.front_mem (h : n.Selected front headers) : front ∈ n.queue.pending :=
  mem_of_mem_head? h.1

section

variable (h : Safe l1 d recovery me n)
include h

theorem Safe.observed_ne {a : ℕ} {record : P2p.LeadershipState K}
    (hleader : n.leadership.schedule.leaderFor a = some record) : n.leadership.observed ≠ [] := by
  intro hempty
  rcases h.governed with ⟨first, hfirst, -⟩ | ⟨-, hinstalled⟩
  · rw [hempty] at hfirst
    cases hfirst
  have hrecovery := h.tracks.recovery
  rw [hinstalled] at hrecovery
  generalize hforced : n.leadership.schedule.forcedRecovery = forced at hrecovery
  cases hrecovery
  have hfloor : n.leadership.schedule.transitions.floor a = none :=
    SortedMap.floor_eq_none_iff.2 fun e he => absurd he (h.tracks.transitions_empty hempty e)
  rw [leaderFor, hforced, hfloor] at hleader
  cases hleader

theorem Safe.leaderFor_pending (hb : b ∈ n.queue.pending) (hne : n.leadership.observed ≠ []) :
    (n.leadership.schedule.leaderFor b.number).map authority =
        l1.leaders.founded.reference recovery b.number ∧
      ((∃ first ∈ l1.leaders.records.head?, first.activationTempoBlock ≤ b.number) →
        (n.leadership.schedule.leaderFor b.number).map authority =
          l1.leaders.reference recovery b.number) := by
  obtain ⟨hbase, hlast⟩ := h.delivered_bounds (h.mem_delivered hb)
  have habove : ∀ x ∈ n.leadership.schedule.appliedAnchor, x < b.number := fun x hx =>
    (h.applied x hx).2 b hb
  have hobserved : ∀ r ∈ n.leadership.pending, b.number < r.activationTempoBlock := fun r hr =>
    hlast.trans_lt (h.transitions r hr)
  have hgoverned : (∃ first ∈ n.leadership.observed.head?,
      first.activationTempoBlock ≤ b.number) ∨
      l1.leaders.records = n.leadership.observed ++ n.leadership.pending := by
    rcases h.governed with ⟨first, hfirst, hle⟩ | ⟨hcomplete, -⟩
    · exact .inl ⟨first, hfirst, hle.trans hbase.le⟩
    · exact .inr hcomplete
  have hfounded := h.tracks.leaderFor_founded hne habove hobserved hgoverned
  rw [h.directive] at hfounded
  exact hfounded

theorem Safe.rightful (hb : b ∈ n.queue.pending)
    (hcheck : productionCheck n.leadership.schedule me b.number = none) :
    Rightful l1.leaders recovery me b.number := by
  obtain ⟨record, hleader, hme⟩ := productionCheck_eq_none hcheck
  obtain ⟨hfounded, hexact⟩ := h.leaderFor_pending hb (h.observed_ne hleader)
  have hauthority : (n.leadership.schedule.leaderFor b.number).map
      authority = some (record.epoch, me) := by
    rw [hleader, ← hme]
    rfl
  rw [hauthority] at hfounded hexact
  exact ⟨record.epoch, hfounded.symm, fun hfirst => (hexact hfirst).symm⟩

end

/-! ## Frames -/

theorem Published.frame {phase : SubscriberPhase W} (h : n.Published l1 phase)
    (hdelivered : n'.delivered = n.delivered)
    (hpending : n'.leadership.pending = n.leadership.pending) (hgate : n'.gate = n.gate) :
    n'.Published l1 phase := by
  cases phase with
  | ready => trivial
  | _ => simpa only [Published, Fetched, TransitionsPublished, hdelivered, hpending, hgate] using h

theorem Checked.frame (h : n.Checked l1 recovery me phase) (hqueue : n'.queue = n.queue)
    (hdelivered : n'.delivered = n.delivered) (hgate : n'.gate = n.gate) :
    n'.Checked l1 recovery me phase := by
  cases phase with
  | idle => trivial
  | exited _ => trivial
  | _ => simpa only [Checked, Selected, hqueue, hdelivered, hgate] using h

theorem Safe.withEngine (h : Safe l1 d recovery me n) (hphase : n.Checked l1 recovery me phase) :
    Safe l1 d recovery me { n with engine := phase } :=
  { h with subscriber := h.subscriber.frame rfl rfl rfl, engine := hphase.frame rfl rfl rfl }

theorem Safe.withSubscriber (h : Safe l1 d recovery me n) {phase : SubscriberPhase W}
    (hphase : n.Published l1 phase) : Safe l1 d recovery me { n with subscriber := phase } :=
  { h with subscriber := hphase.frame rfl rfl rfl, engine := h.engine.frame rfl rfl rfl }

theorem Checked.observe (h : n.Checked l1 recovery me phase) (block : NumHash W) (paused : Bool) :
    Checked l1 recovery me { n with gate := (n.gate.observePortalPause block paused).2 } phase := by
  cases phase with
  | cleared front headers =>
    obtain ⟨hselected, hfront, hheaders⟩ := h
    exact ⟨hselected, ⟨hfront.1, hfront.2.observe _ _⟩,
      fun x hx => ⟨(hheaders x hx).1, (hheaders x hx).2.observe _ _⟩⟩
  | _ => exact h

theorem Published.observe {phase : SubscriberPhase W} (h : n.Published l1 phase)
    (block : NumHash W) (paused : Bool) :
    Published l1 { n with gate := (n.gate.observePortalPause block paused).2 } phase := by
  cases phase with
  | pausePublished b => exact ⟨h.1, h.2.1, fun hevent => observePortalPause_mono (h.2.2 hevent)⟩
  | _ => exact h

theorem Safe.observe (h : Safe l1 d recovery me n) (block : NumHash W) : Safe l1 d recovery me
      { n with gate := (n.gate.observePortalPause block (l1.paused block.number)).2 } :=
  { h with
    gate := h.gate.observe block
    subscriber := h.subscriber.observe block _
    engine := h.engine.observe block _ }

/-! ## Subscriber steps -/

theorem leaders_ordered (l1 : FinalizedL1 K W) :
    l1.leaders.records.Pairwise P2p.LeadershipState.Before :=
  pairwise_of_isChain l1.leaders.chained

variable {r : P2p.LeadershipState K}

theorem leaderTransition_some {number : ℕ} (h : l1.leaderTransition number = some r) :
    r ∈ l1.leaders.records ∧ r.activationTempoBlock = number := by
  have hfound := List.find?_some h
  exact ⟨mem_of_find?_eq_some h, of_decide_eq_true hfound⟩

variable {block : SealedL1Block W}

section

variable (h : Safe l1 d recovery me n)
include h

theorem Safe.fetched_number (hfetched : n.Fetched l1 block) : l1.chain.base.number < block.number ∧
      block.number ≤ (lastOf l1.chain.base n.delivered).number + 1 := by
  rcases hfetched with ⟨rest, hnext⟩ | hold
  · have hmem : block ∈ l1.chain.blocks := by
      rw [hnext]
      simp
    exact ⟨l1.chain.base_lt hmem, (L1Chain.next_follows hnext).1.le⟩
  · obtain ⟨hbase, hlast⟩ := h.delivered_bounds hold
    exact ⟨hbase, by omega⟩

theorem Safe.records_ordered :
    (n.leadership.observed ++ n.leadership.pending).Pairwise P2p.LeadershipState.Before := by
  obtain ⟨earlier, hsplit⟩ := h.tracks.split
  have hordered := leaders_ordered l1
  rw [hsplit] at hordered
  exact (pairwise_append.1 hordered).2.1

theorem Safe.mem_observed_or_pending (hr : r ∈ l1.leaders.records)
    (hbase : l1.chain.base.number < r.activationTempoBlock) :
    r ∈ n.leadership.observed ∨ r ∈ n.leadership.pending := by
  obtain ⟨earlier, hsplit⟩ := h.tracks.split
  have hordered := leaders_ordered l1
  rw [hsplit] at hr hordered
  rcases mem_append.1 hr with hearlier | hrest
  · rcases h.governed with ⟨first, hfirst, hle⟩ | ⟨hcomplete, -⟩
    · -- earlier records precede the one that governs the checkpoint
      have hmem : first ∈ n.leadership.observed ++ n.leadership.pending :=
        mem_append_left _ (mem_of_mem_head? hfirst)
      have hbefore := (pairwise_append.1 hordered).2.2 r hearlier first hmem
      have := hbefore.2
      omega
    have hlength := congrArg List.length (hsplit.symm.trans hcomplete)
    simp only [length_append] at hlength
    have hempty : earlier = [] := length_eq_zero_iff.1 (by omega)
    rw [hempty] at hearlier
    cases hearlier
  · exact mem_append.1 hrest

theorem Safe.pending_cons (hfetched : n.Fetched l1 block)
    (hr : l1.leaderTransition block.number = some r) (hnew : r ∉ n.leadership.observed) :
    ∃ rest, n.leadership.pending = r :: rest := by
  obtain ⟨hbase, hnumber⟩ := h.fetched_number hfetched
  obtain ⟨hmem, hactivation⟩ := leaderTransition_some hr
  have hpending : r ∈ n.leadership.pending :=
    (h.mem_observed_or_pending hmem (by omega)).resolve_left hnew
  cases hcons : n.leadership.pending with
  | nil =>
    rw [hcons] at hpending
    cases hpending
  | cons first rest =>
    rw [hcons] at hpending
    rcases mem_cons.1 hpending with rfl | hlater
    · exact ⟨rest, rfl⟩
    have hordered := (pairwise_append.1 h.records_ordered).2.1
    rw [hcons] at hordered
    have hbefore := ((pairwise_cons.1 hordered).1 r hlater).2
    have hfirst := h.transitions first (by rw [hcons]; exact mem_cons_self)
    omega

theorem Safe.publishTransition (hphase : n.subscriber = .fetched block) :
    Safe l1 d recovery me (n.publishTransition l1 block) := by
  have hfetched : n.Fetched l1 block := h.published hphase
  obtain ⟨hbase, hnumber⟩ := h.fetched_number hfetched
  -- transitions to come are after the last delivered block, so only the fetched one could be missed
  have hlater : ∀ r ∈ n.leadership.pending, r.activationTempoBlock ≠ block.number →
      block.number < r.activationTempoBlock := by
    intro r hr hne
    have := h.transitions r hr
    omega
  have hrecords : ∀ r ∈ n.leadership.pending, r ∈ l1.leaders.records := by
    intro r hr
    obtain ⟨earlier, hsplit⟩ := h.tracks.split
    rw [hsplit]
    exact mem_append_right _ (mem_append_right _ hr)
  unfold EngineNode.publishTransition
  cases htransition : l1.leaderTransition block.number with
  | none =>
    refine h.withSubscriber ⟨hfetched, fun r hr => hlater r hr ?_⟩
    have hother := List.find?_eq_none.1 htransition r (hrecords r hr)
    simpa using hother
  | some record =>
    have hactivation := (leaderTransition_some htransition).2
    simp only
    cases hresult : (n.leadership.schedule.publish record).1 with
    | error e => exact h.withSubscriber trivial
    | ok appended =>
      by_cases hold : record ∈ n.leadership.observed
      · have hsame : EngineNode.observe n.leadership record = n.leadership := by
          rw [EngineNode.observe, if_pos hold, h.tracks.replay_eq hold]
        simp only [hsame]
        refine h.withSubscriber ⟨hfetched, fun r hr => hlater r hr fun hsameBlock => ?_⟩
        have hbefore := ((pairwise_append.1 h.records_ordered).2.2 record hold r hr).2
        omega
      obtain ⟨rest, hpending⟩ := h.pending_cons hfetched htransition hold
      have hobserve : EngineNode.observe n.leadership record =
          ⟨(n.leadership.schedule.publish record).2, n.leadership.observed ++ [record], rest,
            n.leadership.installed⟩ := by
        rw [EngineNode.observe, if_neg hold, hpending]
        rfl
      have happlied : (n.leadership.schedule.publish record).2.appliedAnchor =
          n.leadership.schedule.appliedAnchor := by
        rw [h.tracks.publish_next hpending]
        exact maybeBoundForcedRecovery_appliedAnchor _
      have hrest : ∀ r ∈ rest, block.number < r.activationTempoBlock := by
        intro r hr
        have hordered := (pairwise_append.1 h.records_ordered).2.1
        rw [hpending] at hordered
        have hbefore := ((pairwise_cons.1 hordered).1 r hr).2
        omega
      simp only [hobserve]
      exact { h with
        applied := by
          simp only [happlied]
          exact h.applied
        tracks := h.tracks.publish hpending
        governed := by
          rcases h.governed with ⟨first, hfirst, hle⟩ | ⟨hcomplete, hinstalled⟩
          · refine .inl ⟨first, ?_, hle⟩
            rw [List.head?_append, mem_def.1 hfirst]
            rfl
          · refine .inr ⟨?_, hinstalled⟩
            rw [hcomplete, hpending, append_assoc, singleton_append]
        transitions := fun r hr => h.transitions r (by
          rw [hpending]
          exact mem_cons_of_mem _ hr)
        subscriber := ⟨hfetched, hrest⟩
        engine := h.engine.frame rfl rfl rfl }

theorem Safe.publishPause (hphase : n.subscriber = .transitionPublished block) :
    Safe l1 d recovery me (n.publishPause l1 block) := by
  have hpublished : n.Fetched l1 block ∧ n.TransitionsPublished block.number := h.published hphase
  unfold EngineNode.publishPause
  cases hevent : l1.portalPause block.number with
  | none => exact h.withSubscriber ⟨hpublished.1, hpublished.2, fun hne => absurd hevent hne⟩
  | some paused =>
    have hpaused : l1.paused block.header.number = paused := l1.paused_of_event _ _ hevent
    have hobserved := h.observe block.header
    rw [hpaused] at hobserved
    have hreached : ∃ e ∈ (n.gate.observePortalPause block.header paused).2,
        block.number ≤ e.1.number := by
      rcases n.gate.observePortalPause_cases block.header paused with ⟨hnew, -⟩ |
        ⟨hkept, e, he, hle⟩
      · rw [hnew]
        exact ⟨_, rfl, le_rfl⟩
      · rw [hkept]
        exact ⟨e, he, hle⟩
    simp only
    cases hresult : n.gate.observePortalPause block.header paused with
    | mk result gate =>
      rw [hresult] at hobserved hreached
      cases result with
      | error e => exact hobserved.withSubscriber trivial
      | ok changed => exact hobserved.withSubscriber ⟨hpublished.1, hpublished.2, fun _ => hreached⟩

/-- The next block is appended; a delivered one is recognised and changes nothing. -/
theorem Safe.enqueue_cases (hfetched : n.Fetched l1 block) :
    (∃ rest, l1.chain.blocks = n.delivered ++ block :: rest ∧
      n.queue.tryEnqueueSealed block = (.ok true, n.queue.push block)) ∨
      n.enqueue block = { n with subscriber := .ready } := by
  have hlast := h.lastEnqueued.imp (fun hnone => hnone.1) id
  rcases hfetched with ⟨rest, hnext⟩ | hold
  · exact .inl ⟨rest, hnext,
      L1Chain.tryEnqueueSealed_next hnext (fun x hx => h.mem_delivered hx) hlast⟩
  obtain ⟨consumed, undelivered, -, hblocks⟩ := h.delivery
  have hsome : n.queue.lastEnqueued.isSome = true := by
    rcases h.lastEnqueued with ⟨-, hempty⟩ | hsome
    · rw [hempty] at hold
      cases hold
    · rw [hsome]
      rfl
  obtain ⟨hresult, hqueue⟩ := L1Chain.tryEnqueueSealed_old hblocks hlast (.inr ⟨hold, hsome⟩)
  refine .inr ?_
  unfold EngineNode.enqueue
  cases hpair : n.queue.tryEnqueueSealed block with
  | mk result queue =>
    rw [hpair] at hresult hqueue
    simp only at hresult hqueue
    subst hqueue
    match result, hresult with
    | .ok false, _ => rfl
    | .error e, _ => rfl
    | .ok true, hresult => exact absurd rfl hresult

theorem Safe.enqueue (hphase : n.subscriber = .pausePublished block) :
    Safe l1 d recovery me (n.enqueue block) := by
  have hpublished : n.Published l1 (.pausePublished block) := h.published hphase
  obtain ⟨hfetched, htransitions, hpause⟩ := hpublished
  rcases h.enqueue_cases hfetched with ⟨rest, hnext, hresult⟩ | hsame
  · -- everything up to the new block was published
    obtain ⟨consumed, undelivered, hdelivered, -⟩ := h.delivery
    have hnumber := (L1Chain.next_follows hnext).1
    have hafter : ∀ x ∈ n.delivered, x.number < block.number := by
      intro x hx
      have := (h.delivered_bounds hx).2
      omega
    rw [EngineNode.enqueue, hresult]
    simp only
    exact { h with
      delivery := by
        refine ⟨consumed, rest, ?_, ?_⟩
        · rw [hdelivered]
          simp only [push, append_assoc]
        · rw [hnext]
          simp only [append_assoc, singleton_append]
      lastEnqueued := .inr (by simp only [push, lastOf_concat])
      applied := by
        intro x hx
        obtain ⟨hle, hlt⟩ := h.applied x hx
        rw [lastOf_concat]
        have hblock : block.header.number = block.number := rfl
        refine ⟨by omega, fun b hb => ?_⟩
        rcases mem_append.1 hb with hold | hnew
        · exact hlt b hold
        · rw [mem_singleton.1 hnew]
          omega
      transitions := by
        intro r hr
        rw [lastOf_concat]
        exact htransitions r hr
      gate := by
        rw [lastOf_concat]
        refine ⟨h.gate.truthful, ?_⟩
        obtain ⟨e, he, hreaches⟩ := h.gate.reaches
        refine ⟨e, he, fun p hp hevent => ?_⟩
        by_cases hblock : p = block.number
        · subst hblock
          obtain ⟨e', he', hle⟩ := hpause hevent
          rw [mem_unique he he']
          exact hle
        · have hle : p ≤ block.number := hp
          exact hreaches p (by omega) hevent
      subscriber := trivial
      engine := by
        have hengine := h.engine
        have hpre : ∀ {front headers}, n.Selected front headers →
            Selected { n with
              queue := n.queue.push block, delivered := n.delivered ++ [block]
              subscriber := .ready } front headers := by
          intro front headers hselected
          refine ⟨?_, hselected.2.trans ?_⟩
          · show (n.queue.pending ++ [block]).head? = some front
            rw [List.head?_append, hselected.1]
            rfl
          · show _ <+: (n.queue.pending ++ [block]).map _
            rw [map_append]
            exact prefix_append _ _
        generalize n.engine = phase at hengine
        cases phase with
        | idle => trivial
        | exited _ => trivial
        | peeked front => exact hpre hengine
        | selected front headers => exact hpre hengine
        | checking front permitted rest
        | permitted front headers
        | cleared front headers => exact ⟨hpre hengine.1, hengine.2⟩
        | consumed anchor =>
          obtain ⟨hle, hlt⟩ := hengine
          refine ⟨?_, fun b hb => ?_⟩
          · simp only [lastOf_concat]
            have hblock : block.header.number = block.number := rfl
            omega
          · rcases mem_append.1 hb with hold | hnew
            · exact hlt b hold
            · rw [mem_singleton.1 hnew]
              omega }
  · rw [hsame]
    exact h.withSubscriber trivial

/-! ## Engine steps -/

theorem Safe.nextAvailable (hphase : n.engine = .peeked front) (latest : NumHash W)
    (finalizedL1Timestamp : Option ℕ) (finalizedTarget : Option FinalizedTarget)
    (parentMillis wallClockMillis : ℕ) :
    Safe l1 d recovery me
      { n with
        engine := n.nextAvailable spec front latest finalizedL1Timestamp finalizedTarget
          parentMillis wallClockMillis } := by
  have hselected : n.Selected front [] := h.checked hphase
  refine h.withEngine ?_
  unfold EngineNode.nextAvailable
  simp only
  split
  · trivial
  · trivial
  · exact hselected
  refine ⟨hselected.1, (List.take_prefix _ _).trans ?_⟩
  rw [map_take]
  exact take_prefix _ _

theorem Safe.checkFront (hphase : n.engine = .selected front headers) :
    Safe l1 d recovery me { n with engine := n.checkFront me front headers } := by
  have hselected : n.Selected front headers := h.checked hphase
  refine h.withEngine ?_
  unfold EngineNode.checkFront
  split
  · trivial
  · next hcheck =>
    exact ⟨hselected, h.rightful hselected.front_mem hcheck,
      nofun⟩

theorem Safe.checkHeader {permitted rest : List (NumHash W)}
    (hphase : n.engine = .checking front permitted rest) :
    Safe l1 d recovery me { n with engine := n.checkHeader me front permitted rest } := by
  have hchecked : n.Checked l1 recovery me (.checking front permitted rest) := h.checked hphase
  obtain ⟨hselected, hfront, hpermitted⟩ := hchecked
  have hcut : n.Selected front permitted :=
    ⟨hselected.1, (prefix_append _ _).trans hselected.2⟩
  refine h.withEngine ?_
  cases rest with
  | nil => exact ⟨hcut, hfront, hpermitted⟩
  | cons header rest =>
    unfold EngineNode.checkHeader
    simp only
    split
    · next hcheck =>
      obtain ⟨b, hb, rfl⟩ := hselected.mem (x := header) (by simp)
      refine ⟨by rw [append_assoc]; exact hselected, hfront, fun x hx => ?_⟩
      rcases mem_append.1 hx with hold | hnew
      · exact hpermitted x hold
      · rw [mem_singleton.1 hnew]
        exact h.rightful hb hcheck
    · split
      · trivial
      · exact ⟨hcut, hfront, hpermitted⟩

theorem Safe.checkPause (hphase : n.engine = .permitted front headers) :
    Safe l1 d recovery me { n with engine := n.checkPause front headers } := by
  have hchecked : n.Checked l1 recovery me (.permitted front headers) := h.checked hphase
  obtain ⟨hselected, hfront, hheaders⟩ := hchecked
  refine h.withEngine ?_
  unfold EngineNode.checkPause
  split
  · trivial
  · next hopen =>
    have hclear : ∀ b ∈ n.queue.pending, ClearOf l1 n.gate b.number := fun b hb =>
      h.gate.clear (by simpa using hopen) (h.delivered_bounds (h.mem_delivered hb)).2
    refine ⟨hselected, ⟨hfront, hclear _ hselected.front_mem⟩, fun x hx => ⟨hheaders x hx, ?_⟩⟩
    obtain ⟨b, hb, rfl⟩ := hselected.mem hx
    exact hclear b hb

theorem Safe.consume {before later : List (SealedL1Block W)}
    (hsplit : n.queue.pending = before ++ b :: later) {queue : DepositQueue W}
    (hpending : queue.pending = later) (hlast : queue.lastEnqueued = n.queue.lastEnqueued)
    {imports : List (TempoImported W)}
    (himports : ∀ i ∈ imports, ∀ x ∈ i.headers, Rightful l1.leaders recovery me x.number ∧ ClearOf l1 i.gate x.number)
    (hphase : phase = .idle ∨ phase = .consumed b.number) :
    Safe l1 d recovery me { n with queue := queue, engine := phase, imports := imports } := by
  have hordered := h.pending_ordered
  rw [hsplit] at hordered
  have hlater := (pairwise_cons.1 (pairwise_append.1 hordered).2.1).1
  have hsub : ∀ x ∈ later, x ∈ n.queue.pending := by
    intro x hx
    rw [hsplit]
    exact mem_append_right _ (mem_cons_of_mem _ hx)
  obtain ⟨consumed, undelivered, hdelivered, hblocks⟩ := h.delivery
  exact { h with
    delivery := by
      refine ⟨consumed ++ (before ++ [b]), undelivered, ?_, hblocks⟩
      simp only [hpending]
      rw [hdelivered, hsplit]
      simp
    lastEnqueued := by
      rw [hlast]
      exact h.lastEnqueued
    applied := by
      intro x hx
      obtain ⟨hle, hlt⟩ := h.applied x hx
      refine ⟨hle, fun b' hb' => hlt b' (hsub b' ?_)⟩
      rw [hpending] at hb'
      exact hb'
    subscriber := h.subscriber.frame rfl rfl rfl
    engine := by
      rcases hphase with rfl | rfl
      · trivial
      refine ⟨(h.delivered_bounds (h.mem_delivered ?_)).2, fun b' hb' => hlater b' ?_⟩
      · rw [hsplit]
        simp
      · rw [hpending] at hb'
        exact hb'
    imports := himports }

end

theorem split_of_headers {blocks : List (SealedL1Block W)} {final : NumHash W}
    (h : headers <+: blocks.map (·.header)) (hfinal : headers.getLast? = some final) :
    ∃ before b later, blocks = before ++ b :: later ∧ b.header = final ∧
      headers = (before ++ [b]).map (·.header) := by
  obtain ⟨front, last, rfl⟩ := eq_nil_or_concat headers |>.resolve_left (by
    rintro rfl
    cases hfinal)
  rw [concat_eq_append] at h hfinal ⊢
  rw [List.getLast?_concat] at hfinal
  cases hfinal
  obtain ⟨rest, hrest⟩ := h
  obtain ⟨taken, later, rfl, htaken, -⟩ := map_eq_append_iff.1 hrest.symm
  obtain ⟨before, single, rfl, hbefore, hsingle⟩ := map_eq_append_iff.1 htaken
  obtain ⟨b, rfl, hb⟩ := map_eq_singleton_iff.1 hsingle
  exact ⟨before, b, later, by simp, hb, by rw [← hbefore, ← hb, map_append]; rfl⟩

section

variable (h : Safe l1 d recovery me n)
include h

theorem Safe.advance (hphase : n.engine = .cleared front headers) :
    Safe l1 d recovery me (n.advance front headers) := by
  have hchecked : n.Checked l1 recovery me (.cleared front headers) := h.checked hphase
  obtain ⟨hselected, hfront, hheaders⟩ := hchecked
  have hrecord : ∀ {imported : List (NumHash W)}, (∀ x ∈ imported,
      Rightful l1.leaders recovery me x.number ∧ ClearOf l1 n.gate x.number) →
      ∀ i ∈ n.imports ++ [⟨imported, n.gate⟩], ∀ x ∈ i.headers,
        Rightful l1.leaders recovery me x.number ∧ ClearOf l1 i.gate x.number := by
    intro imported himported i hi
    rcases mem_append.1 hi with hold | hnew
    · exact h.imports i hold
    · rw [mem_singleton.1 hnew]
      exact himported
  unfold EngineNode.advance
  cases hfinal : headers.getLast? with
  | some final =>
    obtain ⟨before, b, later, hsplit, rfl, -⟩ := split_of_headers hselected.2 hfinal
    simp only
    rw [deferThrough_split hsplit h.pending_ordered]
    refine h.consume hsplit ?_ ?_ (hrecord hheaders) (.inr rfl) <;> rfl
  | none =>
    obtain ⟨later, hsplit⟩ := List.head?_eq_some_iff.1 hselected.1
    simp only
    cases n.queue.operationalWork front.header with
    | error e => exact h.withEngine trivial
    | ok work =>
      have hcut : n.queue.pending = [] ++ front :: later := hsplit
      rw [confirmOperational_front hsplit]
      refine h.consume hcut ?_ ?_ (hrecord fun x hx => ?_) (.inr rfl)
      · rfl
      · rfl
      · rw [mem_singleton.1 hx]
        exact hfront

theorem Safe.recordApplied {anchor : ℕ} (hphase : n.engine = .consumed anchor) :
    Safe l1 d recovery me (n.recordApplied anchor) := by
  have hconsumed : n.Checked l1 recovery me (.consumed anchor) := h.checked hphase
  exact { h with
    applied := by
      intro x hx
      cases happlied : n.leadership.schedule.appliedAnchor with
      | none =>
        have hx' : some anchor = some x := by
          simpa only [EngineNode.recordApplied, recordAppliedAnchor,
            happlied, elim_none, mem_def] using hx
        cases hx'
        exact hconsumed
      | some y =>
        have hx' : some (max y anchor) = some x := by
          simpa only [EngineNode.recordApplied, recordAppliedAnchor,
            happlied, elim_some, mem_def] using hx
        cases hx'
        obtain ⟨hle, hlt⟩ := h.applied y happlied
        exact ⟨max_le hle hconsumed.1, fun b hb => max_lt (hlt b hb) (hconsumed.2 b hb)⟩
    tracks := h.tracks.recordAppliedAnchor anchor
    subscriber := h.subscriber.frame rfl rfl rfl
    engine := trivial }

/-! ## Interleavings -/

theorem Safe.step (hstep : Step l1 spec me n n') : Safe l1 d recovery me n' := by
  cases hstep with
  | fetch _ hblock => exact h.withSubscriber hblock
  | publishTransition hphase => exact h.publishTransition hphase
  | publishPause hphase => exact h.publishPause hphase
  | enqueue hphase => exact h.enqueue hphase
  | reconnect => exact h.withSubscriber trivial
  | poll block => exact h.observe block
  | peek _ hfront => exact h.withEngine ⟨hfront, nil_prefix⟩
  | nextAvailable hphase _ _ _ _ _ => exact h.nextAvailable hphase _ _ _ _ _
  | checkFront hphase => exact h.checkFront hphase
  | checkHeader hphase => exact h.checkHeader hphase
  | checkPause hphase => exact h.checkPause hphase
  | advance hphase => exact h.advance hphase
  | advanceFails _
  | cancel _
  | startEngine _ => exact h.withEngine trivial
  | recordApplied hphase => exact h.recordApplied hphase

end

theorem seeded_tracks {h : P2p.TransitionHistory K} {anchor : ℕ} {l : P2p.Node K W}
    (hseeded : Seeded h d anchor l) :
    P2p.Tracks h d l ∧ l.schedule.appliedAnchor = some anchor := by
  have hsnapshot : ∀ {earlier rest : List (P2p.LeadershipState K)} {seed : P2p.LeadershipState K},
      h.records = earlier ++ seed :: rest →
      P2p.Tracks h d ⟨(uninitialized.publish seed).2.recordAppliedAnchor
        anchor, [seed], rest, false⟩ := by
    intro earlier rest seed hrecords
    have hpublish : P2p.Node.Step d (.start (seed :: rest)) _ := .publish rfl
    exact P2p.Tracks.reached ⟨earlier, seed :: rest, hrecords,
      (single hpublish).tail (.recordAppliedAnchor anchor)⟩
  cases hseeded with
  | fenced _ =>
    exact ⟨P2p.Tracks.reached ⟨[], h.records, rfl, single (.recordAppliedAnchor anchor)⟩, rfl⟩
  | snapshot hrecords _ _ => exact ⟨hsnapshot hrecords, rfl⟩
  | @recovering earlier rest seed hrecords _ _ hepoch =>
    refine ⟨(hsnapshot hrecords).install_open rfl fun r hr => ?_, ?_⟩
    · rw [mem_singleton.1 hr]
      exact hepoch
    · exact maybeBoundForcedRecovery_appliedAnchor _

theorem Safe.start (hstart : Start l1 d n) : Safe l1 d (n.leadership.directive d) me n := by
  obtain ⟨htracks, happlied⟩ := seeded_tracks hstart.leadership
  have hlast : lastOf l1.chain.base n.delivered = l1.chain.base := by
    rw [hstart.delivered]
    rfl
  exact {
    delivery := ⟨[], l1.chain.blocks, by rw [hstart.delivered, hstart.pending]; rfl,
      by rw [hstart.delivered]; rfl⟩
    lastEnqueued := by
      rw [hlast]
      exact hstart.lastEnqueued.imp (fun hnone => ⟨hnone, hstart.delivered⟩) id
    applied := by
      intro x hx
      rw [happlied] at hx
      cases hx
      rw [hlast, hstart.pending]
      exact ⟨le_rfl, nofun⟩
    tracks := htracks
    directive := rfl
    governed := by
      have hseeded := hstart.leadership
      generalize n.leadership = l at hseeded
      cases hseeded with
      | fenced _ => exact .inr ⟨rfl, rfl⟩
      | snapshot _ hseed _ => exact .inl ⟨_, rfl, hseed⟩
      | recovering _ hseed _ _ => exact .inl ⟨_, rfl, hseed⟩
    transitions := by
      have hseeded := hstart.leadership
      rw [hlast]
      unfold TransitionsPublished
      generalize n.leadership = l at hseeded
      cases hseeded with
      | fenced hnone => exact hnone
      | snapshot _ _ hrest => exact hrest
      | recovering _ _ hrest _ => exact hrest
    gate := by
      obtain ⟨block, hbase, hgate⟩ := hstart.gate
      rw [hgate, hlast]
      refine ⟨fun e he => ?_, _, rfl, fun p hp _ => hp.trans hbase⟩
      cases he
      rfl
    subscriber := by
      rw [hstart.subscriber]
      trivial
    engine := by
      rw [hstart.engine]
      trivial
    imports := by
      rw [hstart.imports]
      exact nofun }

theorem Safe.of_run {n₀ : EngineNode K W} (hstart : Start l1 d n₀)
    (hrun : ReflTransGen (Step l1 spec me) n₀ n) :
    Safe l1 d (n₀.leadership.directive d) me n := by
  induction hrun with
  | refl => exact .start hstart
  | tail _ hstep ih => exact ih.step hstep

/-- In every interleaving of subscriber, pause poller and engine, the node leads the anchor of every
header it imports, and no header is at or after a block that paused the portal while it has stayed
paused. -/
theorem engine_imports_rightful (hreached : Reached l1 spec me d n) :
    ∀ i ∈ n.imports, ∀ x ∈ i.headers,
      Rightful l1.leaders (n.leadership.directive d) me x.number ∧
        ∀ q, i.gate = some (q, true) → ∀ p, l1.portalPause p = some true →
          (∀ m, p ≤ m → m ≤ q.number → l1.paused m = true) → x.number < p := by
  obtain ⟨n₀, hstart, hrun⟩ := hreached
  have h := Safe.of_run hstart hrun
  intro i hi x hx
  obtain ⟨hrightful, m, hopen, ⟨e, he, hle⟩, hevents⟩ := h.imports i hi x hx
  rw [h.directive]
  refine ⟨hrightful, fun q hgate p hevent hpaused => ?_⟩
  rw [hgate] at he
  cases he
  by_contra hafter
  -- the portal was not paused at `m`, between the pause and the newest observation
  have hcontra := hpaused m (hevents p (Nat.not_lt.1 hafter) hevent) hle
  rw [hopen] at hcontra
  cases hcontra

/-! ## Order of imports -/

/-- The delivered blocks are those imported, then those queued. -/
def InOrder (n : EngineNode K W) : Prop :=
  n.delivered.map (·.header) = n.imports.flatMap (·.headers) ++ n.queue.pending.map (·.header)

theorem InOrder.importing {consumed later : List (SealedL1Block W)} {queue : DepositQueue W}
    {anchor : NumHash W} (h : n.InOrder) (hsplit : n.queue.pending = consumed ++ later)
    (hqueue : queue.pending = later) :
    (n.importing queue (consumed.map (·.header)) anchor).InOrder := by
  unfold InOrder EngineNode.importing at *
  rw [h, hsplit, hqueue]
  simp

section

variable (h : Safe l1 d recovery me n) (horder : n.InOrder)
include h horder

theorem Safe.advance_inOrder (hphase : n.engine = .cleared front headers) :
    (n.advance front headers).InOrder := by
  have hchecked : n.Checked l1 recovery me (.cleared front headers) := h.checked hphase
  obtain ⟨hselected, -⟩ := hchecked
  unfold EngineNode.advance
  cases hfinal : headers.getLast? with
  | some final =>
    obtain ⟨before, b, later, hsplit, rfl, rfl⟩ := split_of_headers hselected.2 hfinal
    simp only
    rw [deferThrough_split hsplit h.pending_ordered]
    exact horder.importing (by rw [hsplit, append_assoc]; rfl) rfl
  | none =>
    obtain ⟨later, hsplit⟩ := List.head?_eq_some_iff.1 hselected.1
    simp only
    cases n.queue.operationalWork front.header with
    | error e => exact horder
    | ok work =>
      have hcut : n.queue.pending = [front] ++ later := hsplit
      rw [confirmOperational_front hsplit]
      exact horder.importing hcut rfl

theorem Safe.enqueue_inOrder (hphase : n.subscriber = .pausePublished block) :
    (n.enqueue block).InOrder := by
  have hpublished : n.Published l1 (.pausePublished block) := h.published hphase
  rcases h.enqueue_cases hpublished.1 with ⟨rest, -, hresult⟩ | hsame
  · rw [EngineNode.enqueue, hresult]
    unfold InOrder at *
    simp only [push, map_append, horder, append_assoc]
  · rw [hsame]
    exact horder

theorem Safe.inOrder (hstep : Step l1 spec me n n') : n'.InOrder := by
  cases hstep with
  | enqueue hphase => exact h.enqueue_inOrder horder hphase
  | advance hphase => exact h.advance_inOrder horder hphase
  | publishTransition _ =>
    unfold EngineNode.publishTransition
    split
    · exact horder
    · split <;> exact horder
  | publishPause _ =>
    unfold EngineNode.publishPause
    split
    · exact horder
    · split <;> exact horder
  | _ => exact horder

end

/-- In every interleaving the imported headers, then the queued ones, are the finalized headers after
the checkpoint in their order: none is skipped, repeated or imported out of turn. -/
theorem engine_imports_in_order (hreached : Reached l1 spec me d n) :
    n.imports.flatMap (·.headers) ++ n.queue.pending.map (·.header) <+:
      l1.chain.blocks.map (·.header) := by
  obtain ⟨n₀, hstart, hrun⟩ := hreached
  obtain ⟨consumed, undelivered, -, hblocks⟩ := (Safe.of_run hstart hrun).delivery
  have horder : n.InOrder := by
    clear hblocks
    induction hrun with
    | refl =>
      rw [InOrder, hstart.delivered, hstart.imports, hstart.pending]
      rfl
    | tail hrun hstep ih => exact (Safe.of_run hstart hrun).inOrder ih hstep
  rw [← horder, hblocks, map_append]
  exact prefix_append _ _

namespace Example

open QueueExample (enabling bouncing)

def pausedL1 : FinalizedL1 ℕ Sym where
  chain := QueueExample.chain
  leaders :=
    { records := [⟨1, 10, 3⟩, ⟨2, 20, 7⟩]
      chained := by
        simp only [isChain_cons_cons, isChain_singleton, P2p.LeadershipState.Precedes]
        decide
      epoch_lt := by decide }
  portalPause n := if n = 6 then some true else none
  paused n := decide (6 ≤ n)
  paused_of_event := by
    intro n b h
    split at h
    · next hn =>
      cases h
      exact decide_eq_true hn.ge
    · cases h

def beforeT13 : ZoneSchedule Sym := ⟨fun _ => 0, 1, fun header => header.number * 1000⟩

def directive : P2p.RecoveryDirective ℕ Sym := ⟨2, 30, 0, 5⟩

def started : EngineNode ℕ Sym where
  queue := .new
  delivered := []
  leadership := ⟨(uninitialized.publish ⟨1, 10, 3⟩).2.recordAppliedAnchor
    4, [⟨1, 10, 3⟩], [⟨2, 20, 7⟩], false⟩
  gate := some (⟨4, .num 4⟩, false)
  subscriber := .ready
  engine := .idle
  imports := []

theorem started_start : Start pausedL1 directive started where
  pending := rfl
  lastEnqueued := .inl rfl
  delivered := rfl
  leadership := by
    have hrecords : pausedL1.leaders.records = [] ++ ⟨1, 10, 3⟩ :: [⟨2, 20, 7⟩] := rfl
    exact .snapshot hrecords (by decide) (by decide)
  gate := ⟨⟨4, .num 4⟩, le_rfl, rfl⟩
  subscriber := rfl
  engine := rfl
  imports := rfl

def delivered : EngineNode ℕ Sym :=
  EngineNode.enqueue (EngineNode.publishPause pausedL1 (EngineNode.publishTransition pausedL1
    { started with subscriber := .fetched enabling } enabling) enabling) enabling

def deliveredAt (phase : EnginePhase Sym) : EngineNode ℕ Sym := { delivered with engine := phase }

def cleared : EngineNode ℕ Sym := deliveredAt (.cleared enabling [])

/-- The subscriber publishes the pause of block 6 before the engine imports block 5. -/
def paused : EngineNode ℕ Sym :=
  EngineNode.publishPause pausedL1 (EngineNode.publishTransition pausedL1
    { cleared with subscriber := .fetched bouncing } bouncing) bouncing

def imported : EngineNode ℕ Sym := paused.advance enabling []

theorem delivered_run : ReflTransGen (Step pausedL1 beforeT13 10) started delivered := by
  have hfetch : Step pausedL1 beforeT13 10 started { started with subscriber := .fetched enabling } :=
    .fetch rfl (.inl ⟨_, rfl⟩)
  exact (((single hfetch).tail (.publishTransition rfl)).tail
    (.publishPause rfl)).tail (.enqueue rfl)

theorem cleared_run : ReflTransGen (Step pausedL1 beforeT13 10) delivered cleared := by
  have hpeek : Step pausedL1 beforeT13 10 delivered (deliveredAt (.peeked enabling)) :=
    .peek rfl rfl
  have hselect := (single hpeek).tail (.nextAvailable rfl ⟨5, .num 5⟩ none none 0 0)
  have hheaders := (hselect.tail (.checkFront rfl)).tail (.checkHeader rfl)
  exact hheaders.tail (.checkPause rfl)

theorem imported_run : ReflTransGen (Step pausedL1 beforeT13 10) cleared imported := by
  have hfetch : Step pausedL1 beforeT13 10 cleared { cleared with subscriber := .fetched bouncing } :=
    .fetch rfl (.inl ⟨_, rfl⟩)
  exact (((single hfetch).tail (.publishTransition rfl)).tail
    (.publishPause rfl)).tail (.advance rfl)

theorem imported_reached : Reached pausedL1 beforeT13 10 directive imported :=
  ⟨started, started_start, (delivered_run.trans cleared_run).trans imported_run⟩

/-- Block 5 is imported although block 6 has paused the portal meanwhile. -/
theorem engine_imports_before_pause :
    imported.imports = [⟨[⟨5, .num 5⟩], some (⟨6, .num 6⟩, true)⟩] ∧
      Rightful pausedL1.leaders (imported.leadership.directive directive) 10 5 ∧ 5 < 6 := by
  have himports : imported.imports = [⟨[⟨5, .num 5⟩], some (⟨6, .num 6⟩, true)⟩] := rfl
  obtain ⟨hrightful, hpause⟩ := engine_imports_rightful imported_reached
    ⟨[⟨5, .num 5⟩], some (⟨6, .num 6⟩, true)⟩ (by rw [himports]; exact mem_singleton_self _)
    ⟨5, .num 5⟩ (mem_singleton_self _)
  exact ⟨himports, hrightful, hpause ⟨6, .num 6⟩ rfl 6 rfl fun m hm _ => decide_eq_true hm⟩

theorem imported_in_order : imported.imports.flatMap (·.headers) = [⟨5, .num 5⟩] ∧
    imported.imports.flatMap (·.headers) ++ imported.queue.pending.map (·.header) <+:
      pausedL1.chain.blocks.map (·.header) :=
  ⟨rfl, engine_imports_in_order imported_reached⟩

end Example

end EngineNode

end TempoZones
