import TempoZones.Node.PeerImport

/-!
# Followers accept what honest leaders build

On a node in any run, the queue, the canonical zone blocks and the schedule are determined by the
finalized Tempo chain and by what the zone has imported (`PeerNode.Synced`). Two nodes with the same
canonical zone blocks therefore owe the same work, hold the same front of the queue and assign the
next anchor to the same leader.
-/

namespace TempoZones

open Lib List AbiQueuedDeposit DepositQueue L1Chain SealedL1Block ZoneImport Nat

variable {K W : Type} [DecidableEq K] [EvmWord W] [DecidableEq W] {rest : List (SealedL1Block W)}
  {header : SealedHeader W} {work : List (L1BlockDeposits W)} {zone : List (PeerBlock W)}
  {imports : List (ZoneImport W)} {last : NumHash W}

/-! ## Header ranges -/

variable {chain : L1Chain W}

theorem L1Chain.number_inj {a b : SealedL1Block W} (ha : a ∈ chain.blocks) (hb : b ∈ chain.blocks)
    (hnumber : a.number = b.number) : a = b := by
  have hordered := chain.ordered
  obtain ⟨before, later, hsplit⟩ := append_of_mem ha
  rw [hsplit] at hordered hb
  obtain ⟨-, hrest, hcross⟩ := pairwise_append.1 hordered
  rcases mem_append.1 hb with hbefore | hafter
  · have hlt := hcross b hbefore a mem_cons_self
    omega
  rcases mem_cons.1 hafter with heq | hlater
  · exact heq.symm
  · have hlt := (pairwise_cons.1 hrest).1 b hlater
    omega

theorem checkRange_linked {range : List (SealedL1Block W)} :
    ∀ {done : List (SealedL1Block W)}, chain.blocks = done ++ (range ++ rest) →
      checkRange K (lastOf chain.base done) (range.map sealedHeader) = .ok () := by
  induction range with
  | nil =>
    intro done _
    rfl
  | cons b range ih =>
    intro done hblocks
    obtain ⟨hnumber, hparent⟩ := next_follows hblocks
    have hbound := chain.number_lt b (by rw [hblocks]; simp)
    have hnext : chain.blocks = (done ++ [b]) ++ (range ++ rest) := by
      rw [hblocks]
      simp
    have hrange := ih hnext
    rw [lastOf_concat] at hrange
    have hsaturate : b.number = saturatingAdd (lastOf chain.base done).number 1 := by
      rw [saturatingAdd]
      omega
    rw [map_cons, checkRange, bind_ok_iff]
    refine ⟨(), require_ok_iff.2 hsaturate, ?_⟩
    rw [bind_ok_iff]
    exact ⟨(), require_ok_iff.2 hparent, hrange⟩

variable {headers : List (SealedHeader W)}

theorem checkRange_cons {previous : NumHash W}
    (h : checkRange K previous (header :: headers) = .ok ()) :
    header.number = saturatingAdd previous.number 1 ∧
      checkRange K header.toNumHash headers = .ok () := by
  rw [checkRange, bind_ok_iff] at h
  obtain ⟨_, hnumber, h⟩ := h
  rw [bind_ok_iff] at h
  obtain ⟨_, -, h⟩ := h
  exact ⟨require_ok_iff.1 hnumber, h⟩

theorem checkRange_mono :
    ∀ {previous : NumHash W}, checkRange K previous headers = .ok () → previous.number < 2 ^ 64 →
      ∀ header ∈ headers, previous.number ≤ header.number := by
  induction headers with
  | nil => rintro previous _ _ header ⟨⟩
  | cons first headers ih =>
    intro previous h hbound header hmem
    obtain ⟨hnumber, hrest⟩ := checkRange_cons h
    rw [saturatingAdd] at hnumber
    rcases mem_cons.1 hmem with rfl | hmem
    · omega
    · have hle := ih hrest (by omega) header hmem
      omega

theorem checkRange_above {previous : NumHash W} (h : checkRange K previous headers = .ok ())
    (hbound : previous.number + 1 < 2 ^ 64) :
    ∀ header ∈ headers, previous.number < header.number := by
  intro header hmem
  cases headers with
  | nil => cases hmem
  | cons first headers =>
    obtain ⟨hnumber, hrest⟩ := checkRange_cons h
    rw [saturatingAdd] at hnumber
    rcases mem_cons.1 hmem with rfl | hmem
    · omega
    · have hle := checkRange_mono hrest (by omega) header hmem
      omega

/-! ## Portal inputs -/

variable {lib : Preparer W}

theorem checkDeposits_ok_iff (entries : List (QueueEntry W)) :
    ∀ (index : ℕ) (deposits : List AbiQueuedDeposit), deposits.length = entries.length →
      (checkDeposits K lib index entries deposits = .ok () ↔
        deposits.map toQueuedDeposit = entries.map lib.toAbiQueuedDeposit) := by
  induction entries with
  | nil =>
    intro index deposits hlength
    rw [length_eq_zero_iff.1 hlength]
    exact ⟨fun _ => rfl, fun _ => rfl⟩
  | cons expected entries ih =>
    intro index deposits hlength
    cases deposits with
    | nil => cases hlength
    | cons actual deposits =>
      have hrest := ih (index + 1) deposits (Nat.succ.inj hlength)
      rw [checkDeposits, bind_ok_iff, map_cons, map_cons, cons.injEq, ← hrest]
      simp only [require_ok_iff, exists_const]

variable {deposits : List AbiQueuedDeposit} {tokens : List EnabledToken}

theorem validateAdvanceTempoInputs_ok_iff {events : L1PortalEvents W} :
    validateAdvanceTempoInputs K lib events deposits tokens = .ok () ↔
      deposits.map toQueuedDeposit = events.deposits.map lib.toAbiQueuedDeposit ∧
        tokens = events.enabledTokens := by
  rw [validateAdvanceTempoInputs, bind_ok_iff]
  simp only [ok_iff, exists_const]
  constructor
  · rintro ⟨hlength, _, hdeposits, htokens⟩
    exact ⟨(checkDeposits_ok_iff _ 0 _ hlength).1 hdeposits, htokens⟩
  · rintro ⟨hdeposits, htokens⟩
    have hlength := congrArg length hdeposits
    rw [length_map, length_map] at hlength
    exact ⟨hlength, (), (checkDeposits_ok_iff _ 0 _ hlength).2 hdeposits, htokens⟩

theorem append_eq_iff_take_drop {α : Type} {xs ys zs : List α} :
    xs = ys ++ zs ↔ ys.length ≤ xs.length ∧ xs.take ys.length = ys ∧ xs.drop ys.length = zs := by
  constructor
  · rintro rfl
    exact ⟨by simp, take_left, drop_left⟩
  · rintro ⟨-, htake, hdrop⟩
    conv_rhs => rw [← htake, ← hdrop]
    exact (take_append_drop ys.length xs).symm

theorem checkWork_ok_iff (work : List (L1BlockDeposits W)) :
    ∀ {i j : ℕ}, i ≤ deposits.length → j ≤ tokens.length →
      (checkWork K lib deposits tokens i j work = .ok () ↔ (deposits.drop i).map toQueuedDeposit =
            (workEvents work).deposits.map lib.toAbiQueuedDeposit ∧
          tokens.drop j = (workEvents work).enabledTokens) := by
  induction work with
  | nil =>
    intro i j hi hj
    simp only [checkWork, ok_iff, exists_const, workEvents, flatMap_nil,
      map_nil, map_eq_nil_iff, drop_eq_nil_iff]
    constructor
    · rintro ⟨rfl, rfl⟩
      exact ⟨le_rfl, le_rfl⟩
    · rintro ⟨hdeposits, htokens⟩
      exact ⟨le_antisymm hi hdeposits, le_antisymm hj htokens⟩
  | cons block work ih =>
    intro i j hi hj
    have hdeposits : (workEvents (block :: work)).deposits =
      block.events.deposits ++ (workEvents work).deposits := rfl
    have htokens : (workEvents (block :: work)).enabledTokens =
      block.events.enabledTokens ++ (workEvents work).enabledTokens := rfl
    rw [checkWork, hdeposits, htokens, map_append, append_eq_iff_take_drop, append_eq_iff_take_drop]
    simp only [ok_iff, exists_const, length_map, length_drop, ← map_take, ← map_drop, drop_drop]
    constructor
    · rintro ⟨⟨hshort, hshort'⟩, _, hevents, hrest⟩
      obtain ⟨hblock, hblock'⟩ := validateAdvanceTempoInputs_ok_iff.1 hevents
      obtain ⟨hwork, hwork'⟩ := (ih hshort hshort').1 hrest
      exact ⟨⟨by omega, hblock, hwork⟩, by omega, hblock', hwork'⟩
    · rintro ⟨⟨hshort, hblock, hwork⟩, hshort', hblock', hwork'⟩
      have hle : i + block.events.deposits.length ≤ deposits.length := by omega
      have hle' : j + block.events.enabledTokens.length ≤ tokens.length := by omega
      exact ⟨⟨hle, hle'⟩, (), validateAdvanceTempoInputs_ok_iff.2 ⟨hblock, hblock'⟩,
        (ih hle hle').2 ⟨hwork, hwork'⟩⟩

theorem validateFullPortalInputs_ok_iff {queue : DepositQueue W}
    {anchor : NumHash W} : validateFullPortalInputs K lib queue anchor deposits tokens = .ok () ↔
      ∃ work, queue.operationalWork anchor = .ok work ∧ deposits.map toQueuedDeposit =
            (workEvents work).deposits.map lib.toAbiQueuedDeposit ∧
          tokens = (workEvents work).enabledTokens := by
  unfold validateFullPortalInputs
  cases queue.operationalWork anchor with
  | error e => simp
  | ok work =>
    have hwork : checkWork K lib deposits tokens 0 0 work = .ok () ↔
        (deposits.drop 0).map toQueuedDeposit =
            (workEvents work).deposits.map lib.toAbiQueuedDeposit ∧
          tokens.drop 0 = (workEvents work).enabledTokens :=
      checkWork_ok_iff work (zero_le _) (zero_le _)
    rw [drop_zero, drop_zero] at hwork
    simp only [hwork, Except.ok.injEq, exists_eq_left']

theorem Preparer.prepareMany_ok {prepared : PreparedL1Block W}
    (h : lib.prepareMany work = .ok prepared) :
    prepared.queuedDeposits = (workEvents work).deposits.map lib.toAbiQueuedDeposit ∧
      prepared.enabledTokens = (workEvents work).enabledTokens := by
  cases work with
  | nil => cases h
  | cons first rest =>
    simp only [prepareMany, ok_iff, exists_const] at h
    obtain ⟨start, hfirst, result, hrest, -, -, rfl⟩ := h
    obtain ⟨hdeposits, htokens⟩ := prepare_ok hfirst
    obtain ⟨hdeposits', htokens'⟩ := prepareRest_ok hrest
    rw [hdeposits] at hdeposits'
    rw [htokens] at htokens'
    simp only [workEvents, flatMap_cons, map_append]
    exact ⟨hdeposits', htokens'⟩

/-! ## What zone blocks import -/

def ZoneImport.kind : ZoneImport W → Bool × NumHash W
  | .checkpointOnly anchor => (false, anchor)
  | .full anchor _ => (true, anchor)

theorem lastOperational_eq_kinds (imports : List (ZoneImport W)) :
    ∀ base : ℕ, lastOperational base imports = (imports.map kind).foldl
      (fun last kind => bif kind.1 then kind.2.number else last) base := by
  induction imports with
  | nil =>
    intro base
    rfl
  | cons i rest ih =>
    intro base
    cases i with
    | checkpointOnly anchor => exact ih base
    | full anchor work => exact ih anchor.number

theorem zoneCheckpoint_eq_kinds (imports : List (ZoneImport W)) :
    ∀ base : NumHash W, zoneCheckpoint base imports =
      (imports.map kind).foldl (fun _ kind => kind.2) base := by
  induction imports with
  | nil =>
    intro base
    rfl
  | cons i rest ih =>
    intro base
    cases i with
    | checkpointOnly anchor => exact ih anchor
    | full anchor work => exact ih anchor

def Carries (K : Type) (block : PeerBlock W) (i : ZoneImport W) : Prop :=
  ∃ decoded last, decodeAdvanceTempo K block = .ok decoded ∧
    decoded.headers.getLast? = some last ∧ (decoded.isFull, last.toNumHash) = i.kind

theorem kinds_of_carries {imports' : List (ZoneImport W)}
    (h : List.Forall₂ (Carries K) zone imports) (h' : List.Forall₂ (Carries K) zone imports') :
    imports.map kind = imports'.map kind := by
  induction h generalizing imports' with
  | nil =>
    cases h'
    rfl
  | cons hcarries _ ih =>
    cases h' with
    | cons hcarries' hrest =>
      obtain ⟨decoded, last, hdecoded, hlast, hkind⟩ := hcarries
      obtain ⟨decoded', last', hdecoded', hlast', hkind'⟩ := hcarries'
      rw [hdecoded] at hdecoded'
      cases hdecoded'
      rw [hlast] at hlast'
      cases hlast'
      rw [map_cons, map_cons, ← hkind, ← hkind', ih hrest]

variable {finished crossed undelivered : List (SealedL1Block W)}

theorem Accounts.crossed_eq {n : QueueNode W} (h : Accounts chain n finished crossed undelivered) :
    crossed = chain.between (lastOperational chain.base.number n.imports)
      (zoneCheckpoint chain.base n.imports).number := by
  rw [h.covers.lastOperational_eq, h.covers.zoneCheckpoint_eq, between_eq h.blocks]

theorem Accounts.consumed_eq {n : QueueNode W} (h : Accounts chain n finished crossed undelivered) :
    finished ++ crossed = chain.between chain.base.number
      (zoneCheckpoint chain.base n.imports).number := by
  have hblocks : chain.blocks =
      [] ++ ((finished ++ crossed) ++ (n.queue.pending ++ undelivered)) := by
    rw [h.blocks]
    simp only [append_assoc, nil_append]
  rw [h.covers.zoneCheckpoint_eq]
  exact (between_eq hblocks).symm

/-! ## The engine's import -/

theorem DepositQueue.operationalWork_front {q : DepositQueue W} {b : SealedL1Block W}
    {later : List (SealedL1Block W)} (hfront : q.pending = b :: later) :
    q.operationalWork b.header =
      .ok ((q.deferred.map (·.aggregatedBlock)).toList ++ [b.toL1BlockDeposits]) := by
  simp only [operationalWork, toPending, PendingDeposits.operationalWork, hfront, map_cons,
    ok_iff, exists_const, and_self]

theorem DepositQueue.front_of_operationalWork {q : DepositQueue W} {anchor : NumHash W}
    (h : q.operationalWork anchor = .ok work) :
    ∃ b later, q.pending = b :: later ∧ b.header = anchor := by
  unfold operationalWork toPending PendingDeposits.operationalWork at h
  cases hpending : q.pending with
  | nil =>
    rw [hpending] at h
    cases h
  | cons b later =>
    simp only [hpending, map_cons, ok_iff, exists_const] at h
    exact ⟨b, later, rfl, h.1⟩

namespace EngineNode

variable {l1 : FinalizedL1 K W} {spec : ZoneSchedule W} {me : K} {d : P2p.RecoveryDirective K W}
  {recovery : Option (P2p.RecoveryDirective K W)} {n n' : EngineNode K W} {front : SealedL1Block W}
  {headers : List (NumHash W)}

theorem Selected.cut {final : NumHash W}
    (h : n.Selected front headers) (hfinal : headers.getLast? = some final) :
    ∃ before b later, n.queue.pending = before ++ b :: later ∧
      n.queue.pending.take headers.length = before ++ [b] ∧ b.header = final := by
  obtain ⟨before, b, later, hsplit, hheader, rfl⟩ := split_of_headers h.2 hfinal
  refine ⟨before, b, later, hsplit, ?_, hheader⟩
  rw [hsplit, length_map, append_cons before b later, take_left]

theorem Safe.advance_checkpoints (h : Safe l1 d recovery me n) {front b : SealedL1Block W}
    {before later : List (SealedL1Block W)} (hsplit : n.queue.pending = before ++ b :: later)
    (hfinal : headers.getLast? = some b.header) :
    n.advance front headers = n.importing { n.queue with
      pending := later
      deferred := (before ++ [b]).foldl deferBlock n.queue.deferred } headers b.header := by
  rw [EngineNode.advance]
  simp only [hfinal]
  rw [deferThrough_split hsplit h.pending_ordered]

theorem advance_full {later : List (SealedL1Block W)} (hfront : n.queue.pending = front :: later) :
    n.advance front [] = n.importing { n.queue with pending := later, deferred := none }
      [front.header] front.header := by
  rw [EngineNode.advance]
  simp only [getLast?_nil, operationalWork_front hfront, confirmOperational_front hfront]

theorem Step.queue_cases (h : Safe l1 d recovery me n) (hstep : Step l1 spec me n n')
    (himports : n'.imports = n.imports) :
    (n'.queue = n.queue ∧ n'.delivered = n.delivered) ∨
      ∃ block rest, l1.chain.blocks = n.delivered ++ block :: rest ∧
        n'.queue = (n.queue.tryEnqueueSealed block).2 ∧ n'.delivered = n.delivered ++ [block] := by
  cases hstep with
  | fetch _ _
  | reconnect
  | poll _
  | peek _ _
  | nextAvailable _ _ _ _ _ _
  | checkFront _
  | checkHeader _
  | checkPause _
  | advanceFails _
  | recordApplied _
  | cancel _
  | startEngine _ => exact .inl ⟨rfl, rfl⟩
  | publishTransition hphase =>
    refine .inl ?_
    unfold EngineNode.publishTransition
    split
    · exact ⟨rfl, rfl⟩
    · split <;> exact ⟨rfl, rfl⟩
  | publishPause hphase =>
    refine .inl ?_
    unfold EngineNode.publishPause
    split
    · exact ⟨rfl, rfl⟩
    · split <;> exact ⟨rfl, rfl⟩
  | @enqueue block hphase =>
    have hpublished : n.Published l1 (.pausePublished block) := h.published hphase
    rcases h.enqueue_cases hpublished.1 with ⟨rest, hnext, henqueue⟩ | hsame
    · refine .inr ⟨block, rest, hnext, ?_⟩
      simp only [EngineNode.enqueue, henqueue, and_self]
    · rw [hsame]
      exact .inl ⟨rfl, rfl⟩
  | @advance front headers hphase =>
    -- an import that the engine has cleared always succeeds
    have hchecked : n.Checked l1 recovery me (.cleared front headers) := h.checked hphase
    cases hfinal : headers.getLast? with
    | some final =>
      obtain ⟨before, b, later, hsplit, -, rfl⟩ := hchecked.1.cut hfinal
      rw [h.advance_checkpoints hsplit hfinal] at himports
      simp [EngineNode.importing] at himports
    | none =>
      obtain ⟨later, hsplit⟩ := head?_eq_some_iff.1 hchecked.1.1
      rw [getLast?_eq_none_iff.1 hfinal, advance_full hsplit] at himports
      simp [EngineNode.importing] at himports

theorem Step.observed_ne (hstep : Step l1 spec me n n') (hne : n.leadership.observed ≠ []) :
    n'.leadership.observed ≠ [] := by
  cases hstep with
  | publishTransition hphase =>
    unfold EngineNode.publishTransition
    split
    · exact hne
    split
    · exact hne
    show (EngineNode.observe n.leadership _).observed ≠ []
    unfold EngineNode.observe
    split
    · exact hne
    · exact append_ne_nil_of_left_ne_nil hne _
  | publishPause hphase =>
    unfold EngineNode.publishPause
    split
    · exact hne
    · split <;> exact hne
  | enqueue hphase =>
    unfold EngineNode.enqueue
    split <;> exact hne
  | advance hphase =>
    unfold EngineNode.advance
    split
    · split <;> exact hne
    split
    · exact hne
    · split <;> exact hne
  | _ => exact hne

end EngineNode

/-! ## Authority -/

theorem P2p.TransitionHistory.reference_completed {h : P2p.TransitionHistory K}
    {d : P2p.RecoveryDirective K W} {r : P2p.LeadershipState K} {a : ℕ} (hr : r ∈ h.records)
    (hepoch : d.epoch ≤ r.epoch) (hactive : r.activationTempoBlock ≤ a) :
    h.reference (some d) a = h.reference (none : Option (P2p.RecoveryDirective K W)) a := by
  have hover : ¬ h.Recovering d a := by
    intro hrecovering
    have hlater := ((h.recovering_iff d a).1 hrecovering).2 r hr hepoch
    omega
  unfold P2p.TransitionHistory.reference
  exact if_neg hover

theorem P2p.TransitionHistory.mem_founded {h : P2p.TransitionHistory K} {r : P2p.LeadershipState K}
    (hr : r ∈ h.records) :
    ∃ r' ∈ h.founded.records, r'.epoch = r.epoch ∧
      r'.activationTempoBlock ≤ r.activationTempoBlock := by
  show ∃ r' ∈ P2p.clampFirst h.records, _
  cases hrecords : h.records with
  | nil =>
    rw [hrecords] at hr
    cases hr
  | cons first rest =>
    rw [hrecords] at hr
    rcases mem_cons.1 hr with rfl | hrest
    · exact ⟨_, mem_cons_self, rfl, zero_le _⟩
    · exact ⟨r, mem_cons_of_mem _ hrest, rfl, le_rfl⟩

namespace ZoneNetwork

def directive (net : ZoneNetwork K W) : Option (P2p.RecoveryDirective K W) :=
  if net.manifest then some net.recovery else none

end ZoneNetwork

namespace PeerNode

variable {net : ZoneNetwork K W} {me : K} {n n' : PeerNode K W}

theorem authority_of_provisioned {view : FinalizedL1 K W} {l : P2p.Node K W}
    (hleaders : view.leaders = net.l1.leaders)
    (hseeded : EngineNode.Seeded view.leaders net.recovery view.chain.base.number l)
    (hprovisioned : Provisioned net l) {a : ℕ} (ha : view.chain.base.number < a) :
    net.l1.leaders.founded.reference (l.directive net.recovery) a =
      net.l1.leaders.founded.reference net.directive a := by
  unfold Provisioned at hprovisioned
  unfold ZoneNetwork.directive P2p.Node.directive
  cases hmanifest : net.manifest with
  | false =>
    rw [hmanifest] at hprovisioned
    rw [show l.installed = false from hprovisioned]
  | true =>
    rw [hmanifest] at hprovisioned
    rcases hprovisioned with hinstalled | ⟨seed, hseed, hepoch⟩
    · rw [hinstalled]
    · -- the directive was skipped: the seed has its epoch and is active at the checkpoint
      have hmem : seed ∈ net.l1.leaders.records ∧
          seed.activationTempoBlock ≤ view.chain.base.number := by
        rw [← hleaders]
        cases hseeded with
        | fenced _ => cases hseed
        | snapshot hrecords hactive _
        | recovering hrecords hactive _ _ =>
          cases hseed
          rw [hrecords]
          exact ⟨by simp, hactive⟩
      obtain ⟨r, hr, hsame, hle⟩ := P2p.TransitionHistory.mem_founded hmem.1
      have hcompleted := P2p.TransitionHistory.reference_completed (d := net.recovery) (a := a) hr
        (by omega) (by omega)
      cases l.installed with
      | false => exact hcompleted.symm
      | true => rfl

/-! ## Invariant -/

/-- Queue, zone blocks and schedule of a node as the finalized chain and the zone's imports
determine them. -/
structure Synced (net : ZoneNetwork K W) (me : K) (n : PeerNode K W)
    (skipped finished crossed undelivered : List (SealedL1Block W)) : Prop where
  leaders : n.view.leaders = net.l1.leaders
  blocks : net.l1.chain.blocks = skipped ++ n.view.chain.blocks
  base : n.view.chain.base = lastOf net.l1.chain.base skipped
  safe : EngineNode.Safe n.view net.recovery (n.tasks.leadership.directive net.recovery) me n.tasks
  accounts : Accounts net.l1.chain ⟨n.tasks.queue, skipped ++ n.tasks.delivered, n.imports⟩
    finished crossed undelivered
  carried : List.Forall₂ (Carries K) n.zone n.imports
  following : n.following = true → n.tasks.leadership.observed ≠ [] ∧
    ∃ reason, n.tasks.engine = .exited reason
  authority : ∀ a, n.view.chain.base.number < a →
    net.l1.leaders.founded.reference (n.tasks.leadership.directive net.recovery) a =
      net.l1.leaders.founded.reference net.directive a

variable {skipped finished crossed undelivered : List (SealedL1Block W)}

theorem safe_directive {tasks : EngineNode K W} {recovery : Option (P2p.RecoveryDirective K W)}
    (h : EngineNode.Safe n.view net.recovery recovery me tasks) :
    EngineNode.Safe n.view net.recovery (tasks.leadership.directive net.recovery) me tasks := by
  rw [h.directive]
  exact h

theorem Synced.task (h : Synced net me n skipped finished crossed undelivered)
    {tasks : EngineNode K W} (hstep : EngineNode.Step n.view net.spec me n.tasks tasks)
    (himports : tasks.imports = n.tasks.imports)
    (hengine : n.following = true → tasks.engine = n.tasks.engine) :
    ∃ undelivered,
      Synced net me { n with tasks := tasks } skipped finished crossed undelivered := by
  have hsafe := h.safe.step hstep
  have hauthority : ∀ a, n.view.chain.base.number < a →
      net.l1.leaders.founded.reference (tasks.leadership.directive net.recovery) a =
        net.l1.leaders.founded.reference net.directive a := by
    intro a ha
    rw [hsafe.directive]
    exact h.authority a ha
  have hfollowing : n.following = true → tasks.leadership.observed ≠ [] ∧
      ∃ reason, tasks.engine = .exited reason := by
    intro hfollowing
    obtain ⟨hne, reason, hexited⟩ := h.following hfollowing
    exact ⟨hstep.observed_ne hne, reason, (hengine hfollowing).trans hexited⟩
  rcases hstep.queue_cases h.safe himports with
    ⟨hqueue, hdelivered⟩ | ⟨b, rest, hnext, hqueue, hdelivered⟩
  · refine ⟨undelivered, h.leaders, h.blocks, h.base, safe_directive hsafe, ?_, h.carried,
      hfollowing, hauthority⟩
    simp only [hqueue, hdelivered]
    exact h.accounts
  have hchain : net.l1.chain.blocks = (skipped ++ n.tasks.delivered) ++ b :: rest := by
    rw [h.blocks, hnext, append_assoc]
  refine ⟨rest, h.leaders, h.blocks, h.base, safe_directive hsafe, ?_, h.carried, hfollowing,
    hauthority⟩
  have hdeliver := h.accounts.deliver hchain
  simp only [hqueue, hdelivered]
  rw [append_assoc] at hdeliver
  exact hdeliver

/-! ## Imports on a queue -/

/-- A decoded import ends at a pending block; a full one is handed the work of the front block. -/
structure Fits (q : DepositQueue W) (before : List (SealedL1Block W)) (b : SealedL1Block W)
    (later : List (SealedL1Block W)) (decoded : DecodedTempoImport W) : Prop where
  pending : q.pending = before ++ b :: later
  anchor : ∃ last, decoded.headers.getLast? = some last ∧ last.toNumHash = b.header
  front : decoded.isFull = true → before = []

/-- The queue after an import: the blocks through its anchor are released by a full import and
deferred by a checkpoint-only one. -/
def nextQueue (q : DepositQueue W) (crossed before : List (SealedL1Block W)) (b : SealedL1Block W)
    (later : List (SealedL1Block W)) (full : Bool) : DepositQueue W :=
  { q with
    pending := later
    deferred := if full then none
      else (crossed ++ (before ++ [b])).foldl deferBlock none }

section Imports

variable {m : QueueNode W} {chain : L1Chain W} {before later : List (SealedL1Block W)}
  {b : SealedL1Block W} {decoded : DecodedTempoImport W}

theorem Fits.reconcile (hfits : Fits m.queue before b later decoded)
    (haccounts : Accounts chain m finished crossed undelivered) :
    decoded.reconcile m.queue b.header =
      (.ok (), nextQueue m.queue crossed before b later decoded.isFull) := by
  cases decoded with
  | full header deposits tokens =>
    have hfront := hfits.pending
    rw [hfits.front rfl, nil_append] at hfront
    exact haccounts.confirmOperationalThrough_front hfront
  | checkpointOnly headers => exact haccounts.deferThrough_pending hfits.pending

theorem Fits.accounts (hfits : Fits m.queue before b later decoded)
    (haccounts : Accounts chain m finished crossed undelivered) {i : ZoneImport W}
    (hkind : (decoded.isFull, b.header) = i.kind)
    (hwork : decoded.isFull = true → m.queue.operationalWork b.header = .ok i.work) :
    ∃ finished' crossed', Accounts chain
      { m with queue := nextQueue m.queue crossed before b later decoded.isFull
               imports := m.imports ++ [i] } finished' crossed' undelivered := by
  cases decoded with
  | full header deposits tokens =>
    have hfront := hfits.pending
    rw [hfits.front rfl, nil_append] at hfront
    cases i with
    | checkpointOnly anchor => cases hkind
    | full anchor work =>
      cases hkind
      exact ⟨_, _, haccounts.fullImport hfront (hwork rfl)⟩
  | checkpointOnly headers =>
    cases i with
    | checkpointOnly anchor =>
      cases hkind
      have himport := haccounts.checkpointImport hfits.pending
      rw [haccounts.deferThrough_pending hfits.pending] at himport
      exact ⟨_, _, himport⟩
    | full anchor work => cases hkind

end Imports

/-! ## What a leader builds -/

variable {block : PeerBlock W}

theorem decode_headers {call : InboxCall W} {headers : List (SealedHeader W)}
    (hbuilt : n.Builds net call block) (hcall : call = .advanceTempoHeaders headers)
    (hlength : headers.length ≤ MAX_TEMPO_HEADERS_PER_ZONE_BLOCK) :
    decodeAdvanceTempo K block = .ok (.checkpointOnly headers) := by
  obtain ⟨rest, htransactions, honly⟩ := hbuilt.opening
  rw [hcall] at htransactions
  rw [decodeAdvanceTempo, htransactions]
  simp only [systemTransaction, ok_iff, exists_const, true_and, and_true]
  exact ⟨honly headers hcall, hlength⟩

theorem decode_full {deposits : List AbiQueuedDeposit} {tokens : List EnabledToken}
    (hbuilt : n.Builds net (.advanceTempo header deposits tokens) block) :
    decodeAdvanceTempo K block = .ok (.full header deposits tokens) := by
  obtain ⟨rest, htransactions, -⟩ := hbuilt.opening
  rw [decodeAdvanceTempo, htransactions]
  simp only [systemTransaction, ok_iff, exists_const, and_self]

/-- What a leader puts into a block: the pending blocks through an anchor that it leads, with the
work of the front block when the import is full. -/
structure Built (net : ZoneNetwork K W) (me : K) (n : PeerNode K W) (released : ZoneImport W)
    (before : List (SealedL1Block W)) (b : SealedL1Block W) (later : List (SealedL1Block W))
    (decoded : DecodedTempoImport W) : Prop where
  fits : Fits n.tasks.queue before b later decoded
  headers : decoded.headers = (before ++ [b]).map sealedHeader
  kind : (decoded.isFull, b.header) = released.kind
  work : decoded.isFull = true → n.tasks.queue.operationalWork b.header = .ok released.work
  inputs : ∀ header deposits tokens, decoded = .full header deposits tokens →
    deposits.map toQueuedDeposit =
        (workEvents released.work).deposits.map net.preparer.toAbiQueuedDeposit ∧
      tokens = (workEvents released.work).enabledTokens
  rightful : ∀ x ∈ before ++ [b],
    Rightful n.view.leaders (n.tasks.leadership.directive net.recovery) me x.number

variable {front : SealedL1Block W} {headers : List (NumHash W)}
variable {b : SealedL1Block W}

section

variable (h : Synced net me n skipped finished crossed undelivered)
include h

theorem Synced.built {call : InboxCall W} {released : ZoneImport W}
    (hphase : n.tasks.engine = .cleared front headers)
    (himport : n.buildTempoImport net front headers = .ok (call, released))
    (hbuilt : n.Builds net call block) :
    ∃ before b later decoded imported, decodeAdvanceTempo K block = .ok decoded ∧
      Built net me n released before b later decoded ∧
      n.tasks.advance front headers = n.tasks.importing
        (nextQueue n.tasks.queue crossed before b later decoded.isFull) imported b.header := by
  have hchecked : n.tasks.Checked n.view _ me (.cleared front headers) := h.safe.checked hphase
  obtain ⟨hselected, hfront, hheaders⟩ := hchecked
  unfold buildTempoImport at himport
  cases hfinal : headers.getLast? with
  | some final =>
    -- checkpoints only: the imported headers are a prefix of the queue
    simp only [hfinal] at himport
    split at himport
    · next hlength =>
      cases himport
      obtain ⟨before, b, later, hsplit, hcut, rfl⟩ := hselected.cut hfinal
      rw [hcut] at hbuilt
      have hlength' : ((before ++ [b]).map sealedHeader).length ≤
          MAX_TEMPO_HEADERS_PER_ZONE_BLOCK := by
        rw [← hcut, length_map, length_take]
        omega
      refine ⟨before, b, later, _, headers, decode_headers hbuilt rfl hlength', ?_, ?_⟩
      · have hpartial : DecodedTempoImport.isFull (W := W) (.checkpointOnly
            ((before ++ [b]).map sealedHeader)) ≠ true := Bool.false_ne_true
        refine ⟨⟨hsplit, ⟨b.sealedHeader, ?_, rfl⟩, fun hfull => absurd hfull hpartial⟩, rfl, rfl,
          fun hfull => absurd hfull hpartial, (by rintro _ _ _ ⟨⟩), fun x hx => ?_⟩
        · rw [DecodedTempoImport.headers, map_append]
          exact getLast?_concat
        have hprefix : x.header ∈ headers := by
          have htake : headers = (n.tasks.queue.pending.take headers.length).map (·.header) := by
            rw [map_take]
            exact prefix_iff_eq_take.1 hselected.2
          rw [htake, hcut]
          exact mem_map_of_mem hx
        exact (hheaders x.header hprefix).1
      · rw [h.safe.advance_checkpoints hsplit hfinal, h.accounts.deferred, ← foldl_append]
        rfl
    · cases himport
  | none =>
    -- a full import: the front block with all the work that is owed
    have hempty := getLast?_eq_none_iff.1 hfinal
    obtain ⟨later, hsplit⟩ := head?_eq_some_iff.1 hselected.1
    simp only [hfinal, ok_iff, Prod.mk.injEq] at himport
    obtain ⟨work, hwork, prepared, hprepared, rfl, rfl⟩ := himport
    obtain ⟨hdeposits, htokens⟩ := Preparer.prepareMany_ok hprepared
    refine ⟨[], front, later, _, [front.header], decode_full hbuilt, ?_, ?_⟩
    · refine ⟨⟨hsplit, ⟨front.sealedHeader, rfl, rfl⟩, fun _ => rfl⟩, rfl, rfl, fun _ => hwork, ?_,
        fun x hx => ?_⟩
      · intro header deposits tokens heq
        cases heq
        refine ⟨?_, htokens⟩
        show _ = (workEvents work).deposits.map net.preparer.toAbiQueuedDeposit
        rw [map_map, ← hdeposits]
        exact map_id _
      · rw [mem_singleton.1 hx]
        exact hfront.1
    · rw [hempty, EngineNode.advance_full hsplit]
      rfl

theorem Synced.produce {call : InboxCall W} {released : ZoneImport W}
    (hphase : n.tasks.engine = .cleared front headers)
    (himport : n.buildTempoImport net front headers = .ok (call, released))
    (hbuilt : n.Builds net call block) :
    ∃ finished crossed, Synced net me (n.produced front headers block released) skipped finished
      crossed undelivered := by
  obtain ⟨before, b, later, decoded, imported, hdecoded, hbuild, hadvance⟩ :=
    h.built hphase himport hbuilt
  obtain ⟨finished', crossed', haccounts⟩ := hbuild.fits.accounts h.accounts hbuild.kind hbuild.work
  obtain ⟨last, hlast, hanchor⟩ := hbuild.fits.anchor
  have hsafe := h.safe.advance hphase
  have hleadership : (n.tasks.advance front headers).leadership = n.tasks.leadership := by
    rw [hadvance]
    rfl
  refine ⟨finished', crossed', h.leaders, h.blocks, h.base, safe_directive hsafe, ?_, ?_, ?_, ?_⟩
  · simp only [produced, hadvance]
    exact haccounts
  · refine rel_append h.carried (List.Forall₂.cons ⟨decoded, last, hdecoded, hlast, ?_⟩ .nil)
    rw [hanchor]
    exact hbuild.kind
  · intro hfollowing
    obtain ⟨-, reason, hexited⟩ := h.following hfollowing
    rw [hphase] at hexited
    cases hexited
  intro a ha
  simp only [produced, hleadership]
  exact h.authority a ha

/-! ## What a follower accepts -/

theorem Synced.split_consumed :
    net.l1.chain.blocks = (finished ++ crossed) ++ (n.tasks.queue.pending ++ undelivered) := by
  rw [h.accounts.blocks, append_assoc]

theorem Synced.checkpoint_eq : n.checkpoint net = lastOf net.l1.chain.base (finished ++ crossed) :=
  h.accounts.covers.zoneCheckpoint_eq net.l1.chain.base

theorem Synced.checkpoint_lt : (n.checkpoint net).number + 1 < 2 ^ 64 := by
  rw [h.checkpoint_eq]
  rcases eq_nil_or_concat (finished ++ crossed) with hnil | ⟨front, last, hconcat⟩
  · rw [hnil]
    exact net.base_lt
  have hlast : last ∈ net.l1.chain.blocks := by
    rw [h.accounts.blocks, ← append_assoc, hconcat]
    simp
  rw [hconcat, concat_eq_append, lastOf_concat]
  exact net.height_lt last hlast

theorem Synced.mem_pending (hb : b ∈ n.tasks.delivered)
    (habove : (n.checkpoint net).number < b.number) : b ∈ n.tasks.queue.pending := by
  have hmem : b ∈ (finished ++ crossed) ++ n.tasks.queue.pending := by
    rw [append_assoc, ← h.accounts.delivered]
    exact mem_append_right _ hb
  rcases mem_append.1 hmem with hconsumed | hpending
  · have hle := (lastOf_bounds h.split_consumed).1 b hconsumed
    rw [h.checkpoint_eq] at habove
    omega
  · exact hpending

end

variable {env : ImportEnv} {sender : Option K} {decoded : DecodedTempoImport W}

theorem validatePeerBlock_ok {anchor : NumHash W}
    (h : n.validatePeerBlock net env sender block decoded = .ok (.inr anchor)) :
    ∃ last, decoded.headers.getLast? = some last ∧ last.toNumHash = anchor ∧
      checkRange K (n.checkpoint net) decoded.headers = .ok () ∧
      (∃ b ∈ n.tasks.delivered, b.header = anchor) ∧
      n.validatePortalInputs net anchor decoded = .ok () := by
  simp only [validatePeerBlock, validateL1CheckpointRange, ok_iff, exists_const] at h
  obtain ⟨-, _, ⟨-, hrange⟩, h⟩ := h
  split at h
  · next first last hfirst hlast =>
    simp only [bind_ok_iff] at h
    obtain ⟨waited, hwaited, h⟩ := h
    cases waited with
    | some outcome => cases h
    | none =>
      simp only [bind_ok_iff] at h
      obtain ⟨_, -, _, hinputs, h⟩ := h
      cases h
      refine ⟨last, hlast, rfl, hrange, ?_, hinputs⟩
      unfold waitForPeerAnchor at hwaited
      split at hwaited
      · cases hwaited
      split at hwaited
      · cases hwaited
      · next observed hfind =>
        split at hwaited
        · next hhash =>
          have hnumber := find?_some hfind
          rw [decide_eq_true_eq] at hnumber
          refine ⟨observed, mem_of_find?_eq_some hfind, ?_⟩
          cases hheader : observed.header with
          | mk number hash =>
            rw [SealedL1Block.number, hheader] at hnumber
            rw [hheader] at hhash
            rw [show number = last.number from hnumber, show hash = last.hash from hhash]
        · cases hwaited
  · cases h

theorem validatePeerBlock_outcome {outcome : ImportOutcome W}
    (h : n.validatePeerBlock net env sender block decoded = .ok (.inl outcome)) :
    outcome ≠ .imported := by
  simp only [validatePeerBlock, bind_ok_iff] at h
  obtain ⟨_, -, _, -, h⟩ := h
  split at h
  · next first last hfirst hlast =>
    simp only [bind_ok_iff] at h
    obtain ⟨waited, hwaited, h⟩ := h
    cases waited with
    | some ended =>
      cases h
      unfold waitForPeerAnchor at hwaited
      split at hwaited
      · cases hwaited
        simp
      split at hwaited
      · cases hwaited
        simp
      · split at hwaited <;> cases hwaited
    | none =>
      simp only [bind_ok_iff] at h
      obtain ⟨_, -, _, -, h⟩ := h
      cases h
  · cases h

theorem Synced.fits_of_valid (h : Synced net me n skipped finished crossed undelivered)
    {anchor : NumHash W}
    (hvalid : n.validatePeerBlock net env sender block decoded = .ok (.inr anchor)) :
    ∃ before b later, Fits n.tasks.queue before b later decoded ∧ b.header = anchor ∧
      n.validatePortalInputs net anchor decoded = .ok () := by
  obtain ⟨last, hlast, rfl, hrange, ⟨b, hdelivered, hheader⟩, hinputs⟩ :=
    validatePeerBlock_ok hvalid
  have habove : (n.checkpoint net).number < b.number := by
    have hlt := checkRange_above hrange h.checkpoint_lt last (mem_of_getLast? hlast)
    rw [show b.number = b.header.number from rfl, hheader]
    exact hlt
  have hpending := h.mem_pending hdelivered habove
  cases decoded with
  | checkpointOnly headers =>
    obtain ⟨before, later, hsplit⟩ := append_of_mem hpending
    exact ⟨before, b, later, ⟨hsplit, ⟨last, hlast, hheader.symm⟩,
      fun hfull => absurd hfull Bool.false_ne_true⟩, hheader, hinputs⟩
  | full header deposits tokens =>
    obtain ⟨work, hwork, -⟩ := validateFullPortalInputs_ok_iff.1 hinputs
    obtain ⟨front, later, hfront, hanchor⟩ := front_of_operationalWork hwork
    exact ⟨[], front, later, ⟨hfront, ⟨last, hlast, hanchor.symm⟩, fun _ => rfl⟩, hanchor, hinputs⟩

variable {before later : List (SealedL1Block W)}

theorem Synced.imported (h : Synced net me n skipped finished crossed undelivered)
    (hfollowing : n.following = true) (hdecoded : decodeAdvanceTempo K block = .ok decoded)
    (hfits : Fits n.tasks.queue before b later decoded) :
    (n.imported block decoded b.header).1 = .ok .imported ∧
      (n.imported block decoded b.header).2.tasks.queue =
        nextQueue n.tasks.queue crossed before b later decoded.isFull ∧
      ∃ finished crossed, Synced net me (n.imported block decoded b.header).2 skipped finished
        crossed undelivered := by
  obtain ⟨hne, reason, hexited⟩ := h.following hfollowing
  have hreconcile := hfits.reconcile h.accounts
  have hkind : (decoded.isFull, b.header) = (n.importOf b.header decoded).kind := by
    cases decoded <;> rfl
  have hwork : decoded.isFull = true →
      n.tasks.queue.operationalWork b.header = .ok (n.importOf b.header decoded).work := by
    intro hfull
    cases decoded with
    | checkpointOnly headers => cases hfull
    | full header deposits tokens =>
      have hfront := hfits.pending
      rw [hfits.front rfl, nil_append] at hfront
      simp only [importOf, work, operationalWork_front hfront]
      rfl
  obtain ⟨finished', crossed', haccounts⟩ := hfits.accounts h.accounts hkind hwork
  obtain ⟨last, hlast, hanchor⟩ := hfits.anchor
  have hpending : (nextQueue n.tasks.queue crossed before b later decoded.isFull).pending = later :=
    rfl
  have hlastEnqueued :
      (nextQueue n.tasks.queue crossed before b later decoded.isFull).lastEnqueued =
        n.tasks.queue.lastEnqueued := rfl
  -- consume the queue, record the anchor, and return to the phase of a stopped engine
  have hconsumed := h.safe.consume hfits.pending hpending hlastEnqueued h.safe.imports (.inr rfl)
  have hrecorded := (hconsumed.recordApplied rfl).withEngine
    (show EngineNode.Checked n.view _ me _ (.exited reason) from trivial)
  simp only [PeerNode.imported, hreconcile, true_and]
  refine ⟨finished', crossed', h.leaders, h.blocks, h.base, ?_, haccounts, ?_, ?_, ?_⟩
  · have hsafe := safe_directive hrecorded
    rw [← hexited] at hsafe
    exact hsafe
  · refine rel_append h.carried (List.Forall₂.cons ⟨decoded, last, hdecoded, hlast, ?_⟩ .nil)
    rw [hanchor]
    exact hkind
  · exact fun _ => ⟨hne, reason, hexited⟩
  · exact h.authority

theorem exists_carried (h : List.Forall₂ (Carries K) zone imports) (hmem : block ∈ zone) :
    ∃ i ∈ imports, Carries K block i := by
  induction h with
  | nil => cases hmem
  | cons hcarries _ ih =>
    rcases mem_cons.1 hmem with rfl | hrest
    · exact ⟨_, mem_cons_self, hcarries⟩
    · obtain ⟨i, hi, hcarries⟩ := ih hrest
      exact ⟨i, mem_cons_of_mem _ hi, hcarries⟩

theorem Synced.importDuplicate (h : Synced net me n skipped finished crossed undelivered)
    (hdecoded : decodeAdvanceTempo K block = .ok decoded) :
    (n.importDuplicate net block decoded).2 = n := by
  unfold PeerNode.importDuplicate
  split
  · rfl
  split
  · rfl
  split
  · rfl
  · next hmem =>
    obtain ⟨i, hi, decoded', last, hdecoded', hlast, hkind⟩ :=
      exists_carried h.carried (not_not.1 hmem)
    rw [hdecoded] at hdecoded'
    cases hdecoded'
    have hreconcile : decoded.reconcile n.tasks.queue last.toNumHash =
        i.reconcile n.tasks.queue := by
      cases decoded <;> cases i <;> cases hkind <;> rfl
    have hqueue : (i.reconcile n.tasks.queue).2 = n.tasks.queue := h.accounts.reconcile_old hi
    simp only [hlast, hreconcile]
    split
    · next e queue hresult =>
      rw [hresult] at hqueue
      obtain rfl : queue = n.tasks.queue := hqueue
      rfl
    · next queue hresult =>
      rw [hresult] at hqueue
      obtain rfl : queue = n.tasks.queue := hqueue
      rfl

theorem Synced.receive (h : Synced net me n skipped finished crossed undelivered)
    (hfollowing : n.following = true) (env : ImportEnv) (sender : Option K) (block : PeerBlock W) :
    ∃ finished crossed, Synced net me (n.importPeerBlock net env sender block).2 skipped finished
      crossed undelivered := by
  unfold PeerNode.importPeerBlock
  split
  · exact ⟨_, _, h⟩
  · next decoded hdecoded =>
    split
    · rw [h.importDuplicate hdecoded]
      exact ⟨_, _, h⟩
    split
    · exact ⟨_, _, h⟩
    split
    · exact ⟨_, _, h⟩
    · exact ⟨_, _, h⟩
    · next anchor hvalid =>
      split
      · obtain ⟨before, b, later, hfits, rfl, -⟩ := h.fits_of_valid hvalid
        exact (h.imported hfollowing hdecoded hfits).2.2
      · exact ⟨_, _, h⟩

/-! ## Runs -/

theorem Synced.of_starts (hcovers : Covers imports finished crossed)
    (hchain : net.l1.chain.blocks = finished ++ (crossed ++ rest))
    (hcarried : List.Forall₂ (Carries K) zone imports) (hstart : Starts net zone imports n) :
    ∃ skipped, Synced net me n skipped finished crossed rest := by
  obtain ⟨skipped, hblocks, hlast⟩ := hstart.view.blocks
  have hskipped : net.l1.chain.between net.l1.chain.base.number
      (zoneCheckpoint net.l1.chain.base imports).number = skipped := by
    have hall : net.l1.chain.blocks = [] ++ (skipped ++ n.view.chain.blocks) := hblocks
    rw [← hlast]
    exact between_eq hall
  have haccounts := Accounts.restart hcovers hchain
  rw [hskipped] at haccounts
  refine ⟨skipped, hstart.view.leaders, hblocks, hstart.view.base.trans hlast.symm,
    .start hstart.start, ?_, ?_, ?_, ?_⟩
  · rw [hstart.start.delivered, hstart.queue, hstart.imports, append_nil]
    exact haccounts
  · rw [hstart.zone, hstart.imports]
    exact hcarried
  · intro hfollowing
    rw [hstart.following] at hfollowing
    cases hfollowing
  · intro a ha
    exact authority_of_provisioned hstart.view.leaders hstart.start.leadership hstart.provisioned ha

theorem Synced.step (h : Synced net me n skipped finished crossed undelivered)
    (hstep : Step net me n n') :
    ∃ skipped finished crossed undelivered,
      Synced net me n' skipped finished crossed undelivered := by
  cases hstep with
  | task hstep himports hengine =>
    obtain ⟨undelivered', h'⟩ := h.task hstep himports hengine
    exact ⟨_, _, _, _, h'⟩
  | produce hphase himport hbuilt =>
    obtain ⟨finished', crossed', h'⟩ := h.produce hphase himport hbuilt
    exact ⟨_, _, _, _, h'⟩
  | follow hphase hleader _ =>
    exact ⟨_, _, _, _, { h with
      following := fun _ => ⟨h.safe.observed_ne hleader, _, hphase⟩ }⟩
  | unfollow => exact ⟨_, _, _, _, { h with following := nofun }⟩
  | receive env sender block hfollowing =>
    obtain ⟨finished', crossed', h'⟩ := h.receive hfollowing env sender block
    exact ⟨_, _, _, _, h'⟩
  | @restart kept lost n' hkept hstart =>
    obtain ⟨f, c, later, hcovers, hblocks⟩ := h.accounts.covers.of_append hkept
    have hchain : net.l1.chain.blocks =
        f ++ (c ++ (later ++ (n.tasks.queue.pending ++ undelivered))) := by
      rw [h.accounts.blocks, ← append_assoc, hblocks]
      simp only [append_assoc]
    have hcarried : List.Forall₂ (Carries K) (n.zone.take kept.length) kept := by
      have hall := h.carried
      rw [hkept] at hall
      exact forall₂_take_append _ _ _ hall
    obtain ⟨skipped', h'⟩ := Synced.of_starts hcovers hchain hcarried hstart
    exact ⟨_, _, _, _, h'⟩

theorem Synced.of_reached (h : Reached net me n) : ∃ skipped finished crossed undelivered,
      Synced net me n skipped finished crossed undelivered := by
  obtain ⟨n₀, hstart, hrun⟩ := h
  induction hrun with
  | refl =>
    have hstarted : ∃ skipped, Synced net me n₀ skipped [] [] net.l1.chain.blocks :=
      Synced.of_starts .start rfl .nil hstart
    obtain ⟨skipped, h⟩ := hstarted
    exact ⟨_, _, _, _, h⟩
  | tail _ hstep ih =>
    obtain ⟨_, _, _, _, h⟩ := ih
    exact h.step hstep

/-! ## Agreement -/

theorem ZoneImport.kind_anchor (i : ZoneImport W) : i.kind.2 = i.anchor := by
  cases i <;> rfl

/-- A queue that holds the blocks after the consumed ones splits at a block that was delivered as
any other such queue does. -/
theorem split_delivered {before later pending undelivered : List (SealedL1Block W)}
    (hblocks : pending ++ undelivered = (before ++ b :: later) ++ rest) (hb : b ∉ undelivered) :
    ∃ later', pending = before ++ b :: later' ∧ later' ++ undelivered = later ++ rest := by
  rw [append_assoc, cons_append] at hblocks
  rcases append_eq_append_iff.1 hblocks with ⟨c, hbefore, hundelivered⟩ | ⟨c, hpending, hrest⟩
  · exact absurd (by rw [hundelivered]; simp) hb
  · cases c with
    | nil =>
      rw [nil_append] at hrest
      exact absurd (by rw [← hrest]; exact mem_cons_self) hb
    | cons x c =>
      rw [cons_append, cons.injEq] at hrest
      obtain ⟨rfl, hrest⟩ := hrest
      exact ⟨c, hpending, hrest.symm⟩

structure SameZone (net : ZoneNetwork K W) (L F : PeerNode K W)
    (finished crossed undelivered finished' crossed' undelivered' : List (SealedL1Block W)) :
    Prop where
  crossed_eq : crossed' = crossed
  consumed_eq : finished' ++ crossed' = finished ++ crossed
  rest_eq : F.tasks.queue.pending ++ undelivered' = L.tasks.queue.pending ++ undelivered
  deferred_eq : F.tasks.queue.deferred = L.tasks.queue.deferred

variable {leader follower : K} {L F : PeerNode K W}
  {skipped' finished' crossed' undelivered' : List (SealedL1Block W)}

theorem Synced.sameZone (hL : Synced net leader L skipped finished crossed undelivered)
    (hF : Synced net follower F skipped' finished' crossed' undelivered')
    (hzone : F.zone = L.zone) :
    SameZone net L F finished crossed undelivered finished' crossed' undelivered' := by
  have hcarried := hF.carried
  rw [hzone] at hcarried
  have hkinds := kinds_of_carries hcarried hL.carried
  have hcheckpoint : zoneCheckpoint net.l1.chain.base F.imports =
      zoneCheckpoint net.l1.chain.base L.imports := by
    rw [zoneCheckpoint_eq_kinds, zoneCheckpoint_eq_kinds, hkinds]
  have hoperational : lastOperational net.l1.chain.base.number F.imports =
      lastOperational net.l1.chain.base.number L.imports := by
    rw [lastOperational_eq_kinds, lastOperational_eq_kinds, hkinds]
  have hcrossed : crossed' = crossed := by
    rw [hF.accounts.crossed_eq, hL.accounts.crossed_eq]
    simp only [hcheckpoint, hoperational]
  have hconsumed : finished' ++ crossed' = finished ++ crossed := by
    rw [hF.accounts.consumed_eq, hL.accounts.consumed_eq]
    simp only [hcheckpoint]
  refine ⟨hcrossed, hconsumed, ?_, ?_⟩
  · have hblocks := hF.split_consumed.symm.trans hL.split_consumed
    rw [hconsumed] at hblocks
    exact append_cancel_left hblocks
  have hdeferred := hF.accounts.deferred
  rw [hcrossed, ← hL.accounts.deferred] at hdeferred
  exact hdeferred

theorem Synced.waitForPeerAnchor_pending (h : Synced net me n skipped finished crossed undelivered)
    (hrunning : env.stopped = false) (block : PeerBlock W) (hb : b ∈ n.tasks.queue.pending) :
    n.waitForPeerAnchor env block b.header = .ok none := by
  have hdelivered := h.safe.mem_delivered hb
  have hmem : ∀ x ∈ n.tasks.delivered, x ∈ net.l1.chain.blocks := by
    intro x hx
    rw [h.accounts.blocks_delivered]
    exact mem_append_left _ (mem_append_right _ hx)
  cases hfind : n.tasks.delivered.find? fun x => decide (x.number = b.header.number) with
  | none =>
    have hother := find?_eq_none.1 hfind b hdelivered
    simp [number] at hother
  | some observed =>
    have hnumber := find?_some hfind
    rw [decide_eq_true_eq] at hnumber
    have hsame : observed = b := number_inj
      (hmem observed (mem_of_find?_eq_some hfind)) (hmem b hdelivered) hnumber
    simp only [waitForPeerAnchor, hrunning, Bool.false_eq_true, if_false, hfind, hsame, if_true]

theorem Synced.sender_accepted (hL : Synced net leader L skipped finished crossed undelivered)
    (hF : Synced net follower F skipped' finished' crossed' undelivered')
    (hfollowing : F.following = true) (hb : b ∈ L.tasks.queue.pending)
    (hb' : b ∈ F.tasks.queue.pending)
    (hrightful : Rightful L.view.leaders (L.tasks.leadership.directive net.recovery) leader
      b.number)
    (hsender : sender = none ∨ sender = some leader) :
    validateLiveBlockSender F.tasks.leadership.schedule sender b.number = .ok () := by
  rcases hsender with rfl | rfl
  · rfl
  obtain ⟨epoch, hauthority, -⟩ := hrightful
  have habove := (hL.safe.delivered_bounds (hL.safe.mem_delivered hb)).1
  have habove' := (hF.safe.delivered_bounds (hF.safe.mem_delivered hb')).1
  have hleader := (hF.safe.leaderFor_pending hb' (hF.following hfollowing).1).1
  rw [hL.leaders, hL.authority _ habove] at hauthority
  rw [hF.leaders, hF.authority _ habove', hauthority] at hleader
  obtain ⟨record, hrecord, hsame⟩ := Option.map_eq_some_iff.1 hleader
  simp only [P2p.LeadershipState.authority, Prod.mk.injEq] at hsame
  simp only [validateLiveBlockSender, hrecord, hsame.2, if_true]

theorem Synced.lastEnqueued_eq (h : Synced net me n skipped finished crossed undelivered)
    (hlast : n.tasks.queue.lastEnqueued = some last) :
    lastOf net.l1.chain.base (skipped ++ n.tasks.delivered) = last := by
  rcases h.accounts.lastEnqueued with ⟨hnone, -, -⟩ | hsome
  · rw [show n.tasks.queue.lastEnqueued = none from hnone] at hlast
    cases hlast
  · rw [show n.tasks.queue.lastEnqueued = _ from hsome] at hlast
    exact Option.some.inj hlast

theorem Synced.not_mem_undelivered (h : Synced net me n skipped finished crossed undelivered)
    (hlast : n.tasks.queue.lastEnqueued = some last) (hreached : b.number ≤ last.number) :
    b ∉ undelivered := by
  intro hb
  have hlt := (lastOf_bounds h.accounts.blocks_delivered).2 b hb
  rw [h.lastEnqueued_eq hlast] at hlt
  omega

theorem Synced.pending_eq (hL : Synced net leader L skipped finished crossed undelivered)
    (hF : Synced net follower F skipped' finished' crossed' undelivered') (hzone : F.zone = L.zone)
    (hlast : L.tasks.queue.lastEnqueued = some last)
    (hlast' : F.tasks.queue.lastEnqueued = some last) :
    F.tasks.queue.pending = L.tasks.queue.pending := by
  have hconsumed := (hL.sameZone hF hzone).consumed_eq
  have hdelivered : skipped' ++ F.tasks.delivered = skipped ++ L.tasks.delivered := by
    have hblocks : net.l1.chain.blocks = [] ++ ((skipped ++ L.tasks.delivered) ++ undelivered) :=
      hL.accounts.blocks_delivered
    have hblocks' : net.l1.chain.blocks = [] ++ ((skipped' ++ F.tasks.delivered) ++ undelivered') :=
      hF.accounts.blocks_delivered
    rw [← between_eq hblocks, ← between_eq hblocks', nil_append,
      nil_append, hL.lastEnqueued_eq hlast, hF.lastEnqueued_eq hlast']
  have hsplit := hF.accounts.delivered.symm.trans (hdelivered.trans hL.accounts.delivered)
  rw [← append_assoc, ← append_assoc, hconsumed] at hsplit
  exact append_cancel_left hsplit

theorem Synced.after_anchor (h : Synced net me n skipped finished crossed undelivered)
    (hsplit : n.tasks.queue.pending = before ++ b :: later) :
    net.l1.chain.blocks.filter (fun x => decide (b.number < x.number)) = later ++ undelivered := by
  have hblocks : net.l1.chain.blocks =
      (finished ++ crossed ++ before ++ [b]) ++ (later ++ undelivered) := by
    rw [h.split_consumed, hsplit]
    simp only [append_assoc, cons_append, nil_append]
  obtain ⟨hbelow, habove⟩ := lastOf_bounds hblocks
  rw [lastOf_concat] at hbelow habove
  rw [hblocks, filter_append, filter_eq_nil_iff.2, filter_eq_self.2, nil_append]
  · intro x hx
    exact decide_eq_true (habove x hx)
  · intro x hx hlt
    exact absurd (of_decide_eq_true hlt) (not_lt.2 (hbelow x hx))

/-- The checks of a follower on what a leader with the same zone blocks has built. -/
structure Accepts (net : ZoneNetwork K W) (F : PeerNode K W) (env : ImportEnv) (sender : Option K)
    (block : PeerBlock W) (anchor : NumHash W) (decoded : DecodedTempoImport W) : Prop where
  decodes : decodeAdvanceTempo K block = .ok decoded
  count : decoded.headers.length ≤ MAX_TEMPO_HEADERS_PER_ZONE_BLOCK
  range : validateL1CheckpointRange K decoded.headers (F.checkpoint net) = .ok ()
  governed : ∀ first ∈ decoded.headers.head?,
    validateLiveBlockSender F.tasks.leadership.schedule sender first.number = .ok ()
  inputs : F.validatePortalInputs net anchor decoded = .ok ()
  valid : F.validatePeerBlock net env sender block decoded = .ok (.inr anchor)

theorem decoded_count (h : decodeAdvanceTempo K block = .ok decoded) :
    decoded.headers.length ≤ MAX_TEMPO_HEADERS_PER_ZONE_BLOCK := by
  unfold decodeAdvanceTempo at h
  split at h
  · cases h
  · cases h
  · next system target input rest htransactions =>
    simp only [ok_iff, exists_const] at h
    obtain ⟨-, -, h⟩ := h
    cases input with
    | advanceTempo header deposits tokens =>
      cases pure_ok_iff.1 h
      show 1 ≤ MAX_TEMPO_HEADERS_PER_ZONE_BLOCK
      decide
    | advanceTempoHeaders headers =>
      simp only [ok_iff, exists_const] at h
      obtain ⟨-, hlength, rfl⟩ := h
      exact hlength
    | undecodable => cases h

theorem Synced.accepts (hL : Synced net leader L skipped finished crossed undelivered)
    (hF : Synced net follower F skipped' finished' crossed' undelivered') (hzone : F.zone = L.zone)
    (hfollowing : F.following = true) {released : ZoneImport W} {call : InboxCall W}
    {before later later' : List (SealedL1Block W)} (hbuilt : L.Builds net call block)
    (hdecoded : decodeAdvanceTempo K block = .ok decoded)
    (hbuild : Built net leader L released before b later decoded)
    (hsplit : F.tasks.queue.pending = before ++ b :: later')
    (hsender : sender = none ∨ sender = some leader) (hrunning : env.stopped = false) :
    Accepts net F env sender block b.header decoded := by
  have hsame := hL.sameZone hF hzone
  have hhead : F.head net = L.head net := by
    rw [head, hzone]
    rfl
  -- the imported headers continue the follower's checkpoint on the L1 chain
  have hrange : validateL1CheckpointRange K decoded.headers (F.checkpoint net) = .ok () := by
    have hblocks : net.l1.chain.blocks =
        (finished' ++ crossed') ++ ((before ++ [b]) ++ (later' ++ undelivered')) := by
      rw [hF.split_consumed, hsplit]
      simp only [append_assoc, cons_append, nil_append]
    rw [validateL1CheckpointRange, bind_ok_iff, hbuild.headers, hF.checkpoint_eq]
    exact ⟨(), require_ok_iff.2 (by simp), checkRange_linked hblocks⟩
  have hsenders : ∀ first ∈ decoded.headers.head?,
      validateLiveBlockSender F.tasks.leadership.schedule sender first.number = .ok () := by
    intro first hfirst
    rw [hbuild.headers, head?_map] at hfirst
    obtain ⟨x, hx, rfl⟩ := Option.map_eq_some_iff.1 hfirst
    have hmem := mem_of_mem_head? hx
    have hpending : ∀ {pending rest : List (SealedL1Block W)}, pending = before ++ b :: rest →
        x ∈ pending := by
      rintro pending rest rfl
      rw [append_cons]
      exact mem_append_left _ hmem
    exact hL.sender_accepted hF hfollowing (hpending hbuild.fits.pending) (hpending hsplit)
      (hbuild.rightful x hmem) hsender
  -- both nodes derive the same inputs, since they have deferred the same blocks
  have hinputs : F.validatePortalInputs net b.header decoded = .ok () := by
    cases decoded with
    | checkpointOnly headers => rfl
    | full header deposits tokens =>
      have hbefore := hbuild.fits.front rfl
      have hfront := hbuild.fits.pending
      rw [hbefore, nil_append] at hfront hsplit
      have hwork := hbuild.work rfl
      rw [operationalWork_front hfront, ← hsame.deferred_eq,
        ← operationalWork_front hsplit] at hwork
      exact validateFullPortalInputs_ok_iff.2 ⟨_, hwork, hbuild.inputs header deposits tokens rfl⟩
  have hwait := hF.waitForPeerAnchor_pending hrunning block
    (show b ∈ F.tasks.queue.pending by rw [hsplit]; simp)
  obtain ⟨last, hlast, hanchor⟩ := hbuild.fits.anchor
  refine ⟨hdecoded, decoded_count hdecoded, hrange, hsenders, hinputs, ?_⟩
  cases hfirst : decoded.headers.head? with
  | none =>
    rw [head?_eq_none_iff.1 hfirst] at hlast
    cases hlast
  | some first =>
    simp only [validatePeerBlock, hfirst, hlast, hanchor, ok_iff, exists_const]
    refine ⟨by rw [hhead]; exact hbuilt.parent, (), hrange, none, hwait, ?_⟩
    simp only [bind_ok_iff]
    exact ⟨(), hsenders first hfirst, (), hinputs, rfl⟩

theorem Synced.rejects (h : Synced net me n skipped finished crossed undelivered)
    {deposits : List AbiQueuedDeposit} {tokens : List EnabledToken}
    (hdecoded : decodeAdvanceTempo K block = .ok (.full header deposits tokens))
    (hnew : (n.head net).number < block.number)
    (hdiffer :
      let owed := sealedEvents (net.l1.chain.between
        (lastOperational net.l1.chain.base.number n.imports) header.number)
      ¬ (deposits.map toQueuedDeposit = owed.deposits.map net.preparer.toAbiQueuedDeposit ∧
        tokens = owed.enabledTokens))
    (env : ImportEnv) (sender : Option K) :
    (n.importPeerBlock net env sender block).1 ≠ .ok .imported ∧
      (n.importPeerBlock net env sender block).2 = n := by
  have hinvalid : ∀ anchor, n.validatePeerBlock net env sender block
      (.full header deposits tokens) ≠ .ok (.inr anchor) := by
    intro anchor hvalid
    obtain ⟨before, b, later, hfits, rfl, hinputs⟩ := h.fits_of_valid hvalid
    have hfront := hfits.pending
    rw [hfits.front rfl, nil_append] at hfront
    obtain ⟨work, hwork, hcontent⟩ := validateFullPortalInputs_ok_iff.1 hinputs
    obtain ⟨last, hlast, hanchor⟩ := hfits.anchor
    obtain rfl : header = last := Option.some.inj hlast
    -- the accepted work is that of the crossed blocks and the front block
    have hevents : workEvents work = sealedEvents (net.l1.chain.between
        (lastOperational net.l1.chain.base.number n.imports) header.number) := by
      have hblocks : net.l1.chain.blocks =
          finished ++ ((crossed ++ [b]) ++ (later ++ undelivered)) := by
        rw [h.accounts.blocks, hfront]
        simp
      have hrange := between_eq hblocks
      rw [← append_assoc, lastOf_concat] at hrange
      rw [show header.number = b.header.number by rw [← hanchor],
        h.accounts.covers.lastOperational_eq net.l1.chain.base, hrange]
      exact h.accounts.operationalWork_eq hfront hwork
    rw [hevents] at hcontent
    exact hdiffer hcontent
  rw [importPeerBlock]
  simp only [hdecoded]
  rw [if_neg (not_le.2 hnew)]
  split
  · exact ⟨by simp, rfl⟩
  split
  · exact ⟨by simp, rfl⟩
  · next outcome hvalid =>
    refine ⟨?_, rfl⟩
    intro himported
    exact validatePeerBlock_outcome hvalid (Except.ok.inj himported)
  · next anchor hvalid => exact absurd hvalid (hinvalid anchor)

/-- Let a leader build a block from a cleared import, and let a follower with the same canonical
zone blocks and a queue that has reached the anchor process it, live or backfilled. The checks pass,
the block is imported when it executes, and afterwards both queues hold the same deferred work and
the blocks after the anchor as far as each node has received them. Conversely, a new full block
whose deposits or token enablements are not the work since the last full import leaves the node
unchanged. -/
theorem honest_blocks_accepted (net : ZoneNetwork K W) {leader follower : K} {L F : PeerNode K W}
    (hleader : Reached net leader L) (hfollower : Reached net follower F) :
    (∀ front headers call released block sender env,
      F.zone = L.zone → F.following = true →
      L.tasks.engine = .cleared front headers →
      L.buildTempoImport net front headers = .ok (call, released) → L.Builds net call block →
      (∃ last ∈ F.tasks.queue.lastEnqueued, released.anchor.number ≤ last.number) →
      sender = none ∨ sender = some leader → env.stopped = false →
      ∃ decoded, Accepts net F env sender block released.anchor decoded ∧
        (env.executes = true →
          (F.importPeerBlock net env sender block).1 = .ok .imported ∧
          (F.importPeerBlock net env sender block).2.zone =
            (L.produced front headers block released).zone ∧
          (F.importPeerBlock net env sender block).2.tasks.queue.deferred =
            (L.produced front headers block released).tasks.queue.deferred ∧
          (F.importPeerBlock net env sender block).2.tasks.queue.pending <+:
            net.l1.chain.blocks.filter (fun b => decide (released.anchor.number < b.number)) ∧
          (L.produced front headers block released).tasks.queue.pending <+:
            net.l1.chain.blocks.filter (fun b => decide (released.anchor.number < b.number)) ∧
          (F.tasks.queue.lastEnqueued = L.tasks.queue.lastEnqueued →
            (F.importPeerBlock net env sender block).2.tasks.queue.pending =
              (L.produced front headers block released).tasks.queue.pending))) ∧
    ∀ block header deposits tokens env sender,
      decodeAdvanceTempo K block = .ok (.full header deposits tokens) →
      (F.head net).number < block.number →
      ¬ (deposits.map toQueuedDeposit =
          (sealedEvents (net.l1.chain.between (lastOperational net.l1.chain.base.number F.imports)
            header.number)).deposits.map net.preparer.toAbiQueuedDeposit ∧
        tokens = (sealedEvents (net.l1.chain.between
          (lastOperational net.l1.chain.base.number F.imports) header.number)).enabledTokens) →
      (F.importPeerBlock net env sender block).1 ≠ .ok .imported ∧
        (F.importPeerBlock net env sender block).2 = F := by
  obtain ⟨_, _, crossed, undelivered, hL⟩ := Synced.of_reached hleader
  obtain ⟨_, _, crossed', undelivered', hF⟩ := Synced.of_reached hfollower
  constructor
  · intro front headers call released block sender env hzone hfollowing hphase himport hbuilt
      hreached hsender hrunning
    obtain ⟨before, b, later, decoded, imported, hdecoded, hbuild, hadvance⟩ :=
      hL.built hphase himport hbuilt
    obtain ⟨last, hlast, hle⟩ := hreached
    have hanchor : released.anchor = b.header := by
      rw [← ZoneImport.kind_anchor, ← hbuild.kind]
    rw [hanchor] at hle ⊢
    -- nodes with the same zone have consumed the same blocks, so the follower queue starts alike
    have hsame := hL.sameZone hF hzone
    have hrest := hsame.rest_eq
    rw [hbuild.fits.pending] at hrest
    obtain ⟨later', hsplit, hafter⟩ := split_delivered hrest (hF.not_mem_undelivered hlast hle)
    have haccepts := hL.accepts hF hzone hfollowing hbuilt hdecoded hbuild hsplit hsender hrunning
    refine ⟨decoded, haccepts, fun hexecutes => ?_⟩
    have hfits : Fits F.tasks.queue before b later' decoded :=
      ⟨hsplit, hbuild.fits.anchor, hbuild.fits.front⟩
    obtain ⟨hresult, hqueue, -⟩ := hF.imported hfollowing hdecoded hfits
    have hhead : F.head net = L.head net := by
      rw [head, hzone]
      rfl
    have hnext : block.number = saturatingAdd (F.head net).number 1 := by
      have hbound := hbuilt.number_lt
      have hnumber := hbuilt.number
      rw [hhead, saturatingAdd]
      omega
    have himported : F.importPeerBlock net env sender block =
        F.imported block decoded b.header := by
      have hnew : ¬ block.number ≤ (F.head net).number := by
        have hnumber := hbuilt.number
        rw [hhead]
        omega
      rw [importPeerBlock]
      simp only [hdecoded]
      rw [if_neg hnew, if_neg (not_not.2 hnext)]
      simp only [haccepts.valid, hexecutes, if_true]
    have hproduced : (L.produced front headers block released).tasks.queue =
        nextQueue L.tasks.queue crossed before b later decoded.isFull := by
      rw [produced, hadvance]
      rfl
    rw [himported, hqueue, hproduced]
    refine ⟨hresult, ?_, ?_, ?_, ?_, ?_⟩
    · have hreconcile := hfits.reconcile hF.accounts
      simp only [PeerNode.imported, hreconcile, produced, hzone]
    · rw [nextQueue, nextQueue, hsame.crossed_eq]
    · exact ⟨undelivered', (hF.after_anchor hsplit).symm⟩
    · exact ⟨undelivered, (hL.after_anchor hbuild.fits.pending).symm⟩
    · intro hequal
      have hpending := hL.pending_eq hF hzone (hequal.symm.trans hlast) hlast
      rw [hsplit, hbuild.fits.pending] at hpending
      exact (cons.inj (append_cancel_left hpending)).2
  · intro block header deposits tokens env sender hdecoded hnew hdiffer
    exact hF.rejects hdecoded hnew hdiffer env sender

namespace Example

open QueueExample (enabling token)
open EngineNode.Example (pausedL1 started started_start delivered deliveredAt cleared)

def network : ZoneNetwork ℕ Sym where
  l1 := pausedL1
  base_lt := by decide
  height_lt := by decide
  genesis := ⟨0, .num 100⟩
  spec := EngineNode.Example.beforeT13
  preparer := ⟨fun _ => [], fun _ => none⟩
  recovery := EngineNode.Example.directive
  manifest := false

def nodeAt (tasks : EngineNode ℕ Sym) (following : Bool) : PeerNode ℕ Sym :=
  ⟨pausedL1, tasks, [], [], following⟩

theorem nodeAt_starts : Starts network [] [] (nodeAt started false) where
  view := ⟨rfl, rfl, [], rfl, rfl⟩
  start := started_start
  provisioned := rfl
  queue := rfl
  zone := rfl
  imports := rfl
  following := rfl

theorem task_step {me : ℕ} {tasks tasks' : EngineNode ℕ Sym}
    (hstep : EngineNode.Step pausedL1 EngineNode.Example.beforeT13 me tasks tasks')
    (himports : tasks'.imports = tasks.imports) :
    Step network me (nodeAt tasks false) (nodeAt tasks' false) :=
  .task hstep himports fun hfollowing => absurd hfollowing Bool.false_ne_true

theorem delivered_run (me : ℕ) : Relation.ReflTransGen (Step network me) (nodeAt started false)
    (nodeAt delivered false) := by
  have hfetch : Step network me (nodeAt started false) _ :=
    task_step (.fetch rfl (.inl ⟨_, rfl⟩)) rfl
  exact (((Relation.ReflTransGen.single hfetch).tail (task_step (.publishTransition rfl) rfl)).tail
    (task_step (.publishPause rfl) rfl)).tail (task_step (.enqueue rfl) rfl)

theorem cleared_reached : Reached network 10 (nodeAt cleared false) := by
  have hpeek := (delivered_run 10).tail (task_step (.peek rfl rfl) rfl)
  have hselect := hpeek.tail (task_step (.nextAvailable rfl ⟨5, .num 5⟩ none none 0 0) rfl)
  have hfront := hselect.tail (task_step (.checkFront rfl) rfl)
  have hheaders := hfront.tail (task_step (.checkHeader rfl) rfl)
  exact ⟨_, nodeAt_starts, hheaders.tail (task_step (.checkPause rfl) rfl)⟩

def followingNode : PeerNode ℕ Sym := nodeAt (deliveredAt (.exited .cancelled)) true

theorem following_reached : Reached network 20 followingNode := by
  have hcancel := (delivered_run 20).tail (task_step (.cancel rfl) rfl)
  have hrecord : (nodeAt (deliveredAt (.exited .cancelled))
      false).tasks.leadership.schedule.leaderFor 5 = some ⟨1, 10, 0⟩ := by decide
  exact ⟨_, nodeAt_starts, hcancel.tail (.follow rfl hrecord (by decide))⟩

def call : InboxCall Sym := .advanceTempo enabling.sealedHeader [] [token 7]

def released : ZoneImport Sym := .full ⟨5, .num 5⟩ [enabling.toL1BlockDeposits]

def firstBlock : PeerBlock Sym := ⟨1, .num 101, .num 100, [systemTransaction call]⟩

theorem firstBlock_builds : (nodeAt cleared false).Builds network call firstBlock where
  number := rfl
  number_lt := by decide
  parent := rfl
  opening := ⟨[], rfl, fun _ _ => rfl⟩

/-- The follower imports the live block and owes nothing afterwards. -/
theorem firstBlock_accepted :
    (followingNode.importPeerBlock network ⟨false, true⟩ (some 10) firstBlock).1 = .ok .imported ∧
      (followingNode.importPeerBlock network ⟨false, true⟩ (some 10)
        firstBlock).2.tasks.queue.pending =
        ((nodeAt cleared false).produced enabling [] firstBlock released).tasks.queue.pending := by
  obtain ⟨decoded, -, himported⟩ :=
    (honest_blocks_accepted network cleared_reached following_reached).1 enabling [] call released
      firstBlock (some 10) ⟨false, true⟩ rfl rfl rfl rfl firstBlock_builds
      ⟨⟨5, .num 5⟩, rfl, le_rfl⟩ (.inr rfl) rfl
  obtain ⟨hresult, -, -, -, -, hpending⟩ := himported rfl
  exact ⟨hresult, hpending rfl⟩

end Example

end PeerNode

end TempoZones
