import TempoZones.System.Anchors
import TempoZones.System.WithdrawalFifo

/-!
# Agreement of the token cursors

The zone counts the tokens it has enabled since T13, and the portal's cursor follows the counts of
the batches it settles. T13 arrives on a live bridge: zones may have enabled tokens without counting
them, and zero stands for "not counted yet" on both sides. A run starts at a deployment or at the
block that gives a live portal its cursor (`CursorStart`, `CursorRun`). Submitted batches report the
zone's own counts (`Platform.Exact`).

`ZoneCounts` says that the zone's count is zero or the number of tokens announced at the block of
its last full import, `PortalCursor` that the cursor is the count of the last settled batch.
-/

namespace TempoZones

open Lib List Function TokenRegistry Nat

variable {W : Type} [EvmWord W] [DecidableEq W]

/-! ## Runs -/

def countBefore (batches : List (FinalizedBatch W)) : ℕ → ℕ
  | 0 => 0
  | k + 1 => batches[k]?.elim 0 (·.processedEnabledTokenCount)

/-- The proof verifier accepts only batches that the zone has finalized, with the zone's token counts
before and after the batch. -/
def VerifierExact (z : Zone W) (ext : Externals W) : Prop :=
  ∀ v, ext.verify v = true → ∃ k b, z.history.batches[k]? = some b ∧ Attests b v ∧
    v.tokenEnablementTransition.prevProcessedTokenCount = countBefore z.history.batches k

def Platform.Exact (π : Platform W) : Prop :=
  ∀ {z : Zone W} {ext : Externals W}, π.proves z ext → VerifierExact z ext

structure TokensDistinct (r : TokenRegistry W) : Prop where
  nodup : r.enabledTokens.Nodup
  enabled : ∀ t ∈ r.enabledTokens, (r.tokenConfigs t).enabled = true

/-- Registries along the Tempo chain: tokens are recorded, distinct and never removed. -/
structure ChainTokens (blocks : List (L1 W)) (s : L1 W) : Prop where
  recorded : ∀ b ∈ s :: blocks, TokensRecorded b
  distinct : ∀ b ∈ s :: blocks, TokensDistinct b.portal.registry
  length_le : ∀ b ∈ blocks, b.portal.registry.enabledTokens.length ≤
    s.portal.registry.enabledTokens.length

def ZoneCall.IsFull : ZoneCall W → Prop
  | .advanceTempo _ _ => True
  | _ => False

variable {π : Platform W} {σ : Sys W} {fork : ℕ} {t13 : Bool}

/-! ## Steps of the portal's cursor -/

inductive TokenStep (ctx : CallCtx W) (s s' : L1 W) : Prop
  | kept {configs : Address → TokenConfig}
      (flags : ∀ t, (configs t).enabled = (s.portal.registry.tokenConfigs t).enabled)
      (registry : s'.portal.registry = { s.portal.registry with tokenConfigs := configs })
      (batches : s'.portal.batches = s.portal.batches)
  | enabled {token : EnabledToken}
      (fresh : (s.portal.registry.tokenConfigs token.token).enabled = false)
      (initialized : s.portal.registry.tokenEnablementCursorInitialized = true)
      (room : s.portal.registry.enabledTokens.length <
        s.portal.registry.lastProcessedEnabledTokenCount + MAX_UNPROCESSED_TOKEN_ENABLEMENTS)
      (registry : s'.portal.registry = s.portal.registry.append token)
      (batches : s'.portal.batches = s.portal.batches)
  | settled {sender : Address} {call : SubmitBatch W} {anchorBlockNumber : ℕ} {anchorBlockHash : W}
      (accepted : Accepted ctx sender s.portal call anchorBlockNumber anchorBlockHash)
      (result : s' = s.settle ctx call anchorBlockNumber anchorBlockHash)

section Step

variable {ctx : CallCtx W} {s s' : L1 W}

theorem TokenStep.of_eq (registry : s'.portal.registry = s.portal.registry)
    (batches : s'.portal.batches = s.portal.batches) : TokenStep ctx s s' :=
  .kept (fun _ => rfl) registry batches

theorem CallStep.tokenStep (h : CallStep ctx s s') : TokenStep ctx s s' := by
  cases h with
  | configure step =>
    cases step with
    | params _ _ => exact .of_eq rfl rfl
    | enable fresh initialized room => exact .enabled fresh initialized room rfl rfl
    | @active token active _ _ _ =>
      refine .kept (fun t => ?_) rfl rfl
      by_cases ht : t = token
      · subst ht
        rw [update_self]
      · rw [update_of_ne ht]
  | deposit _ collected _ =>
    have hportal := collected.frame.1
    exact .of_eq (congrArg (·.registry) hportal) (congrArg (·.batches) hportal)
  | submitBatch accepted => exact .settled accepted rfl
  | _ => exact .of_eq rfl rfl

theorem Micro.tokenStep (h : Micro ctx s s') : TokenStep ctx s s' := by
  cases h with
  | call step => exact step.tokenStep
  | withdraw _ _ disposed =>
    cases disposed with
    | refunded _ refund =>
      obtain ⟨⟨refunds, hportal⟩, -⟩ := refund.frame
      exact .of_eq (congrArg (·.registry) hportal) (congrArg (·.batches) hportal)
    | _ => exact .of_eq rfl rfl
  | outside move =>
    exact .of_eq (congrArg (·.registry) move.portal_eq) (congrArg (·.batches) move.portal_eq)
  | _ => exact .of_eq rfl rfl

theorem TokenRegistry.advance_tokens (r : TokenRegistry W) (t : TokenEnablementTransition) :
    (r.advance t).enabledTokens = r.enabledTokens ∧ (r.advance t).tokenConfigs = r.tokenConfigs := by
  unfold advance
  split <;> exact ⟨rfl, rfl⟩

theorem TokenStep.length_le (h : TokenStep ctx s s') :
    s.portal.registry.enabledTokens.length ≤ s'.portal.registry.enabledTokens.length := by
  cases h with
  | kept _ registry _ => rw [registry]
  | enabled _ _ _ registry _ =>
    rw [registry]
    exact (prefix_append _ _).length_le
  | settled _ result =>
    rw [result]
    exact (congrArg List.length (s.portal.registry.advance_tokens _).1).ge

theorem TokensDistinct.step (hs : TokensDistinct s.portal.registry) (h : TokenStep ctx s s') :
    TokensDistinct s'.portal.registry := by
  cases h with
  | kept flags registry _ =>
    rw [registry]
    exact ⟨hs.nodup, fun t ht => (flags t).trans (hs.enabled t ht)⟩
  | @enabled token fresh _ _ registry _ =>
    rw [registry]
    -- a listed token is marked as enabled, so it is not the new one
    have hnew : token.token ∉ s.portal.registry.enabledTokens := by
      intro hmem
      rw [hs.enabled _ hmem] at fresh
      cases fresh
    constructor
    · show (s.portal.registry.enabledTokens ++ [token.token]).Nodup
      rw [← concat_eq_append]
      exact hs.nodup.concat hnew
    · intro t ht
      simp only [append]
      by_cases heq : t = token.token
      · rw [heq, update_self]
      rw [update_of_ne heq]
      rcases mem_append.1 ht with ht | ht
      · exact hs.enabled t ht
      · exact absurd (mem_singleton.1 ht) heq
  | @settled _ call _ _ _ result =>
    obtain ⟨htokens, hconfigs⟩ := s.portal.registry.advance_tokens call.tokenEnablementTransition
    have hregistry : s'.portal.registry =
        s.portal.registry.advance call.tokenEnablementTransition := by
      rw [result]
      rfl
    rw [hregistry]
    exact ⟨htokens ▸ hs.nodup, fun t ht => hconfigs ▸ hs.enabled t (htokens ▸ ht)⟩

end Step

/-! ## Registries along the chain -/

variable {blocks : List (L1 W)}

theorem ChainTokens.micro {ctx : CallCtx W} {s s' : L1 W} (hs : ChainTokens blocks s)
    (h : Micro ctx s s') : ChainTokens blocks s' := by
  have hstep := h.tokenStep
  refine ⟨?_, ?_, ?_⟩
  · intro b hb
    rcases mem_cons.1 hb with rfl | hb
    · exact (hs.recorded s mem_cons_self).step h.registryStep
    · exact hs.recorded b (mem_cons_of_mem _ hb)
  · intro b hb
    rcases mem_cons.1 hb with rfl | hb
    · exact (hs.distinct s mem_cons_self).step hstep
    · exact hs.distinct b (mem_cons_of_mem _ hb)
  · intro b hb
    exact (hs.length_le b hb).trans hstep.length_le

theorem ChainTokens.nextBlock {s : L1 W} (hs : ChainTokens blocks s) :
    ChainTokens (blocks ++ [s]) s := by
  have hmem : ∀ b ∈ s :: (blocks ++ [s]), b ∈ s :: blocks := by
    intro b hb
    rcases mem_cons.1 hb with rfl | hb
    · exact mem_cons_self
    rcases mem_append.1 hb with hb | hb
    · exact mem_cons_of_mem _ hb
    · exact mem_singleton.1 hb ▸ mem_cons_self
  refine ⟨fun b hb => hs.recorded b (hmem b hb), fun b hb => hs.distinct b (hmem b hb), ?_⟩
  intro b hb
  rcases mem_append.1 hb with hb | hb
  · exact hs.length_le b hb
  · rw [mem_singleton.1 hb]

/-! ## Counts of the zone -/

/-- `count` tokens were enabled at the end of some block since the fork. -/
def EnabledAt (fork : ℕ) (blocks : List (L1 W)) (count : ℕ) : Prop :=
  ∃ n s, fork ≤ n ∧ blocks[n]? = some s ∧ s.portal.registry.enabledTokens.length = count

theorem EnabledAt.nextBlock {count : ℕ} (h : EnabledAt fork blocks count) (s : L1 W) :
    EnabledAt fork (blocks ++ [s]) count := by
  obtain ⟨n, b, hfork, hb, hlength⟩ := h
  have hlt := (List.getElem?_eq_some_iff.1 hb).1
  exact ⟨n, b, hfork, (List.getElem?_append_left hlt).trans hb, hlength⟩

/-- The zone counts nothing before T13. A nonzero count is the number of tokens that the zone has
enabled, and the number that were enabled at some block. Batches report counts in order. -/
structure ZoneCounts (fork : ℕ) (t13 : Bool) (blocks : List (L1 W)) (z : Zone W) : Prop where
  chained : TokensChained z
  batched : Batched z
  uncounted : t13 = false → z.inbox.processedEnabledTokenCount = 0
  counted : z.inbox.processedEnabledTokenCount ≠ 0 →
    z.inbox.processedEnabledTokenCount = z.history.processedTokens.length ∧
      EnabledAt fork blocks z.inbox.processedEnabledTokenCount
  reported : ∀ b ∈ z.history.batches, b.processedEnabledTokenCount ≠ 0 →
    EnabledAt fork blocks b.processedEnabledTokenCount
  reported_le : ∀ b ∈ z.history.batches,
    b.processedEnabledTokenCount ≤ z.inbox.processedEnabledTokenCount
  sorted : z.history.batches.Pairwise fun a b =>
    a.processedEnabledTokenCount ≤ b.processedEnabledTokenCount

section Zone

variable {zctx : ZoneCtx W} {caller : Address} {blocks : List (L1 W)} {z z' : Zone W}

/-- A full import under T13 counts the tokens that the portal had enabled at the imported block, which
are the tokens that the zone has enabled. -/
theorem ZoneCounts.full {args : AdvanceTempo W} {reply : AdvanceReply} (hc : CollisionFree W)
    (hz : ZoneCounts fork t13 blocks z) (reads : ReadsFrom π blocks zctx)
    (recorded : ∀ s ∈ blocks, TokensRecorded s) (ht13 : zctx.block.t13 = true)
    (h : z.advanceTempo zctx caller args reply = .ok z') :
    ∃ s, blocks[z'.tempo.tempoBlockNumber]? = some s ∧
      z'.history.processedTokens = tokenEnablements s.logs ∧
      z'.history.processedTokens.map (·.token) = s.portal.registry.enabledTokens ∧
      z'.inbox.processedEnabledTokenCount = s.portal.registry.enabledTokens.length := by
  obtain ⟨entries, -, hadvanced⟩ := advanceTempo_ok reads.portal_ne_zero h
  obtain ⟨p, hread, hcount⟩ := advanceTempo_count reads.portal_ne_zero h
  obtain ⟨s, hs, rfl⟩ := reads.reads hread
  obtain ⟨s₁, hs₁, htokens, -⟩ := hadvanced.token_sequence hc reads recorded hz.chained
  obtain rfl : s = s₁ := Option.some.inj (hs.symm.trans hs₁)
  have hlisted := (recorded s (mem_of_getElem? hs)).tokens_eq
  rw [← htokens] at hlisted
  refine ⟨s, hs, htokens, hlisted.symm, ?_⟩
  rw [hcount, Zone.countTokens, if_pos ht13]
  split
  · rfl
  · next hne =>
    -- the stored count is the number of tokens before the import
    rw [(hz.counted hne).1, hlisted, length_map, hadvanced.tokens_eq, length_append]

theorem ZoneCounts.step_full {args : AdvanceTempo W} {reply : AdvanceReply} (hc : CollisionFree W)
    (hz : ZoneCounts fork t13 blocks z) (reads : ReadsFrom π blocks zctx)
    (recorded : ∀ s ∈ blocks, TokensRecorded s) (later : t13 = true → zctx.block.t13 = true)
    (h : z.advanceTempo zctx caller args reply = .ok z')
    (matched : zctx.block.t13 = true → fork ≤ z'.tempo.tempoBlockNumber) :
    ZoneCounts fork zctx.block.t13 blocks z' := by
  obtain ⟨entries, -, hadvanced⟩ := advanceTempo_ok reads.portal_ne_zero h
  have hbatches := hadvanced.batches_eq.1
  have hchained := hadvanced.tokensChained hz.chained
  have hbatched := (ZoneStep.advanced hadvanced).batched hz.batched
  cases ht13 : zctx.block.t13 with
  | true =>
    obtain ⟨s, hs, -, hlisted, hcount⟩ := hz.full hc reads recorded ht13 h
    have hgrown : z.inbox.processedEnabledTokenCount ≤ z'.inbox.processedEnabledTokenCount := by
      rw [hcount, ← hlisted, length_map, hadvanced.tokens_eq, length_append]
      by_cases hzero : z.inbox.processedEnabledTokenCount = 0
      · omega
      · have := (hz.counted hzero).1
        omega
    refine ⟨hchained, hbatched, nofun, ?_, ?_, ?_, ?_⟩
    · intro _
      refine ⟨?_, _, s, matched ht13, hs, hcount.symm⟩
      rw [hcount, ← hlisted, length_map]
    · rw [hbatches]
      exact hz.reported
    · rw [hbatches]
      exact fun b hb => (hz.reported_le b hb).trans hgrown
    · rw [hbatches]
      exact hz.sorted
  | false =>
    -- the zone was not in T13 before either, so it had counted nothing
    have hbefore : t13 = false := by
      cases t13 with
      | false => rfl
      | true => exact absurd (ht13.symm.trans (later rfl)) Bool.false_ne_true
    obtain ⟨p, -, hcount⟩ := advanceTempo_count reads.portal_ne_zero h
    rw [Zone.countTokens, ht13, if_neg Bool.false_ne_true, hz.uncounted hbefore] at hcount
    refine ⟨hchained, hbatched, fun _ => hcount, fun hne => absurd hcount hne, ?_, ?_, ?_⟩
    · rw [hbatches]
      exact hz.reported
    · rw [hbatches, hcount]
      exact fun b hb => (hz.reported_le b hb).trans_eq (hz.uncounted hbefore)
    · rw [hbatches]
      exact hz.sorted

theorem ZoneStep.reports (h : ZoneStep zctx z z') : z'.history.batches = z.history.batches ∨
      ∃ b, z'.history.batches = z.history.batches ++ [b] ∧
        b.processedEnabledTokenCount = z.inbox.processedEnabledTokenCount := by
  cases h with
  | advanced step => exact .inl step.batches_eq.1
  | finalized _ _ => exact .inr ⟨_, rfl, rfl⟩
  | _ => exact .inl rfl

theorem ZoneCounts.step_other (hz : ZoneCounts fork t13 blocks z)
    (later : t13 = true → zctx.block.t13 = true) (h : ZoneStep zctx z z')
    (htokens : z'.history.processedTokens = z.history.processedTokens)
    (hcount : z'.inbox.processedEnabledTokenCount = z.inbox.processedEnabledTokenCount) :
    ZoneCounts fork zctx.block.t13 blocks z' := by
  have huncounted : zctx.block.t13 = false → z'.inbox.processedEnabledTokenCount = 0 := by
    intro hfalse
    refine hcount.trans (hz.uncounted ?_)
    cases t13 with
    | false => rfl
    | true => exact absurd (hfalse.symm.trans (later rfl)) Bool.false_ne_true
  refine ⟨h.tokensChained hz.chained, h.batched hz.batched, huncounted, ?_, ?_, ?_, ?_⟩
  · rw [hcount, htokens]
    exact hz.counted
  all_goals rcases h.reports with hbatches | ⟨b, hbatches, hb⟩ <;> rw [hbatches]
  · exact hz.reported
  · intro a ha hne
    rcases mem_append.1 ha with ha | ha
    · exact hz.reported a ha hne
    · rw [mem_singleton.1 ha, hb] at hne ⊢
      exact (hz.counted hne).2
  · rw [hcount]
    exact hz.reported_le
  · rw [hcount]
    intro a ha
    rcases mem_append.1 ha with ha | ha
    · exact hz.reported_le a ha
    · rw [mem_singleton.1 ha, hb]
  · exact hz.sorted
  refine pairwise_append.2 ⟨hz.sorted, pairwise_singleton _ _, ?_⟩
  intro a ha a' ha'
  rw [mem_singleton.1 ha', hb]
  exact hz.reported_le a ha

theorem ZoneCounts.nextBlock (hz : ZoneCounts fork t13 blocks z) (s : L1 W) :
    ZoneCounts fork t13 (blocks ++ [s]) z :=
  { hz with
    counted := fun hne => ⟨(hz.counted hne).1, (hz.counted hne).2.nextBlock s⟩
    reported := fun b hb hne => (hz.reported b hb hne).nextBlock s }

end Zone

/-! ## Cursor of the portal -/

/-- The cursor is the count of the last settled batch, and it is initialized when that is nonzero. From
then on the tokens beyond it fit the capacity; until then no token is enabled. -/
structure PortalCursor (fork : ℕ) (blocks : List (L1 W)) (batches : List (FinalizedBatch W))
    (s : L1 W) : Prop where
  index_le : s.portal.batches.withdrawalBatchIndex ≤ batches.length
  last_eq : s.portal.registry.lastProcessedEnabledTokenCount =
    countBefore batches s.portal.batches.withdrawalBatchIndex
  initialized_iff : s.portal.registry.tokenEnablementCursorInitialized = true ↔
    s.portal.registry.lastProcessedEnabledTokenCount ≠ 0
  capacity : s.portal.registry.tokenEnablementCursorInitialized = true →
    s.portal.registry.lastProcessedEnabledTokenCount ≤ s.portal.registry.enabledTokens.length ∧
      s.portal.registry.enabledTokens.length ≤
        s.portal.registry.lastProcessedEnabledTokenCount + MAX_UNPROCESSED_TOKEN_ENABLEMENTS
  frozen : s.portal.registry.tokenEnablementCursorInitialized = false →
    s.portal.registry.enabledTokens.length < 2 ^ 64 ∧
      ∀ count, EnabledAt fork blocks count → s.portal.registry.enabledTokens.length ≤
        count + MAX_UNPROCESSED_TOKEN_ENABLEMENTS

section Portal

variable {ctx : CallCtx W} {blocks : List (L1 W)} {batches : List (FinalizedBatch W)} {s s' : L1 W}

theorem countBefore_append {k : ℕ} (hk : k ≤ batches.length) (more : List (FinalizedBatch W)) :
    countBefore (batches ++ more) k = countBefore batches k := by
  cases k with
  | zero => rfl
  | succ k =>
    show (batches ++ more)[k]?.elim 0 _ = batches[k]?.elim 0 _
    rw [List.getElem?_append_left hk]

section

variable (hs : PortalCursor fork blocks batches s)
include hs

theorem PortalCursor.mono {batches' : List (FinalizedBatch W)} (h : batches <+: batches') :
    PortalCursor fork blocks batches' s := by
  obtain ⟨more, rfl⟩ := h
  refine { hs with index_le := hs.index_le.trans ?_, last_eq := hs.last_eq.trans ?_ }
  · rw [length_append]
    exact le_add_right _ _
  · exact (countBefore_append hs.index_le more).symm

theorem PortalCursor.nextBlock : PortalCursor fork (blocks ++ [s]) batches s := by
  refine { hs with frozen := fun hfrozen => ⟨(hs.frozen hfrozen).1, ?_⟩ }
  rintro count ⟨n, b, hfork, hb, hlength⟩
  rcases getElem?_concat_eq_some hb with hb | ⟨-, rfl⟩
  · exact (hs.frozen hfrozen).2 count ⟨n, b, hfork, hb, hlength⟩
  · exact hlength ▸ le_add_right _ _

theorem PortalCursor.of_eq
    (hcursor : s'.portal.registry.tokenEnablementCursorInitialized = s.portal.registry.tokenEnablementCursorInitialized)
    (hlast : s'.portal.registry.lastProcessedEnabledTokenCount = s.portal.registry.lastProcessedEnabledTokenCount)
    (htokens : s'.portal.registry.enabledTokens = s.portal.registry.enabledTokens)
    (hbatches : s'.portal.batches = s.portal.batches) : PortalCursor fork blocks batches s' := by
  obtain ⟨hindex, heq, hiff, hcapacity, hfrozen⟩ := hs
  rw [← hbatches] at hindex heq
  rw [← hlast] at heq hiff hcapacity
  rw [← hcursor] at hiff hcapacity hfrozen
  rw [← htokens] at hcapacity hfrozen
  exact ⟨hindex, heq, hiff, hcapacity, hfrozen⟩

end

theorem PortalCursor.settle {sender : Address} {call : SubmitBatch W} {n : ℕ} {hash : W} {z : Zone W}
    (hs : PortalCursor fork blocks z.history.batches s) (hz : Batched z)
    (exact : VerifierExact z ctx.ext) (h : Accepted ctx sender s.portal call n hash) :
    PortalCursor fork blocks z.history.batches (s.settle ctx call n hash) := by
  obtain ⟨k, b, hb, hattests, -⟩ := exact _ h.proven
  -- the batch index identifies the batch
  have hk : s.portal.batches.withdrawalBatchIndex = k := by
    have hindex := hattests.index.trans (hz.batch hb).1
    exact succ.inj hindex
  subst hk
  have hnext : call.tokenEnablementTransition.nextProcessedTokenCount =
    b.processedEnabledTokenCount := hattests.tokens
  have hcount : countBefore z.history.batches (s.portal.batches.withdrawalBatchIndex + 1) =
      call.tokenEnablementTransition.nextProcessedTokenCount := by
    rw [hnext]
    show z.history.batches[_]?.elim 0 _ = _
    rw [hb]
    rfl
  have hindex : s.portal.batches.withdrawalBatchIndex + 1 ≤ z.history.batches.length :=
    (List.getElem?_eq_some_iff.1 hb).1
  have hle : call.tokenEnablementTransition.nextProcessedTokenCount ≤
    s.portal.registry.enabledTokens.length := h.token_le.trans (mod_le _ _)
  have hregistry : (s.settle ctx call n hash).portal.registry =
    s.portal.registry.advance call.tokenEnablementTransition := rfl
  have hbatches : (s.settle ctx call n hash).portal.batches.withdrawalBatchIndex =
    s.portal.batches.withdrawalBatchIndex + 1 := rfl
  by_cases hmoves : s.portal.registry.tokenEnablementCursorInitialized = true ∨
      call.tokenEnablementTransition.nextProcessedTokenCount ≠ 0
  · rw [advance, if_pos hmoves] at hregistry
    have hne : call.tokenEnablementTransition.nextProcessedTokenCount ≠ 0 := by
      rcases hmoves with hinit | hne
      · have hprev := h.token_prev
        rw [if_pos hinit] at hprev
        have hlast := hs.initialized_iff.1 hinit
        have hmono := h.token_mono
        omega
      · exact hne
    have hroom : s.portal.registry.enabledTokens.length ≤
        call.tokenEnablementTransition.nextProcessedTokenCount +
          MAX_UNPROCESSED_TOKEN_ENABLEMENTS := by
      cases hinit : s.portal.registry.tokenEnablementCursorInitialized with
      | true =>
        have hprev := h.token_prev
        rw [if_pos hinit] at hprev
        have hmono := h.token_mono
        have hcapacity := (hs.capacity hinit).2
        omega
      | false =>
        have hstart := h.token_start hinit hne
        rwa [uint64, mod_eq_of_lt (hs.frozen hinit).1] at hstart
    refine ⟨hbatches ▸ hindex, ?_, ?_, ?_, ?_⟩
    · rw [hbatches, hregistry, hcount]
    · rw [hregistry]
      exact ⟨fun _ => hne, fun _ => rfl⟩
    · rw [hregistry]
      exact fun _ => ⟨hle, hroom⟩
    · rw [hregistry]
      rintro ⟨⟩
  · rw [advance, if_neg hmoves] at hregistry
    obtain ⟨hinit, hzero⟩ := not_or.1 hmoves
    refine ⟨hbatches ▸ hindex, ?_, ?_, ?_, ?_⟩
    · rw [hbatches, hregistry, hcount]
      have hlast := mt hs.initialized_iff.2 hinit
      omega
    all_goals rw [hregistry]
    · exact hs.initialized_iff
    · exact hs.capacity
    · exact hs.frozen

theorem PortalCursor.micro {z : Zone W} (hs : PortalCursor fork blocks z.history.batches s)
    (hz : Batched z) (exact : VerifierExact z ctx.ext) (h : Micro ctx s s') :
    PortalCursor fork blocks z.history.batches s' := by
  cases h.tokenStep with
  | kept _ registry batches =>
    exact hs.of_eq (by rw [registry]) (by rw [registry]) (by rw [registry]) batches
  | @enabled token _ initialized room registry batches =>
    have hlength : s'.portal.registry.enabledTokens.length =
        s.portal.registry.enabledTokens.length + 1 := by
      rw [registry]
      exact length_append
    have hcursor : s'.portal.registry.tokenEnablementCursorInitialized = true := by
      rw [registry]
      exact initialized
    have hlast : s'.portal.registry.lastProcessedEnabledTokenCount =
        s.portal.registry.lastProcessedEnabledTokenCount := by
      rw [registry]
      rfl
    refine ⟨batches ▸ hs.index_le, ?_, ?_, ?_, ?_⟩
    · rw [hlast, hs.last_eq, batches]
    · rw [hlast, hcursor]
      exact iff_of_true rfl (hs.initialized_iff.1 initialized)
    · intro _
      rw [hlast, hlength]
      exact ⟨(hs.capacity initialized).1.trans (le_succ _), room⟩
    intro hfalse
    rw [hcursor] at hfalse
    cases hfalse
  | settled accepted result => exact result ▸ hs.settle hz exact accepted

end Portal

/-! ## Runs keep the cursors in agreement -/

/-- What holds in every run. -/
structure CursorsAgree (fork : ℕ) (t13 : Bool) (σ : Sys W) : Prop where
  initialized : σ.l1.portal.gov.initialized = true
  tokens : ChainTokens σ.blocks σ.l1
  zone : ZoneCounts fork t13 σ.blocks σ.zone
  portal : PortalCursor fork σ.blocks σ.zone.history.batches σ.l1

theorem CursorsAgree.path {ctx : CallCtx W} {s' : L1 W} (hexact : π.Exact)
    (h : CursorsAgree fork t13 σ) (admissible : Admissible π σ ctx) (path : MicroPath ctx σ.l1 s') :
    CursorsAgree fork t13 { σ with l1 := s' } := by
  refine ⟨path.initialized_eq.trans h.initialized, ?_, h.zone, ?_⟩
  · induction path with
    | refl => exact h.tokens
    | tail _ step ih => exact ih.micro step
  induction path with
  | refl => exact h.portal
  | tail _ step ih => exact ih.micro h.zone.batched (hexact admissible.proofs) step

theorem CursorsAgree.zoneCall {zctx : ZoneCtx W} {caller : Address} {call : ZoneCall W}
    (hc : CollisionFree W) (h : CursorsAgree fork t13 σ) (reads : ReadsFrom π σ.blocks zctx)
    (outside : caller ≠ ZONE_INBOX_ADDRESS) (later : t13 = true → zctx.block.t13 = true)
    (matched : zctx.block.t13 = true → call.IsFull →
      ∀ z', zoneExec zctx caller σ.zone call = .ok z' → fork ≤ z'.tempo.tempoBlockNumber) :
    CursorsAgree fork zctx.block.t13 { σ with zone := zoneApply zctx caller σ.zone call } := by
  have hrecorded : ∀ s ∈ σ.blocks, TokensRecorded s :=
    fun s hs => h.tokens.recorded s (mem_cons_of_mem _ hs)
  unfold zoneApply
  split
  · next z' hrun =>
    have hbatches := ZoneStep.batches_prefix (zone_step reads.portal_ne_zero outside hrun)
    refine ⟨h.initialized, h.tokens, ?_, h.portal.mono hbatches⟩
    rcases zone_step_or_full outside hrun with ⟨args, reply, rfl⟩ | ⟨hstep, htokens, hcount, -⟩
    · exact h.zone.step_full hc reads hrecorded later hrun fun ht13 => matched ht13 trivial z' hrun
    · exact h.zone.step_other later hstep htokens hcount
  · -- a failed call still belongs to a block of its hard fork
    refine ⟨h.initialized, h.tokens, { h.zone with uncounted := ?_ }, h.portal⟩
    intro hfalse
    refine h.zone.uncounted ?_
    cases t13 with
    | false => rfl
    | true => exact absurd (hfalse.symm.trans (later rfl)) Bool.false_ne_true

theorem PortalCursor.expected {batches : List (FinalizedBatch W)} {s : L1 W}
    (hs : PortalCursor fork blocks batches s) :
    countBefore batches s.portal.batches.withdrawalBatchIndex =
      if s.portal.registry.tokenEnablementCursorInitialized = true then
        s.portal.registry.lastProcessedEnabledTokenCount else 0 := by
  rw [← hs.last_eq]
  split
  · rfl
  · next hfalse =>
    have := mt hs.initialized_iff.2 hfalse
    omega

theorem countBefore_le {z : Zone W} {k : ℕ} {b : FinalizedBatch W}
    (hz : ZoneCounts fork t13 blocks z) (hb : z.history.batches[k]? = some b) :
    countBefore z.history.batches k ≤ b.processedEnabledTokenCount := by
  cases k with
  | zero => exact zero_le _
  | succ k =>
    show z.history.batches[k]?.elim 0 _ ≤ _
    cases hprevious : z.history.batches[k]? with
    | none => exact zero_le _
    | some a =>
      obtain ⟨hk, rfl⟩ := List.getElem?_eq_some_iff.1 hprevious
      obtain ⟨hk', rfl⟩ := List.getElem?_eq_some_iff.1 hb
      exact pairwise_iff_getElem.1 hz.sorted k (k + 1) hk hk' (lt_succ_self k)

theorem CursorsAgree.checkTransition {b : FinalizedBatch W} (h : CursorsAgree fork t13 σ)
    (hb : σ.zone.history.batches[σ.l1.portal.batches.withdrawalBatchIndex]? = some b)
    (hlt : σ.l1.portal.registry.enabledTokens.length < 2 ^ 64) :
    σ.l1.portal.registry.checkTransition
      ⟨countBefore σ.zone.history.batches σ.l1.portal.batches.withdrawalBatchIndex,
        b.processedEnabledTokenCount⟩ = .ok () := by
  have hmem := mem_of_getElem? hb
  have huint : uint64 σ.l1.portal.registry.enabledTokens.length =
    σ.l1.portal.registry.enabledTokens.length := mod_eq_of_lt hlt
  have hexpected := h.portal.expected
  have hmono := countBefore_le h.zone hb
  have hle : b.processedEnabledTokenCount ≤ σ.l1.portal.registry.enabledTokens.length := by
    by_cases hzero : b.processedEnabledTokenCount = 0
    · exact hzero ▸ zero_le _
    · obtain ⟨n, s, -, hs, hlength⟩ := h.zone.reported b hmem hzero
      exact hlength ▸ h.tokens.length_le s (mem_of_getElem? hs)
  simp only [TokenRegistry.checkTransition, ok_iff, huint]
  refine ⟨(), ?_, ?_⟩
  · rintro (hne | hlt' | hgt)
    · exact hne hexpected
    · omega
    · omega
  rintro ⟨hfalse, hne, hgt⟩
  have hroom := (h.portal.frozen hfalse).2 _ (h.zone.reported b hmem hne)
  omega

namespace Example

end Example

end TempoZones
