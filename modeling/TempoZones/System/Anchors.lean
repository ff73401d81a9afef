import TempoZones.Portal.TokenCursor
import TempoZones.System.DepositSequence
import TempoZones.System.Settlement

/-!
# Anchors of full imports

The logs of the portal only grow from block to block (`Trace.logs_ordered`). What the zone has
processed is exactly what the portal had announced at the block of the last full import
(`Trace.imported`), and no portal cursor, past or present, is ahead of the zone
(`Trace.settledBehind`): a batch is settled after the zone has made it.
-/

namespace TempoZones

open Lib List

variable {W : Type} [EvmWord W] [DecidableEq W] {π : Platform W} {σ : Sys W}

/-! ## Order of the recorded blocks -/

theorem Trace.ordered {R : L1 W → L1 W → Prop} (refl : ∀ s, R s s)
    (trans : ∀ {a b c}, R a b → R b c → R a c) (fresh : ∀ ledger s, R (.fresh π.self ledger) s)
    (step : ∀ {ctx : CallCtx W} {s s' : L1 W}, Micro ctx s s' → R s s') (h : Trace π σ) :
    σ.blocks.Pairwise R ∧ ∀ s ∈ σ.blocks, R s σ.l1 := by
  induction h with
  | start h =>
    refine ⟨pairwise_of_forall_mem_list fun a ha b _ => ?_, fun s hs => ?_⟩
    · obtain ⟨ledger, rfl⟩ := h.before a ha
      exact fresh ledger b
    · obtain ⟨ledger, rfl⟩ := h.before s hs
      exact fresh ledger _
  | micro _ _ hstep ih => exact ⟨ih.1, fun s hs => trans (ih.2 s hs) (step hstep)⟩
  | @nextBlock σ _ ih =>
    refine ⟨pairwise_append.2 ⟨ih.1, pairwise_singleton _ _, ?_⟩, ?_⟩
    · intro a ha b hb
      rw [mem_singleton.1 hb]
      exact ih.2 a ha
    · intro s hs
      rcases mem_append.1 hs with hs | hs
      · exact ih.2 s hs
      · rw [mem_singleton.1 hs]
        exact refl _
  | zone _ _ _ _ ih => exact ih

section Logs

variable {ctx : CallCtx W} {s s' : L1 W}

theorem CallStep.logs_prefix (h : CallStep ctx s s') : s.logs <+: s'.logs := by
  cases h with
  | deposit _ collected _ =>
    rw [← collected.frame.2.1]
    exact prefix_append _ _
  | _ => exact prefix_append _ _

theorem Micro.logs_prefix (h : Micro ctx s s') : s.logs <+: s'.logs := by
  cases h with
  | call step => exact step.logs_prefix
  | withdraw _ _ disposed =>
    cases disposed with
    | refunded _ refund =>
      obtain ⟨-, ⟨log, hlogs, -⟩, -⟩ := refund.frame
      rw [hlogs]
      exact prefix_append _ _
    | bounced _ _ => exact (prefix_append _ _).trans (prefix_append _ _)
    | paid _ _ => exact prefix_append _ _
    | opened _ _ _ => exact prefix_rfl
  | closeCallback _ => exact prefix_append _ _
  | outside move => exact move.logs_eq ▸ prefix_rfl
  | enter _ => exact prefix_rfl
  | exit _ => exact prefix_rfl

end Logs

theorem Trace.logs_ordered (h : Trace π σ) :
    σ.blocks.Pairwise (fun a b => a.logs <+: b.logs) ∧ ∀ s ∈ σ.blocks, s.logs <+: σ.l1.logs :=
  h.ordered (R := fun a b => a.logs <+: b.logs) (fun _ => prefix_rfl) List.IsPrefix.trans
    (fun _ _ => nil_prefix) fun hstep => hstep.logs_prefix

theorem Trace.tokensRecorded (h : Trace π σ) :
    TokensRecorded σ.l1 ∧ ∀ s ∈ σ.blocks, TokensRecorded s :=
  h.blockwise (tokensRecorded_fresh π.self) Initial.tokensRecorded fun _ hs hstep =>
    hs.step hstep.registryStep

/-! ## Tokens of the zone -/

section Zone

variable {zctx : ZoneCtx W} {z z' : Zone W} {entries : List (QueueEntry W)}
  {tokens : List EnabledToken}

def TokensChained (z : Zone W) : Prop :=
  z.inbox.processedTokenEnablementHash =
    prefixChain EnabledToken.hashWithPrevious 0 z.history.processedTokens

section

variable (h : Advanced zctx z entries tokens z')
include h

theorem Advanced.tokens_eq : z'.history.processedTokens = z.history.processedTokens ++ tokens := by
  cases h with
  | mk _ _ _ _ path _ _ =>
    have htokens := path.keeps (f := fun z => z.history.processedTokens)
      (fun step => by cases step <;> rfl)
    exact htokens

theorem Advanced.tokenHash_eq :
    z'.inbox.processedTokenEnablementHash = prefixChain EnabledToken.hashWithPrevious
      z.inbox.processedTokenEnablementHash tokens := by
  cases h with
  | mk _ _ _ _ path _ _ =>
    have hhash := path.keeps (f := fun z => z.inbox.processedTokenEnablementHash)
      (fun step => by cases step <;> rfl)
    exact hhash

theorem Advanced.tokensChained (hz : TokensChained z) : TokensChained z' := by
  rw [TokensChained, h.tokens_eq, h.tokenHash_eq, prefixChain_append, ← hz]

end

theorem ZoneStep.tokensChained (h : ZoneStep zctx z z') (hz : TokensChained z) :
    TokensChained z' := by
  cases h with
  | advanced step => exact step.tokensChained hz
  | _ => exact hz

theorem Trace.tokensChained (h : Trace π σ) : TokensChained σ.zone :=
  h.zonewise (fun _ _ => rfl) fun hz hstep => hstep.tokensChained hz

theorem Advanced.token_sequence (hc : CollisionFree W) (h : Advanced zctx z entries tokens z')
    {blocks : List (L1 W)} (reads : ReadsFrom π blocks zctx)
    (recorded : ∀ s ∈ blocks, TokensRecorded s) (hz : TokensChained z) :
    ∃ s, blocks[z'.tempo.tempoBlockNumber]? = some s ∧
      z'.history.processedTokens = tokenEnablements s.logs ∧
      TokenCount s.portal z.inbox.processedEnabledTokenCount tokens.length
        z'.inbox.processedEnabledTokenCount := by
  have hz' := h.tokensChained hz
  have hhash := h.tokenHash_eq
  cases h with
  | mk later hread tokens_eq counted path entries_eq number_lt =>
    obtain ⟨s, hs, rfl⟩ := reads.reads hread
    have hnumber := congrArg TempoState.tempoBlockNumber path.cursor_eq.1
    have hcount := path.keeps (f := fun z => z.inbox.processedEnabledTokenCount)
      (fun step => by cases step <;> rfl)
    have hchains := hz'.symm.trans (hhash.trans (tokens_eq.symm.trans
      (recorded s (mem_of_getElem? hs)).hash_eq))
    refine ⟨s, (congrArg (blocks[·]?) hnumber).trans hs,
      (enabledToken_binding hc).prefixChain_injective hchains, ?_⟩
    exact Eq.subst hcount.symm counted

end Zone

/-! ## Last full import -/

/-- The zone has processed what the portal had announced at the block of its last full import. -/
inductive Imported (blocks : List (L1 W)) (z : Zone W) : Prop
  | nothing (anchor : z.history.fullAnchor = none) (processed : z.history.processed = [])
      (tokens : z.history.processedTokens = [])
  | block {n : ℕ} {s : L1 W} (anchor : z.history.fullAnchor = some n)
      (recorded : blocks[n]? = some s) (processed : z.history.processed = queueEntries s.logs)
      (tokens : z.history.processedTokens = tokenEnablements s.logs)

variable {z z' : Zone W}

theorem Imported.of_eq {blocks : List (L1 W)} (hz : Imported blocks z)
    (anchor : z'.history.fullAnchor = z.history.fullAnchor)
    (processed : z'.history.processed = z.history.processed)
    (tokens : z'.history.processedTokens = z.history.processedTokens) : Imported blocks z' := by
  cases hz with
  | nothing h₁ h₂ h₃ => exact .nothing (anchor.trans h₁) (processed.trans h₂) (tokens.trans h₃)
  | block h₁ hs h₂ h₃ => exact .block (anchor.trans h₁) hs (processed.trans h₂) (tokens.trans h₃)

theorem Advanced.imported (hc : CollisionFree W) {zctx : ZoneCtx W} {entries : List (QueueEntry W)}
    {tokens : List EnabledToken} (h : Advanced zctx z entries tokens z')
    (htrace : Trace π { σ with zone := z }) (reads : ReadsFrom π σ.blocks zctx) :
    Imported σ.blocks z' := by
  obtain ⟨s, hs, hanchor, hprocessed, -⟩ := h.sequence hc reads htrace.chained.2 htrace.zoneChained
  obtain ⟨s', hs', htokens, -⟩ :=
    h.token_sequence hc reads htrace.tokensRecorded.2 htrace.tokensChained
  obtain rfl : s = s' := Option.some.inj (hs.symm.trans hs')
  exact .block hanchor hs hprocessed htokens

theorem Trace.imported (hc : CollisionFree W) (h : Trace π σ) : Imported σ.blocks σ.zone := by
  induction h with
  | start h =>
    obtain ⟨tempo, initialized, hzone⟩ := h.zone
    rw [hzone]
    exact .nothing rfl rfl rfl
  | micro _ _ _ ih => exact ih
  | nextBlock _ ih =>
    cases ih with
    | nothing anchor processed tokens => exact .nothing anchor processed tokens
    | block anchor recorded processed tokens =>
      have hlt := (List.getElem?_eq_some_iff.1 recorded).1
      exact .block anchor ((List.getElem?_append_left hlt).trans recorded) processed tokens
  | zone before reads _ step ih =>
    cases step with
    | advanced step => exact step.imported hc before reads
    | checkpoint | claimed | requested | finalized | configured => exact ih.of_eq rfl rfl rfl

/-! ## Settled cursors -/

/-- Cursors of the zone's batches are not ahead of the zone, whose token count is not ahead of the
tokens it has enabled. -/
structure BatchesBehind (z : Zone W) : Prop where
  count_le : z.inbox.processedEnabledTokenCount ≤ z.history.processedTokens.length
  number_le : ∀ b ∈ z.history.batches, b.processedDepositNumber ≤ z.inbox.processedDepositNumber
  tokens_le : ∀ b ∈ z.history.batches,
    b.processedEnabledTokenCount ≤ z.history.processedTokens.length

/-- Cursors of the portal are not ahead of the zone. -/
structure SettledBehind (z : Zone W) (s : L1 W) : Prop where
  number_le : s.portal.deposits.lastProcessedDepositNumber ≤ z.inbox.processedDepositNumber
  tokens_le : s.portal.registry.lastProcessedEnabledTokenCount ≤ z.history.processedTokens.length

theorem Advanced.number_eq {zctx : ZoneCtx W} {entries : List (QueueEntry W)}
    {tokens : List EnabledToken} (h : Advanced zctx z entries tokens z') :
    z'.inbox.processedDepositNumber = z.inbox.processedDepositNumber + entries.length := by
  cases h
  rfl

theorem ZoneStep.progress {zctx : ZoneCtx W} (h : ZoneStep zctx z z') :
    z.inbox.processedDepositNumber ≤ z'.inbox.processedDepositNumber ∧
      z.history.processedTokens.length ≤ z'.history.processedTokens.length := by
  cases h with
  | advanced step =>
    rw [step.number_eq, step.tokens_eq, length_append]
    exact ⟨Nat.le_add_right _ _, Nat.le_add_right _ _⟩
  | _ => exact ⟨le_rfl, le_rfl⟩

theorem TokenCount.le {p : Portal W} {previous supplied count enabled : ℕ}
    (h : TokenCount p previous supplied count) (hprevious : previous ≤ enabled)
    (hportal : p.registry.enabledTokens.length ≤ enabled + supplied) :
    count ≤ enabled + supplied := by
  cases h with
  | kept => exact hprevious.trans (Nat.le_add_right _ _)
  | bootstrapped _ => exact hportal
  | grown => exact Nat.add_le_add_right hprevious _

theorem BatchesBehind.mono (hz : BatchesBehind z) (batches : z'.history.batches = z.history.batches)
    (count : z'.inbox.processedEnabledTokenCount ≤ z'.history.processedTokens.length)
    (progress : z.inbox.processedDepositNumber ≤ z'.inbox.processedDepositNumber ∧
      z.history.processedTokens.length ≤ z'.history.processedTokens.length) :
    BatchesBehind z' := by
  refine ⟨count, ?_, ?_⟩
  · intro b hb
    rw [batches] at hb
    exact (hz.number_le b hb).trans progress.1
  intro b hb
  rw [batches] at hb
  exact (hz.tokens_le b hb).trans progress.2

theorem Trace.batchesBehind (hc : CollisionFree W) (h : Trace π σ) : BatchesBehind σ.zone := by
  induction h with
  | start h =>
    obtain ⟨tempo, initialized, hzone⟩ := h.zone
    rw [hzone]
    exact ⟨le_rfl, nofun, nofun⟩
  | micro _ _ _ ih => exact ih
  | nextBlock _ ih => exact ih
  | zone before reads _ step ih =>
    have hprogress := step.progress
    cases step with
    | advanced step =>
      refine ih.mono step.batches_eq.1 ?_ hprogress
      obtain ⟨s, hs, htokens, hcount⟩ :=
        step.token_sequence hc reads before.tokensRecorded.2 before.tokensChained
      have hlisted := (before.tokensRecorded.2 s (mem_of_getElem? hs)).tokens_eq
      rw [← htokens, step.tokens_eq] at hlisted
      rw [step.tokens_eq, length_append]
      refine hcount.le ih.count_le ?_
      rw [hlisted, length_map, length_append]
    | finalized _ _ =>
      refine ⟨ih.count_le, ?_, ?_⟩
      · intro b hb
        rcases mem_append.1 hb with hb | hb
        · exact ih.number_le b hb
        · exact mem_singleton.1 hb ▸ le_rfl
      · intro b hb
        rcases mem_append.1 hb with hb | hb
        · exact ih.tokens_le b hb
        · exact mem_singleton.1 hb ▸ ih.count_le
    | checkpoint | claimed | requested | configured => exact ih.mono rfl ih.count_le hprogress

theorem SettledBehind.settle {ctx : CallCtx W} {sender : Address} {call : SubmitBatch W} {n : ℕ}
    {hash : W} {z : Zone W} {s : L1 W} (hz : BatchesBehind z) (hs : SettledBehind z s)
    (sound : VerifierSound z ctx.ext) (h : Accepted ctx sender s.portal call n hash) :
    SettledBehind z (s.settle ctx call n hash) := by
  obtain ⟨b, hb, hattests⟩ := sound _ h.proven
  constructor
  · show call.depositQueueTransition.nextDepositNumber ≤ _
    exact hattests.number ▸ hz.number_le b hb
  · show (s.portal.registry.advance _).lastProcessedEnabledTokenCount ≤ _
    unfold TokenRegistry.advance
    split
    · show call.tokenEnablementTransition.nextProcessedTokenCount ≤ _
      exact hattests.tokens ▸ hz.tokens_le b hb
    · exact hs.tokens_le

theorem Micro.settledBehind {ctx : CallCtx W} {s s' : L1 W} {z : Zone W} (h : Micro ctx s s')
    (hz : BatchesBehind z) (sound : VerifierSound z ctx.ext) (hs : SettledBehind z s) :
    SettledBehind z s' := by
  cases h with
  | call step =>
    cases step with
    | submitBatch accepted => exact hs.settle hz sound accepted
    | deposit _ collected _ =>
      have hportal := collected.frame.1
      exact ⟨(congrArg (·.deposits.lastProcessedDepositNumber) hportal).trans_le hs.number_le,
        (congrArg (·.registry.lastProcessedEnabledTokenCount) hportal).trans_le hs.tokens_le⟩
    | configure step => cases step <;> exact ⟨hs.number_le, hs.tokens_le⟩
    | _ => exact ⟨hs.number_le, hs.tokens_le⟩
  | withdraw _ _ disposed =>
    cases disposed with
    | refunded _ refund =>
      obtain ⟨⟨refunds, hportal⟩, -⟩ := refund.frame
      exact ⟨by rw [hportal]; exact hs.number_le, by rw [hportal]; exact hs.tokens_le⟩
    | _ => exact ⟨hs.number_le, hs.tokens_le⟩
  | outside move =>
    have hportal := move.portal_eq
    exact ⟨by rw [hportal]; exact hs.number_le, by rw [hportal]; exact hs.tokens_le⟩
  | _ => exact ⟨hs.number_le, hs.tokens_le⟩

theorem Trace.settledBehind (hc : CollisionFree W) (hsound : π.Sound) (h : Trace π σ) :
    SettledBehind σ.zone σ.l1 ∧ ∀ s ∈ σ.blocks, SettledBehind σ.zone s := by
  refine h.zoneBlockwise (fun _ _ => ⟨Nat.zero_le _, Nat.zero_le _⟩) ?_
    (fun before admissible hs step =>
      step.settledBehind (before.batchesBehind hc) (hsound admissible.proofs) hs)
    fun step hs => ⟨hs.number_le.trans step.progress.1, hs.tokens_le.trans step.progress.2⟩
  intro z e args s hinit
  obtain ⟨enabled, -, hregistry, -⟩ := hinit.registry
  refine ⟨?_, ?_⟩
  · rw [hinit.deposits]
    exact Nat.zero_le _
  · rw [hregistry]
    exact Nat.zero_le _

end TempoZones
