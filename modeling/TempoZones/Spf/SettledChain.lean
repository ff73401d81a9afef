import TempoZones.Portal.Certificates
import TempoZones.Spf.BatchSoundness

/-!
# The settled chain

A portal whose verifier accepts only what the batch proof has proved settles one chain of valid zone
blocks: each batch names the hash of the last settled header. The first batch names the zero hash,
and the batch proof accepts it on any parent header numbered zero. The chain starts at the zone's
genesis header when the witness of the first batch does (`settled_chain_rooted`), and only then
(`forged_genesis_settles`).
-/

namespace TempoZones

open Lib List

variable {W : Type} [EvmWord W] [DecidableEq W]

def VerifyCall.output (v : VerifyCall W) : Spf.BatchOutput W where
  nextZoneHeight := v.nextZoneHeight
  blockTransition := v.blockTransition
  depositQueueTransition := v.depositQueueTransition
  tokenEnablementTransition := v.tokenEnablementTransition
  withdrawalQueueHash := v.withdrawalQueueHash
  withdrawalBatchIndex := v.expectedWithdrawalBatchIndex

def AcceptedBatch.verified (b : AcceptedBatch W) : VerifyCall W where
  zoneId := b.gov.zoneId
  tempoBlockNumber := b.call.tempoBlockNumber
  anchorBlockNumber := b.anchorBlockNumber
  anchorBlockHash := b.anchorBlockHash
  expectedWithdrawalBatchIndex := b.batchIndex
  nextZoneHeight := b.call.nextZoneHeight
  blockTransition := b.call.blockTransition
  depositQueueTransition := b.call.depositQueueTransition
  tokenEnablementTransition := b.call.tokenEnablementTransition
  withdrawalQueueHash := b.call.withdrawalQueueHash
  verifierConfig := b.call.verifierConfig
  proof := b.call.proof

namespace Spf.Machine

variable (m : Machine W)

/-- The batch proof accepts the witness and reports exactly the values of the call. -/
structure Backs (config : SpfConfig W) (witness : BatchWitness m) (v : VerifyCall W) : Prop where
  proved : m.proveZoneBatch config witness = .ok v.output
  zone : witness.publicInputs.zoneId = v.zoneId
  tempo : witness.publicInputs.tempoBlockNumber = v.tempoBlockNumber
  anchor_number : witness.publicInputs.anchorBlockNumber = v.anchorBlockNumber
  anchor_hash : witness.publicInputs.anchorBlockHash = v.anchorBlockHash

def VerifierBacked (config : SpfConfig W) (ctx : CallCtx W) : Prop :=
  ∀ v, ctx.ext.verify v = true → ∃ witness, m.Backs config witness v

/-- The verifier accepts only what is backed by a witness, and by one on the zone's genesis header for
a call that names the zero hash. -/
def VerifierRooted (config : SpfConfig W) (ctx : CallCtx W) : Prop :=
  ∀ v, ctx.ext.verify v = true → ∃ witness, m.Backs config witness v ∧
    (v.blockTransition.prevBlockHash = 0 → witness.parentHeader = config.genesisHeader)

/-! ## Chains of headers -/

/-- Valid blocks one after the other, each on some state that the header before it commits to. -/
inductive Chain (commit : m.ZoneState → W) (config : SpfConfig W) :
    ZoneHeader W → List (WitnessBlock W) → ZoneHeader W → Prop
  | nil (parent : ZoneHeader W) : Chain commit config parent [] parent
  | cons {parent header last : ZoneHeader W} {s s' : m.ZoneState} {block : WitnessBlock W}
      {blocks : List (WitnessBlock W)} (opened : commit s = parent.stateRoot)
      (first : m.ValidBlock commit config parent s block header s')
      (tail : Chain commit config header blocks last) :
      Chain commit config parent (block :: blocks) last

/-- The cursors are the values that the last settled header carries and commits to. -/
structure CursorsAt (commit : m.ZoneState → W) (c : SettlementCursors W) (last : ZoneHeader W) :
    Prop where
  hash_eq : c.batches.blockHash = last.hashSlow
  height_eq : c.batches.zoneHeight = last.number
  index_eq : ∃ index, CommittedNat commit last.stateRoot .withdrawalBatchIndex index ∧
    c.batches.withdrawalBatchIndex = uint64 index
  checkpoint_eq : CommittedNat commit last.stateRoot .tempoBlockNumber
    c.batches.lastSyncedTempoBlockNumber
  deposits_eq : CommittedNat commit last.stateRoot .processedDepositNumber c.deposits
  tokens_eq : CommittedNat commit last.stateRoot .processedEnabledTokenCount c.tokens

variable {m} {commit : m.ZoneState → W} {config : SpfConfig W}

section Chain

variable {parent last last' : ZoneHeader W} {blocks more : List (WitnessBlock W)}
  {s s' : m.ZoneState}

theorem Replays.chain (h : m.Replays commit config parent s blocks last s')
    (opened : commit s = parent.stateRoot) : m.Chain commit config parent blocks last := by
  induction h with
  | nil => exact .nil _
  | cons first _ ih => exact .cons opened first (ih first.committed)

section

variable (h : m.Chain commit config parent blocks last)
include h

theorem Chain.append (h' : m.Chain commit config last more last') :
    m.Chain commit config parent (blocks ++ more) last' := by
  induction h with
  | nil => exact h'
  | cons opened first _ ih => exact .cons opened first (ih h')

theorem Chain.number_eq : last.number = parent.number + blocks.length := by
  induction h with
  | nil => rfl
  | cons _ first _ ih =>
    rw [ih, first.next, length_cons]
    omega

theorem Chain.parentHash_eq (one : last.number = parent.number + 1) :
    last.parentHash = parent.hashSlow := by
  have hlength : blocks.length = 1 := by
    have := h.number_eq
    omega
  obtain ⟨block, rfl⟩ := length_eq_one_iff.1 hlength
  cases h with
  | cons _ first tail =>
    cases tail
    exact first.linked

end

end Chain

/-! ## Settlement -/

/-- The accepted batches are backed by witnesses whose blocks form one chain from genesis, and the
cursors stand at its end. -/
structure SettledChain (commit : m.ZoneState → W) (config : SpfConfig W) (s : L1 W)
    (witnesses : List (BatchWitness m)) (last : ZoneHeader W) : Prop where
  backed : List.Forall₂ (m.Backs config) witnesses (s.history.accepted.map (·.verified))
  rooted : ∀ witness, witnesses.head? = some witness → witness.parentHeader = config.genesisHeader
  chain : m.Chain commit config config.genesisHeader
    (witnesses.flatMap (·.zoneBlocks)) last
  unsettled : witnesses = [] → s.cursors.batches.blockHash = 0
  settled : witnesses ≠ [] → m.CursorsAt commit s.cursors last

section Step

variable {ctx : CallCtx W} {s s' : L1 W} {witnesses : List (BatchWitness m)} {last : ZoneHeader W}

theorem SettledChain.of_eq (hs : SettledChain commit config s witnesses last)
    (cursors : s'.cursors = s.cursors) (accepted : s'.history.accepted = s.history.accepted) :
    SettledChain commit config s' witnesses last where
  backed := accepted ▸ hs.backed
  rooted := hs.rooted
  chain := hs.chain
  unsettled := cursors ▸ hs.unsettled
  settled := cursors ▸ hs.settled

theorem SettledChain.parent_eq (hc : CollisionFree W) (lawful : m.Lawful commit)
    (hs : SettledChain commit config s witnesses last) {v : VerifyCall W} {witness : BatchWitness m}
    (backs : m.Backs config witness v)
    (rooted : v.blockTransition.prevBlockHash = 0 → witness.parentHeader = config.genesisHeader)
    (chained : v.blockTransition.prevBlockHash = s.portal.batches.blockHash) :
    witness.parentHeader = last := by
  by_cases hnil : witnesses = []
  · subst hnil
    have hlast : last = config.genesisHeader := by
      cases hs.chain
      rfl
    rw [hlast]
    exact rooted (chained.trans (hs.unsettled rfl))
  · -- a settled portal holds the hash of the last header, which is not the zero sentinel
    have hprevious : v.blockTransition.prevBlockHash = last.hashSlow :=
      chained.trans (hs.settled hnil).hash_eq
    obtain ⟨s₀, s₁, last', hsound⟩ := proveZoneBatch_sound hc lawful backs.proved
    have hreported : v.blockTransition.prevBlockHash = _ := hsound.previous_hash
    split at hreported
    · exact absurd (hprevious.symm.trans hreported) (ZoneHeader.hashSlow_ne_zero hc _)
    · exact ZoneHeader.hashSlow_injective hc (hreported.symm.trans hprevious)

theorem SettledChain.settle (hc : CollisionFree W) (lawful : m.Lawful commit)
    (hs : SettledChain commit config s witnesses last) {sender : Address} {call : SubmitBatch W}
    {n : ℕ} {hash : W} (accepted : Accepted ctx sender s.portal call n hash)
    {witness : BatchWitness m} (backs : m.Backs config witness (s.portal.verifyCall call n hash))
    (rooted : call.blockTransition.prevBlockHash = 0 →
      witness.parentHeader = config.genesisHeader) :
    ∃ last', SettledChain commit config (s.settle ctx call n hash) (witnesses ++ [witness])
      last' := by
  have hparent : witness.parentHeader = last := hs.parent_eq hc lawful backs rooted accepted.chained
  obtain ⟨s₀, s₁, last', hsound⟩ := proveZoneBatch_sound hc lawful backs.proved
  have hreports := hsound.reports lawful
  have hchain := hsound.replays.chain hsound.opened
  rw [hparent] at hchain
  refine ⟨last', ?_, ?_, ?_, ?_, ?_⟩
  · rw [settle_accepted, map_append]
    exact rel_append hs.backed (.cons backs .nil)
  · intro w hw
    cases witnesses with
    | nil =>
      cases hw
      exact hparent.trans (by cases hs.chain; rfl)
    | cons first rest =>
      cases hw
      exact hs.rooted _ rfl
  · rw [flatMap_append, flatMap_singleton]
    exact hs.chain.append hchain
  · intro hnil
    exact absurd hnil (append_ne_nil_of_right_ne_nil _ (cons_ne_nil _ _))
  intro _
  rw [settle_cursors]
  have hcheckpoint := hreports.checkpoint
  rw [backs.tempo] at hcheckpoint
  exact
    { hash_eq := hsound.next_hash
      height_eq := hsound.next_height
      index_eq := hreports.batch_index
      checkpoint_eq := hcheckpoint
      deposits_eq := hreports.next_number
      tokens_eq := hreports.next_tokens }

theorem SettledChain.step (hc : CollisionFree W) (lawful : m.Lawful commit)
    (rooted : m.VerifierRooted config ctx) (h : Micro ctx s s')
    (hs : ∃ witnesses last, SettledChain commit config s witnesses last) :
    ∃ witnesses last, SettledChain commit config s' witnesses last := by
  obtain ⟨witnesses, last, hs⟩ := hs
  rcases h.settles with ⟨hcursors, haccepted⟩ | ⟨sender, call, n, hash, haccepted, rfl⟩
  · exact ⟨witnesses, last, hs.of_eq hcursors haccepted⟩
  obtain ⟨witness, hbacks, hrooted⟩ := rooted _ haccepted.proven
  obtain ⟨last', hs'⟩ := hs.settle hc lawful haccepted hbacks hrooted
  exact ⟨_, last', hs'⟩

end Step

/-- In every run in which a batch that names the zero hash is proved on the zone's genesis header, the
settled blocks form one chain of valid blocks from that header, and the cursors of the portal are the
values at its end. -/
theorem settled_chain_rooted (hc : CollisionFree W) (lawful : m.Lawful commit) {e : BlockEnv}
    {s : L1 W} (h : Reached (m.VerifierRooted config) e s) :
    ∃ witnesses last, SettledChain commit config s witnesses last := by
  refine h.invariant
    (I := fun _ s => ∃ witnesses last, SettledChain commit config s witnesses last) ?_
    (fun _ hs => hs) ?_
  · intro e args self s hinit
    refine ⟨[], config.genesisHeader, ?_, nofun, .nil _, ?_, fun hne => absurd rfl hne⟩
    · rw [hinit.accepted]
      exact .nil
    · intro _
      show s.portal.batches.blockHash = 0
      rw [hinit.batches]
      rfl
  · exact fun rooted hs hstep => SettledChain.step hc lawful rooted hstep hs

end Spf.Machine

end TempoZones

/-! ## Concrete runs

The first batch of the example zone, proved on a parent header and state and settled in block 8: once
on the genesis header, and once on a header of the same number that commits to a forged state. -/

namespace TempoZones.Example

open Lib Spf

section Batch

variable (parent : ZoneHeader Sym) (z : Zone Sym)

def firstSubmission : SubmitBatch Sym :=
  { submission with
    blockTransition := (firstOutput parent z).blockTransition
    nextZoneHeight := 1 }

def hash7 : Sym := keccak256 [.raw [7]]

def firstDigest : Sym :=
  (deposited.portal.attestation (firstSubmission parent z) 7 hash7).digest ⟨env8, ext⟩

def firstCtx : CallCtx Sym :=
  ⟨env8, { ext with
    recover := fun digest signature =>
      if digest = firstDigest parent z then signer signature else none
    verify := fun v => decide (v.output = firstOutput parent z ∧ v.zoneId = 1 ∧
      v.tempoBlockNumber = 7 ∧ v.anchorBlockNumber = 7 ∧ v.anchorBlockHash = hash7)
    getBlockHash := fun _ => hash7 }⟩

def firstSettled : L1 Sym := deposited.settle (firstCtx parent z) (firstSubmission parent z) 7 hash7

variable {parent z}

theorem firstCtx_backed
    (proved : (zoneMachine surroundings).proveZoneBatch spfConfig (firstWitness parent z) =
      .ok (firstOutput parent z)) {v : VerifyCall Sym}
    (h : (firstCtx parent z).ext.verify v = true) :
    (zoneMachine surroundings).Backs spfConfig (firstWitness parent z) v := by
  obtain ⟨houtput, hzone, htempo, hnumber, hhash⟩ := of_decide_eq_true h
  exact ⟨by rw [houtput]; exact proved, hzone.symm, htempo.symm, hnumber.symm, hhash.symm⟩

theorem firstSubmission_certified :
    deposited.portal.verifySettlement (firstCtx parent z) (firstSubmission parent z) 7 hash7 =
      true := by
  have hrecover : ∀ signature,
      (firstCtx parent z).ext.recover (firstDigest parent z) signature = signer signature :=
    fun _ => if_pos rfl
  have hdigest : (deposited.portal.attestation (firstSubmission parent z) 7 hash7).digest
      (firstCtx parent z) = firstDigest parent z := rfl
  have hguard : ¬ ((firstSubmission parent z).nextZoneHeight ≤ deposited.portal.batches.zoneHeight ∨
      (firstSubmission parent z).signatures.length < deposited.portal.gov.sequencerThreshold ∨
      (firstSubmission parent z).signatures.length > deposited.portal.gov.sequencers.length) := by
    show ¬ (1 ≤ 0 ∨ 2 < 2 ∨ 2 > 2)
    omega
  rw [Portal.verifySettlement, if_neg hguard, hdigest, Bool.and_eq_true]
  exact ⟨signatures_pass (hrecover _) (hrecover _), decide_eq_true (le_refl 2)⟩

theorem firstSubmission_settles :
    deposited.submitBatch (firstCtx parent z) 1 (firstSubmission parent z) =
      .ok (firstSettled parent z) := by
  have hproven : (firstCtx parent z).ext.verify
      (deposited.portal.verifyCall (firstSubmission parent z) 7 hash7) = true :=
    decide_eq_true ⟨rfl, rfl, rfl, rfl, rfl⟩
  simp only [L1.submitBatch, DepositCursor.checkTransition, TokenRegistry.checkTransition,
    ok_iff, checkedAdd_eq_ok]
  exact ⟨(), by decide, (), rfl, (7, hash7), rfl, (), firstSubmission_certified, (),
    by simp only [firstSubmission]; decide, (),
    ⟨(), by simp only [firstSubmission]; decide, by simp only [firstSubmission]; decide⟩, 1,
    ⟨by decide, rfl⟩, (), hproven, rfl⟩

theorem firstSettled_reached {P : CallCtx Sym → Prop} (hstart : P ctx) (hkey : P keyCtx)
    (hfirst : P (firstCtx parent z)) : Reached P env8 (firstSettled parent z) := by
  have hoff : (1 : Address) ≠ (firstCtx parent z).ext.self := by
    show (1 : Address) ≠ 100
    decide
  have horder : env.NotAfter env8 := ⟨by decide, by decide⟩
  have hdeposited : Later P env start env deposited :=
    .tx (.refl _ _) (.refl _) hkey deposits_control
  have hsettled : Later P env start env8 (firstSettled parent z) :=
    .tx hdeposited horder hfirst
      (.call (c := .submitBatch (firstSubmission parent z)) (.refl _) hoff firstSubmission_settles)
  exact ⟨env, start, started hstart, env8, firstSettled parent z, firstCtx parent z, hsettled,
    .refl _, hfirst, rfl, .reached (.refl _)⟩

end Batch

theorem settled_chain_rooted_genesis :
    ∃ witnesses last, Machine.SettledChain (m := zoneMachine surroundings) surroundings.root
      spfConfig (firstSettled genesisHeader spfGenesis) witnesses last := by
  have hrooted : (zoneMachine surroundings).VerifierRooted spfConfig
      (firstCtx genesisHeader spfGenesis) :=
    fun v hv => ⟨_, firstCtx_backed genesis_batch_proved hv, fun _ => rfl⟩
  exact Machine.settled_chain_rooted Sym.collisionFree machine_lawful
    (firstSettled_reached nofun nofun hrooted)

def forgedGenesis : Zone Sym :=
  { spfGenesis with tokens := { spfGenesis.tokens with supply := fun _ => 1000000 } }

def forgedHeader : ZoneHeader Sym :=
  { genesisHeader with stateRoot := surroundings.root forgedGenesis }

theorem forged_batch_proved : (zoneMachine surroundings).proveZoneBatch spfConfig
    (firstWitness forgedHeader forgedGenesis) = .ok (firstOutput forgedHeader forgedGenesis) :=
  eq_ok_of_toOption (by decide +kernel)

/-- The portal settles a block on the forged header, and no chain of valid blocks from genesis ends
there. -/
theorem forged_genesis_settles :
    Reached ((zoneMachine surroundings).VerifierBacked spfConfig) env8
        (firstSettled forgedHeader forgedGenesis) ∧
      ¬ ∃ blocks last, Machine.Chain (zoneMachine surroundings) surroundings.root spfConfig
        spfConfig.genesisHeader blocks last ∧
        (firstSettled forgedHeader forgedGenesis).portal.batches.blockHash = last.hashSlow := by
  constructor
  · exact firstSettled_reached nofun nofun
      fun v hv => ⟨_, firstCtx_backed forged_batch_proved hv⟩
  · rintro ⟨blocks, last, hchain, hhash⟩
    obtain rfl : headerOne forgedHeader forgedGenesis = last :=
      ZoneHeader.hashSlow_injective Sym.collisionFree hhash
    have hparent : forgedHeader.hashSlow = genesisHeader.hashSlow := hchain.parentHash_eq rfl
    have hheader := ZoneHeader.hashSlow_injective Sym.collisionFree hparent
    have hroot : surroundings.root forgedGenesis = surroundings.root spfGenesis :=
      congrArg (fun h : ZoneHeader Sym => h.stateRoot) hheader
    exact absurd hroot (by decide +kernel)

end TempoZones.Example
