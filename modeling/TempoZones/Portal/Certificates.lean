import TempoZones.Portal.Roles

/-!
# Settlement certificates

Every accepted batch carries valid signatures of distinct current sequencers over a digest that
determines the attested values (`SettlementAttestation.digest_injective`). The accepted batches form
a chain with consecutive batch indices and increasing zone heights, so no digest and no signature is
accepted twice. `Unforgeable origin ext` idealises signature recovery.
-/

namespace TempoZones

open Lib List SettlementAttestation

variable {W : Type} [EvmWord W] [DecidableEq W] {anchorBlockNumber : ℕ}

/-- Signatures recover only to the address and digest they were made by and over. -/
def Unforgeable (origin : Bytes → Option (Address × W)) (ctx : CallCtx W) : Prop :=
  ∀ digest signature signer, ctx.ext.recover digest signature = some signer →
    origin signature = some (signer, digest)

def AcceptedBatch.attestation (b : AcceptedBatch W) : SettlementAttestation W where
  zoneId := b.gov.zoneId
  sequencerSetVersion := b.gov.sequencerSetVersion
  zoneHeight := b.call.nextZoneHeight
  withdrawalBatchIndex := b.batchIndex
  verifier := b.gov.verifier
  tempoBlockNumber := b.call.tempoBlockNumber
  anchorBlockNumber := b.anchorBlockNumber
  anchorBlockHash := b.anchorBlockHash
  blockTransition := b.call.blockTransition
  depositQueueTransition := b.call.depositQueueTransition
  tokenEnablementTransition := b.call.tokenEnablementTransition
  withdrawalQueueHash := b.call.withdrawalQueueHash
  verifierConfig := b.call.verifierConfig

/-- Certificate of an accepted batch: at least `sequencerThreshold` signatures, each by a different
sequencer of the accepting state, over the digest of the attested values. -/
structure Certified (origin : Bytes → Option (Address × W)) (b : AcceptedBatch W) : Prop where
  digest_eq : ∃ ctx : CallCtx W, b.digest = b.attestation.digest ctx
  threshold_pos : 1 ≤ b.gov.sequencerThreshold
  threshold : b.gov.sequencerThreshold ≤ b.call.signatures.length
  signers : ∃ signers : List Address, signers.Nodup ∧
    (∀ a ∈ signers, a ≠ 0 ∧ b.gov.isSequencer a) ∧
    List.Forall₂ (fun signature a => origin signature = some (a, b.digest))
      b.call.signatures signers

structure Follows (b b' : AcceptedBatch W) : Prop where
  chained : b'.call.blockTransition.prevBlockHash = b.call.blockTransition.nextBlockHash
  index : b'.batchIndex = b.batchIndex + 1
  height : b.call.nextZoneHeight < b'.call.nextZoneHeight

/-- Batch cursor after a possibly empty list of accepted batches with the given last element. -/
def cursorAfter : Option (AcceptedBatch W) → BatchCursor W
  | none => (Portal.empty : Portal W).batches
  | some b =>
    { withdrawalBatchIndex := b.batchIndex, blockHash := b.call.blockTransition.nextBlockHash
      zoneHeight := b.call.nextZoneHeight
      lastSyncedTempoBlockNumber := b.call.tempoBlockNumber }

/-- The accepted batches are certified, form a chain and end at the portal's batch cursor. -/
structure SettlementChain (origin : Bytes → Option (Address × W)) (s : L1 W) : Prop where
  certified : ∀ b ∈ s.history.accepted, Certified origin b
  chain : s.history.accepted.IsChain Follows
  first : ∀ b, s.history.accepted.head? = some b →
    b.batchIndex = 1 ∧ b.call.blockTransition.prevBlockHash = 0
  cursor : s.portal.batches = cursorAfter s.history.accepted.getLast?

/-- Where settlement stands: the batch cursor, and the numbers of deposits and tokens processed. -/
structure SettlementCursors (W : Type) where
  batches : BatchCursor W
  deposits : ℕ
  tokens : ℕ

def TokenRegistry.cursor (r : TokenRegistry W) : ℕ :=
  if r.tokenEnablementCursorInitialized then r.lastProcessedEnabledTokenCount else 0

def Portal.cursors (p : Portal W) : SettlementCursors W :=
  ⟨p.batches, p.deposits.lastProcessedDepositNumber, p.registry.cursor⟩

def L1.cursors (s : L1 W) : SettlementCursors W := s.portal.cursors

/-! ## The digest -/

theorem SettlementAttestation.structHash_injective (hc : CollisionFree W) :
    Function.Injective (structHash (W := W)) := by
  rintro ⟨⟩ ⟨⟩ h
  have h' := Codec.encode_injective _ (hc.keccak_inj h)
  simp only [Prod.mk.injEq, and_true, true_and] at h'
  obtain ⟨rfl, rfl, rfl, rfl, rfl, rfl, rfl, rfl, hblock, hdeposit, htoken, rfl, hconfig⟩ := h'
  have hblock := Codec.encode_injective _ (hc.keccak_inj hblock)
  have hdeposit := Codec.encode_injective _ (hc.keccak_inj hdeposit)
  have htoken := Codec.encode_injective _ (hc.keccak_inj htoken)
  have hconfig := hc.keccak_inj hconfig
  simp only [List.cons.injEq, Chunk.raw.injEq, and_true] at hconfig
  subst hblock hdeposit htoken hconfig
  rfl

theorem SettlementAttestation.digest_injective (hc : CollisionFree W) {ctx ctx' : CallCtx W}
    {a a' : SettlementAttestation W} (h : a.digest ctx = a'.digest ctx') : a = a' := by
  have h' := hc.keccak_inj h
  simp only [List.cons.injEq, Chunk.word.injEq, and_true, true_and] at h'
  exact structHash_injective hc h'.2

/-! ## The signature loop -/

theorem checkSignatures_ok {g : Governance} {recover : W → Bytes → Option Address} {digest : W}
    {signatures : List Bytes} :
    ∀ {recovered : List Address}, checkSignatures g recover digest recovered signatures = true →
      ∃ signers : List Address, signers.Nodup ∧ (∀ a ∈ signers, a ∉ recovered) ∧
        (∀ a ∈ signers, a ≠ 0 ∧ g.isSequencer a) ∧
        List.Forall₂ (fun signature a => recover digest signature = some a) signatures signers := by
  induction signatures with
  | nil => exact fun _ => ⟨[], nodup_nil, by simp, by simp, .nil⟩
  | cons signature rest ih =>
    intro recovered h
    simp only [checkSignatures] at h
    split at h
    · cases h
    · next signer hsigner =>
      split at h
      · cases h
      · next hvalid =>
        split at h
        · cases h
        · next hfresh =>
          obtain ⟨signers, hnodup, hnew, hmember, hrecover⟩ := ih h
          simp only [not_or, not_not] at hvalid
          refine ⟨signer :: signers, nodup_cons.2 ⟨fun hmem => ?_, hnodup⟩, ?_,
            forall_mem_cons.2 ⟨hvalid, hmember⟩, .cons hsigner hrecover⟩
          · exact hnew signer hmem (by simp)
          · refine forall_mem_cons.2 ⟨hfresh, fun a ha hmem => hnew a ha ?_⟩
            exact mem_append_left _ hmem

theorem Portal.verifySettlement_ok {p : Portal W} {ctx : CallCtx W} {call : SubmitBatch W}
    {anchorBlockHash : W} (h : p.verifySettlement ctx call anchorBlockNumber anchorBlockHash = true) :
    p.batches.zoneHeight < call.nextZoneHeight ∧ p.gov.sequencerThreshold ≤ call.signatures.length ∧
      checkSignatures p.gov ctx.ext.recover
        ((p.attestation call anchorBlockNumber anchorBlockHash).digest ctx) [] call.signatures =
          true := by
  unfold verifySettlement at h
  split at h
  · cases h
  · next hsize =>
    simp only [not_or, not_le, not_lt] at hsize
    simp only [Bool.and_eq_true] at h
    exact ⟨hsize.1, hsize.2.1, h.1⟩

/-! ## Every run -/

section Run

variable {ctx : CallCtx W} {s s' : L1 W} {origin : Bytes → Option (Address × W)}

theorem Micro.settles (h : Micro ctx s s') :
    (s'.cursors = s.cursors ∧ s'.history.accepted = s.history.accepted) ∨
    ∃ sender call anchorBlockNumber anchorBlockHash,
      Accepted ctx sender s.portal call anchorBlockNumber anchorBlockHash ∧
      s' = s.settle ctx call anchorBlockNumber anchorBlockHash := by
  cases h with
  | call step =>
    cases step with
    | configure step => cases step <;> exact .inl ⟨rfl, rfl⟩
    | deposit _ collected _ =>
      obtain ⟨heq, -, -, haccepted⟩ := collected.frame
      have hcursors := congrArg Portal.cursors heq
      exact .inl ⟨hcursors, haccepted⟩
    | submitBatch accepted => exact .inr ⟨_, _, _, _, accepted, rfl⟩
    | _ => exact .inl ⟨rfl, rfl⟩
  | withdraw _ _ disposed =>
    cases disposed with
    | refunded _ refund =>
      obtain ⟨⟨refunds, heq⟩, -, -, haccepted⟩ := refund.frame
      have hcursors := congrArg Portal.cursors heq
      exact .inl ⟨hcursors, haccepted⟩
    | _ => exact .inl ⟨rfl, rfl⟩
  | outside move => exact .inl ⟨congrArg Portal.cursors move.portal_eq, move.accepted_eq⟩
  | _ => exact .inl ⟨rfl, rfl⟩

theorem settle_cursors (call : SubmitBatch W) (anchorBlockNumber : ℕ) (anchorBlockHash : W) :
    (s.settle ctx call anchorBlockNumber anchorBlockHash).cursors =
      { batches :=
          { withdrawalBatchIndex := s.portal.batches.withdrawalBatchIndex + 1
            blockHash := call.blockTransition.nextBlockHash
            zoneHeight := call.nextZoneHeight
            lastSyncedTempoBlockNumber := call.tempoBlockNumber }
        deposits := call.depositQueueTransition.nextDepositNumber
        tokens := call.tokenEnablementTransition.nextProcessedTokenCount } := by
  have htokens : (s.portal.registry.advance call.tokenEnablementTransition).cursor =
      call.tokenEnablementTransition.nextProcessedTokenCount := by
    unfold TokenRegistry.advance
    split
    · rfl
    · next hkept =>
      -- an uninitialized cursor that stays so has seen no token
      simp only [not_or, not_not, Bool.not_eq_true] at hkept
      rw [TokenRegistry.cursor, hkept.1, hkept.2]
      rfl
  simp only [L1.cursors, Portal.cursors, L1.settle, L1.emit, htokens]

def acceptedRecord (ctx : CallCtx W) (p : Portal W) (call : SubmitBatch W)
    (anchorBlockNumber : ℕ) (anchorBlockHash : W) : AcceptedBatch W :=
  { call := call, anchorBlockNumber := anchorBlockNumber, anchorBlockHash := anchorBlockHash
    digest := (p.attestation call anchorBlockNumber anchorBlockHash).digest ctx
    batchIndex := p.batches.withdrawalBatchIndex + 1, gov := p.gov }

theorem settle_accepted (call : SubmitBatch W) (anchorBlockNumber : ℕ) (anchorBlockHash : W) :
    (s.settle ctx call anchorBlockNumber anchorBlockHash).history.accepted = s.history.accepted ++
        [acceptedRecord ctx s.portal call anchorBlockNumber anchorBlockHash] := rfl

theorem Accepted.isCertified {sender : Address} {call : SubmitBatch W} {anchorBlockHash : W}
    (sound : Unforgeable origin ctx) (hc : Coherent s.portal.gov)
    (h : Accepted ctx sender s.portal call anchorBlockNumber anchorBlockHash) :
    Certified origin (acceptedRecord ctx s.portal call anchorBlockNumber anchorBlockHash) := by
  obtain ⟨-, hthreshold, hcheck⟩ := Portal.verifySettlement_ok h.certified
  obtain ⟨signers, hnodup, -, hmember, hrecover⟩ := checkSignatures_ok hcheck
  exact ⟨⟨ctx, rfl⟩, hc.threshold_pos, hthreshold, signers, hnodup, hmember,
    hrecover.imp fun signature a => sound _ signature a⟩

theorem SettlementChain.step (hc : Coherent s.portal.gov) (hs : SettlementChain origin s)
    (sound : Unforgeable origin ctx) (h : Micro ctx s s') : SettlementChain origin s' := by
  rcases h.settles with ⟨hcursors, haccepted⟩ | ⟨sender, call, n, hash, haccept, rfl⟩
  · obtain ⟨hcertified, hchain, hfirst, hcursor⟩ := hs
    rw [← haccepted] at hcertified hchain hfirst hcursor
    have hbatches : s'.portal.batches = s.portal.batches :=
      congrArg SettlementCursors.batches hcursors
    exact ⟨hcertified, hchain, hfirst, hbatches.trans hcursor⟩
  · constructor
    · rw [settle_accepted]
      intro b hb
      rcases mem_append.1 hb with hb | hb
      · exact hs.certified b hb
      · obtain rfl := mem_singleton.1 hb
        exact haccept.isCertified sound hc
    · rw [settle_accepted]
      refine isChain_append.2 ⟨hs.chain, isChain_singleton _, ?_⟩
      intro b hb b' hb'
      cases hb'
      have hcursor := hs.cursor
      rw [hb] at hcursor
      have hheight := (Portal.verifySettlement_ok haccept.certified).1
      have hchained := haccept.chained
      rw [hcursor] at hheight hchained
      refine ⟨hchained, ?_, hheight⟩
      show s.portal.batches.withdrawalBatchIndex + 1 = b.batchIndex + 1
      rw [hcursor]
      rfl
    · rw [settle_accepted]
      intro b hb
      cases hlist : s.history.accepted with
      | nil =>
        have hcursor := hs.cursor
        rw [hlist] at hb hcursor
        cases hb
        have hchained := haccept.chained
        rw [hcursor] at hchained
        refine ⟨?_, hchained⟩
        show s.portal.batches.withdrawalBatchIndex + 1 = 1
        rw [hcursor]
        rfl
      | cons b₀ rest =>
        rw [hlist] at hb
        exact hs.first b (by rw [hlist]; exact hb)
    · rw [settle_accepted, List.getLast?_concat]
      rfl

variable {e : BlockEnv} {m : L1 W}

theorem Reached.settlementChain (h : Reached (Unforgeable origin) e m) :
    SettlementChain origin m := by
  refine (h.invariant (I := fun _ s => Coherent s.portal.gov ∧ SettlementChain origin s) ?_
    (fun _ hs => hs) ?_).2
  · intro e args self s hinit
    refine ⟨hinit.coherent, ?_, ?_, ?_, ?_⟩
    · simp [hinit.accepted]
    · rw [hinit.accepted]
      exact isChain_nil
    · simp [hinit.accepted]
    · rw [hinit.accepted, hinit.batches]
      rfl
  rintro ctx s s' sound ⟨hc, hs⟩ hstep
  obtain ⟨sender, logs, hgov, -⟩ := hstep.governs
  exact ⟨hc.step hgov, hs.step hc sound hstep⟩

theorem Certified.origin_of_mem {b : AcceptedBatch W} (h : Certified origin b) {signature : Bytes}
    (hmem : signature ∈ b.call.signatures) : ∃ a, origin signature = some (a, b.digest) := by
  obtain ⟨signers, -, -, hforall⟩ := h.signers
  obtain ⟨hlength, hget⟩ := forall₂_iff_get.1 hforall
  obtain ⟨i, rfl⟩ := mem_iff_get.1 hmem
  exact ⟨_, hget i i.2 (hlength ▸ i.2)⟩

theorem Follows.pairwise_index {l : List (AcceptedBatch W)} (h : l.IsChain Follows) :
    l.Pairwise fun b b' => b.batchIndex < b'.batchIndex := by
  have hchain : l.IsChain fun b b' => b.batchIndex < b'.batchIndex :=
    h.imp fun b b' hf => by
      rw [hf.index]
      exact Nat.lt_succ_self _
  exact hchain.pairwise

theorem Certified.disjoint (hc : CollisionFree W) {b b' : AcceptedBatch W}
    (h : Certified origin b) (h' : Certified origin b') (hindex : b.batchIndex ≠ b'.batchIndex) :
    b.digest ≠ b'.digest ∧ ∀ signature ∈ b.call.signatures, signature ∉ b'.call.signatures := by
  have hdigest : b.digest ≠ b'.digest := by
    intro heq
    obtain ⟨ctx, hb⟩ := h.digest_eq
    obtain ⟨ctx', hb'⟩ := h'.digest_eq
    have hattest := digest_injective hc (hb.symm.trans (heq.trans hb'))
    exact hindex (congrArg (·.withdrawalBatchIndex) hattest)
  refine ⟨hdigest, fun signature hmem hmem' => ?_⟩
  obtain ⟨a, ha⟩ := h.origin_of_mem hmem
  obtain ⟨a', ha'⟩ := h'.origin_of_mem hmem'
  rw [ha, Option.some.injEq, Prod.mk.injEq] at ha'
  exact hdigest ha'.2

/-- **Settlement certificates are sound and not replayable.** With a collision-free hash and
unforgeable signatures, in every observed state of every run:

- `submitBatch` succeeds only by adding its call to the accepted batches;
- every accepted batch has at least `sequencerThreshold ≥ 1` signatures, each by a different
  sequencer of the accepting state, over a digest from which every attested value can be read back;
- accepted batches form a chain with consecutive indices and increasing heights up to the portal's
  cursor;
- two accepted batches share neither digest nor signature, and a signature was made for exactly the
  attested values of its batch. -/
theorem settlement_certificates_sound (hc : CollisionFree W)
    (h : Reached (Unforgeable origin) e m) :
    (∀ (ctx : CallCtx W) (sender : Address) (call : SubmitBatch W) (m' : L1 W),
      m.submitBatch ctx sender call = .ok m' → ∃ b, m'.history.accepted = m.history.accepted ++ [b] ∧
        b.call = call ∧ b.gov = m.portal.gov ∧
        b.batchIndex = m.portal.batches.withdrawalBatchIndex + 1) ∧
    (∀ b ∈ m.history.accepted, Certified origin b) ∧
    (∀ (ctx ctx' : CallCtx W) (a a' : SettlementAttestation W),
      a.digest ctx = a'.digest ctx' → a = a') ∧
    m.history.accepted.IsChain Follows ∧
    (∀ b, m.history.accepted.head? = some b →
      b.batchIndex = 1 ∧ b.call.blockTransition.prevBlockHash = 0) ∧
    m.portal.batches = cursorAfter m.history.accepted.getLast? ∧
    m.history.accepted.Pairwise (fun b b' => b.digest ≠ b'.digest ∧
      ∀ signature ∈ b.call.signatures, signature ∉ b'.call.signatures) ∧
    (∀ b ∈ m.history.accepted, ∀ signature ∈ b.call.signatures, ∀ signer attestation ctx,
      origin signature = some (signer, digest ctx attestation) →
      attestation = b.attestation ∧
        attestation.sequencerSetVersion = b.gov.sequencerSetVersion) := by
  have hchain := h.settlementChain
  refine ⟨?_, hchain.certified, fun ctx ctx' a a' => digest_injective hc,
    hchain.chain, hchain.first, hchain.cursor, ?_, ?_⟩
  · intro ctx sender call m' hsubmit
    obtain ⟨n, hash, -, rfl⟩ := submitBatch_ok hsubmit
    exact ⟨_, settle_accepted call n hash, rfl, rfl, rfl⟩
  · refine (Follows.pairwise_index hchain.chain).imp_of_mem ?_
    -- a digest binds the batch index, which increases along the chain
    intro b b' hb hb' hlt
    exact (hchain.certified b hb).disjoint hc (hchain.certified b' hb') hlt.ne
  · intro b hb signature hmem signer attestation ctx horigin
    obtain ⟨a, ha⟩ := (hchain.certified b hb).origin_of_mem hmem
    obtain ⟨ctx', hdigest⟩ := (hchain.certified b hb).digest_eq
    rw [ha, Option.some.injEq, Prod.mk.injEq, hdigest] at horigin
    have heq := digest_injective hc horigin.2
    exact ⟨heq.symm, congrArg (·.sequencerSetVersion) heq.symm⟩

end Run

/-! ## The example run -/

namespace Example

def origin (signature : Bytes) : Option (Address × Sym) :=
  (signer signature).map (·, batchDigest)

theorem settleCtx_unforgeable : Unforgeable origin settleCtx := by
  intro digest signature a h
  have h' : (if digest = batchDigest then signer signature else none) = some a := h
  split at h'
  · next heq => rw [origin, h', heq, Option.map_some]
  · cases h'

theorem ctx_unforgeable : Unforgeable origin ctx := nofun

end Example

/-- The accepted batch of the example run is certified by two signatures. -/
theorem settlement_certificates_sound_example :
    Example.settled.history.accepted.length = 1 ∧
      ∀ b ∈ Example.settled.history.accepted, Certified Example.origin b :=
  ⟨rfl, (settlement_certificates_sound Sym.collisionFree
    (Example.settled_reached Example.ctx_unforgeable Example.settleCtx_unforgeable)).2.1⟩

end TempoZones
