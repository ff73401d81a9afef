import TempoZones.Sequencer.AttestationWire

/-!
# Collecting signatures

A follower answers the bytes of a proposal with the bytes of a signed attestation (`follower.rs`).
The leader's settlement manager reads the answers back and counts them up to the threshold
(`settlement_manager.rs`).
-/

namespace TempoZones.Settle

open Lib Option Nat

variable {W : Type} [EvmWord W]

/-! ## Messages -/

/-- The 32 bytes of a word and the word they stand for. With a collision-free hash there are more
words than byte strings, so reading back is a property of the words of a message (`Carries`). -/
structure WireWords (W : Type) [EvmWord W] where
  bits : W → U256
  word : U256 → W
  bits_zero : bits 0 = 0
  word_zero : word 0 = 0

def SettlementAttestation.wire (words : WireWords W) (a : SettlementAttestation W) :
    WireAttestation where
  zoneId := .ofNat _ a.zoneId
  sequencerSetVersion := .ofNat _ a.sequencerSetVersion
  zoneHeight := .ofNat _ a.zoneHeight
  withdrawalBatchIndex := .ofNat _ a.withdrawalBatchIndex
  verifier := a.verifier
  tempoBlockNumber := .ofNat _ a.tempoBlockNumber
  anchorBlockNumber := .ofNat _ a.anchorBlockNumber
  anchorBlockHash := words.bits a.anchorBlockHash
  blockTransitionHash := words.bits a.blockTransitionHash
  depositQueueTransitionHash := words.bits a.depositQueueTransitionHash
  tokenEnablementTransitionHash := words.bits a.tokenEnablementTransitionHash
  withdrawalQueueHash := words.bits a.withdrawalQueueHash
  verifierConfigHash := words.bits a.verifierConfigHash

/-- The numbers of an attestation fit their types, and its words are read back from their bytes. -/
def WireWords.Carries (words : WireWords W) (a : SettlementAttestation W) : Prop :=
  (a.wire words).statement words.word = a

def SettlementAttestation.encode (words : WireWords W) (a : SettlementAttestation W) : Bytes :=
  (a.wire words).encode

def SettlementAttestation.decode (words : WireWords W) (encoded : Bytes) :
    Option (SettlementAttestation W) :=
  (WireAttestation.decode encoded).map (·.statement words.word)

def SignedSettlementAttestation.wire (words : WireWords W) (s : SignedSettlementAttestation W) :
    WireSigned :=
  ⟨s.attestation.wire words, s.signature⟩

def SignedSettlementAttestation.encode (words : WireWords W) (s : SignedSettlementAttestation W) :
    Bytes :=
  (s.wire words).encode

def SignedSettlementAttestation.decode (words : WireWords W) (encoded : Bytes) :
    Option (SignedSettlementAttestation W) :=
  (WireSigned.decode encoded).map fun s => ⟨s.attestation.statement words.word, s.signature⟩

variable {words : WireWords W} {a : SettlementAttestation W}

theorem WireWords.Carries.decode_encode (h : words.Carries a) :
    SettlementAttestation.decode words (a.encode words) = some a := by
  rw [SettlementAttestation.decode, SettlementAttestation.encode, WireAttestation.decode_encode,
    map_some, h]

theorem WireWords.Carries.isLegacy_wire (h : words.Carries a) :
    (a.wire words).isLegacy = true ↔ a.tokenEnablementTransitionHash = 0 := by
  have htokens := congrArg SettlementAttestation.tokenEnablementTransitionHash h
  rw [WireAttestation.isLegacy, decide_eq_true_iff]
  constructor
  · intro hzero
    rw [← htokens, ← words.word_zero]
    exact congrArg words.word hzero
  · intro hzero
    rw [← words.bits_zero, ← hzero]
    rfl

/-- An attestation read with its fields shifted is another one, since no verifier configuration has
the zero hash. -/
theorem WireWords.Carries.shifted_ne (h : words.Carries a)
    (hlegacy : a.tokenEnablementTransitionHash = 0) (hconfig : a.verifierConfigHash ≠ 0) :
    (WireSigned.shifted (a.wire words)).statement words.word ≠ a := by
  intro heq
  have htokens := congrArg SettlementAttestation.tokenEnablementTransitionHash heq
  have hwithdrawals := congrArg SettlementAttestation.withdrawalQueueHash heq
  have hqueue := congrArg SettlementAttestation.withdrawalQueueHash h
  have hverifier := congrArg SettlementAttestation.verifierConfigHash h
  exact hconfig (hverifier.symm.trans (hwithdrawals.trans (hqueue.symm.trans
    (htokens.trans hlegacy))))

/-- A first block is the only one whose legacy message is not read back. -/
theorem separated_wire_iff {s : SignedSettlementAttestation W} (hlength : s.signature.length = 65)
    (h : words.Carries s.attestation) (hpos : 0 < s.attestation.zoneHeight)
    (hheight : s.attestation.zoneHeight < 2 ^ 64)
    (hindex : s.attestation.withdrawalBatchIndex < 2 ^ 64) :
    (s.wire words).Separated ↔
      (s.attestation.tokenEnablementTransitionHash = 0 → 2 ≤ s.attestation.zoneHeight) := by
  have hheightEq : (s.wire words).attestation.zoneHeight.val = s.attestation.zoneHeight :=
    mod_eq_of_lt (by omega)
  have hindexEq : (s.wire words).attestation.withdrawalBatchIndex.val =
      s.attestation.withdrawalBatchIndex :=
    mod_eq_of_lt (by omega)
  rw [WireSigned.separated_iff hlength, h.isLegacy_wire.symm, hheightEq, hindexEq]
  refine imp_congr_right fun _ => ?_
  rw [mod_eq_of_lt (by omega), div_eq_of_lt (by omega)]
  omega

/-! ## The follower -/

variable [DecidableEq W]

/-- `handle_settlement_proposal` for a decoded proposal. -/
def signProposal (sg : Signing W) (c : AttestationContext) (l1 : L1Reader W)
    (p : ZoneProvider W) (persistedHead : ℕ) (key : sg.Key) (proposal : SettlementAttestation W) :
    Except SettleError (SignedSettlementAttestation W) := do
  require (proposal.zoneHeight < 2 ^ 64) .heightTooLarge
  require (proposal.zoneHeight ≤ persistedHead) .notDurable
  let mode ← VerifierMode.ofHash proposal.verifierConfigHash
  match ← buildSettlementAttestation c l1 p proposal.zoneHeight
      (proposal.anchorBlockNumber, proposal.anchorBlockHash) mode with
  | none => .error .notABatchBoundary
  | some expected => do
      require (proposal = expected) .proposalMismatch
      .ok (.sign sg proposal c.domain key)

/-- `handle_settlement_proposal`: what the follower sends back. -/
def handleSettlementProposal (words : WireWords W) (sg : Signing W) (c : AttestationContext)
    (l1 : L1Reader W) (p : ZoneProvider W) (persistedHead : ℕ) (key : sg.Key) (encoded : Bytes) :
    Except SettleError Bytes :=
  match SettlementAttestation.decode words encoded with
  | none => .error .malformed
  | some proposal => do
      let signed ← signProposal sg c l1 p persistedHead key proposal
      .ok (signed.encode words)

/-! ## The leader -/

/-- The leader's settlement manager: its key and the addresses of the other quorum nodes. -/
structure SettlementManager (sg : Signing W) where
  context : AttestationContext
  signer : sg.Key
  addresses : ℕ → Option Address

/-- `add_signature` and its route to the pending settlement: the signature that counts for a signer,
if the message is authentic and about this attestation. -/
def SettlementManager.countedSignature {sg : Signing W} (m : SettlementManager sg)
    (words : WireWords W) (attestation : SettlementAttestation W) (follower : ℕ) (encoded : Bytes) :
    Option (Address × Bytes) := do
  let signed ← SignedSettlementAttestation.decode words encoded
  let expected ← m.addresses follower
  let signer ← signed.recoverSigner sg m.context.domain
  if signer = expected ∧ signed.attestation = attestation then some (signer, signed.signature)
  else none

def SettlementManager.collect {sg : Signing W} (m : SettlementManager sg)
    (words : WireWords W) (attestation : SettlementAttestation W) (threshold : ℕ) :
    SortedMap Address Bytes → List (ℕ × Bytes) → Except SettleError (SortedMap Address Bytes)
  | signatures, [] =>
    if signatures.length < threshold then .error .quorumPending else .ok signatures
  | signatures, message :: rest =>
    if signatures.length < threshold then
      match m.countedSignature words attestation message.1 message.2 with
      | none => m.collect words attestation threshold signatures rest
      | some (signer, signature) =>
        m.collect words attestation threshold
          (if (signatures.get? signer).isSome then signatures
          else signatures.insert signer signature) rest
    else .ok signatures

structure SettlementCertificate (W : Type) where
  height : ℕ
  digest : W
  attestation : SettlementAttestation W
  signatures : List Bytes

def SettlementManager.prepare {sg : Signing W} (m : SettlementManager sg) (words : WireWords W)
    (l1 : L1Reader W) (prepared : PreparedBatch W) (mode : VerifierMode)
    (messages : List (ℕ × Bytes)) :
    Except SettleError (SettlementCertificate W) := do
  m.context.validateSequencerSetVersion l1.portal.gov.sequencerSetVersion
  require (l1.portal.gov.sequencerThreshold ≠ 0) .zeroThreshold
  require (l1.portal.batches.zoneHeight < prepared.batch.zoneHeight) .portalAdvanced
  validateAnchor m.context.historyWindow l1 prepared
  let config : SettlementConfig :=
    ⟨l1.abi, l1.portal.gov.sequencerSetVersion, l1.portal.gov.verifier⟩
  let attestation := settlementAttestation m.context.domain config prepared mode
  let digest := m.context.domain.settlementDigest attestation
  let signatures ← m.collect words attestation l1.portal.gov.sequencerThreshold
    ((∅ : SortedMap Address Bytes).insert (sg.address m.signer) (sg.sign m.signer digest)) messages
  .ok ⟨prepared.batch.zoneHeight, digest, attestation, signatures.entries.map Prod.snd⟩

/-- The answer to a proposal counts exactly if it is read back. -/
theorem countedSignature_sign_iff {sg : Signing W} {mgr : SettlementManager sg} {follower : ℕ}
    {key : sg.Key} (hpeer : mgr.addresses follower = some (sg.address key)) (h : words.Carries a)
    (hconfig : a.verifierConfigHash ≠ 0) (hpos : 0 < a.zoneHeight) (hheight : a.zoneHeight < 2 ^ 64)
    (hindex : a.withdrawalBatchIndex < 2 ^ 64) :
    mgr.countedSignature words a follower
        ((SignedSettlementAttestation.sign sg a mgr.context.domain key).encode words) =
      some (sg.address key, sg.sign key (mgr.context.domain.settlementDigest a)) ↔
    (a.tokenEnablementTransitionHash = 0 → 2 ≤ a.zoneHeight) := by
  let signed := SignedSettlementAttestation.sign sg a mgr.context.domain key
  have hlength : signed.signature.length = 65 := sg.length_sign _ _
  have hsize : (signed.wire words).signature.length < 2 ^ 256 :=
    lt_of_eq_of_lt hlength (by decide)
  refine Iff.trans ?_ (separated_wire_iff (s := signed) hlength h hpos hheight hindex)
  rw [SettlementManager.countedSignature, SignedSettlementAttestation.decode,
    SignedSettlementAttestation.encode]
  by_cases hseparated : (signed.wire words).Separated
  · have hattestation : (signed.wire words).attestation.statement words.word = a := h
    have hrecover : SignedSettlementAttestation.recoverSigner sg mgr.context.domain
        ⟨a, signed.signature⟩ = some (sg.address key) := sg.recover_sign key _
    rw [(WireSigned.decode_encode_iff hsize).2 hseparated, map_some, hattestation, hpeer]
    refine iff_of_true ?_ hseparated
    simp only [bind_eq_bind, bind_some]
    change (SignedSettlementAttestation.recoverSigner sg mgr.context.domain
      ⟨a, signed.signature⟩).bind _ = _
    rw [hrecover, bind_some, if_pos ⟨rfl, trivial⟩]
    rfl
  · obtain ⟨signature, hread⟩ := WireSigned.decode_shifted hsize hseparated
    have hlegacy : a.tokenEnablementTransitionHash = 0 :=
      h.isLegacy_wire.1 (Classical.not_imp.1 hseparated).1
    refine iff_of_false ?_ hseparated
    rw [hread]
    intro hcounted
    simp only [map_some, bind_eq_bind, bind_some,
      bind_eq_some_iff] at hcounted
    obtain ⟨expected, -, signer, -, hcounted⟩ := hcounted
    split at hcounted
    · next hsame => exact h.shifted_ne hlegacy hconfig hsame.2
    · cases hcounted

end TempoZones.Settle
