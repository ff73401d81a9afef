import TempoZones.Spf.BatchSoundness

/-!
# Attested prover sessions

A client sends a nonce, checks the attestation document it receives (`verifyEvidence`) and opens TLS
with the attested certificate as its only root. One enclave program signs documents for sessions,
over the nonce and its own certificate, and for batch proofs, over a batch digest and without a
nonce. `Deployment` holds the processes with their measurements and keys, and the assumptions on
them; `Trace` lists what clients and processes do under a network that delivers any document it has
seen.
-/

namespace TempoZones.Prover

open Lib Spf List EvmWord

variable {W : Type} [EvmWord W] [DecidableEq W]

/-! ## Documents and their checks -/

def CONTEXT : Bytes := utf8 "tempo-zone-prover/tls-bootstrap/v1\x00"
def NONCE_LEN : ℕ := 32
def MAX_FUTURE_SKEW_SECS : ℕ := 300
def PROTOCOL_VERSION : ℕ := 1
def ZONE_VERIFIER_ADDRESS : ℕ := 0x5a56000000000000000000000000000000000000

/-- A verified Nitro document; a document without a nonce has an empty one. -/
structure Document (W : Type) where
  pcrs : List (ℕ × Bytes)
  nonce : Bytes
  userData : W
  timestamp : ℕ

/-- A policy that `RemoteProverConfig::new` accepts. -/
structure Policy where
  pcrs : List (ℕ × List Bytes)
  maxAgeSeconds : ℕ
  fresh : 0 < maxAgeSeconds
  required : ∀ i ≤ 2, i ∈ pcrs.map Prod.fst
  allowlists : ∀ e ∈ pcrs, e.1 < 32 ∧ e.2 ≠ [] ∧ ∀ v ∈ e.2, v ≠ replicate 48 0

def Policy.approves (policy : Policy) (pcrs : List (ℕ × Bytes)) : Bool :=
  policy.pcrs.all fun e => pcrs.any fun pcr => pcr.1 = e.1 && pcr.2 ∈ e.2

def certificateBinding (sha256 : Bytes → W) (certificate : Bytes) : W :=
  sha256 (CONTEXT ++ certificate)

def verifyEvidence (sha256 : Bytes → W) (doc : Document W) (certificate nonce : Bytes)
    (policy : Policy) (now : ℕ) : Bool :=
  let nowMs := min (now * 1000) (2 ^ 64 - 1)
  decide (doc.nonce = nonce) && decide (doc.userData = certificateBinding sha256 certificate) &&
    decide (doc.timestamp ≤ saturatingAdd nowMs (MAX_FUTURE_SKEW_SECS * 1000)) &&
    decide (nowMs - doc.timestamp ≤ min (policy.maxAgeSeconds * 1000) (2 ^ 64 - 1)) &&
    policy.approves doc.pcrs

/-! ## Batch proofs -/

def NITRO_TYPEHASH : W := keccak256 [.raw (utf8
  "NitroBatchAttestation(uint256 parentChainId,address verifier,uint32 zoneId,uint64 tempoBlockNumber,uint64 anchorBlockNumber,bytes32 anchorBlockHash,uint64 expectedWithdrawalBatchIndex,uint256 nextZoneHeight,bytes32 prevBlockHash,bytes32 nextBlockHash,bytes32 prevProcessedHash,bytes32 nextProcessedHash,uint64 prevDepositNumber,uint64 nextDepositNumber,uint64 prevProcessedTokenCount,uint64 nextProcessedTokenCount,bytes32 withdrawalQueueHash,bytes32 verifierConfigHash)")]

def nitroBatchAttestationHash (i : PublicInputs W) (o : BatchOutput W) : W :=
  keccak256 ([NITRO_TYPEHASH, ofNat i.parentChainId, ofNat ZONE_VERIFIER_ADDRESS,
    ofNat i.zoneId, ofNat i.tempoBlockNumber, ofNat i.anchorBlockNumber,
    i.anchorBlockHash, ofNat i.expectedWithdrawalBatchIndex, ofNat o.nextZoneHeight,
    o.blockTransition.prevBlockHash, o.blockTransition.nextBlockHash,
    o.depositQueueTransition.prevProcessedHash, o.depositQueueTransition.nextProcessedHash,
    ofNat o.depositQueueTransition.prevDepositNumber,
    ofNat o.depositQueueTransition.nextDepositNumber,
    ofNat o.tokenEnablementTransition.prevProcessedTokenCount,
    ofNat o.tokenEnablementTransition.nextProcessedTokenCount,
    o.withdrawalQueueHash, keccak256 [.raw [1]]].map .word)

omit [DecidableEq W] in
/-- The batch digest commits to the public inputs and to the output; the batch index of the output
is the expected one of the inputs. -/
theorem nitroBatchAttestationHash_inj (hc : CollisionFree W) {i i' : PublicInputs W}
    {o o' : BatchOutput W} (h : nitroBatchAttestationHash i o = nitroBatchAttestationHash i' o') :
    i = i' ∧ { o with withdrawalBatchIndex := 0 } = { o' with withdrawalBatchIndex := 0 } := by
  have hwords := hc.keccak_inj h
  simp only [map_cons, map_nil, cons.injEq, Chunk.word.injEq, ofNat_injective.eq_iff] at hwords
  obtain ⟨-, h₁, -, h₂, h₃, h₄, h₅, h₆, h₇, h₈, h₉, h₁₀, h₁₁, h₁₂, h₁₃, h₁₄, h₁₅, h₁₆, -⟩ := hwords
  cases i; cases i'
  rcases o with ⟨_, ⟨⟩, ⟨⟩, ⟨⟩, _, _⟩
  rcases o' with ⟨_, ⟨⟩, ⟨⟩, ⟨⟩, _, _⟩
  simp_all

inductive ErrorCode
  | unsupportedVersion
  | unsupportedChain
  | verificationFailed

variable {m : Machine W}

structure VerifyRequest (m : Machine W) where
  version : ℕ
  witness : BatchWitness m

/-- `process_request` up to the signing module: the output, and the digest to be signed. `specs`
gives the zone's chain specification for a trusted parent chain and a zone chain ID. -/
def processRequest (specs : ℕ → Option (ℕ → Option (SpfConfig W))) (request : VerifyRequest m) :
    Except ErrorCode (BatchOutput W × W) := do
  require (request.version = PROTOCOL_VERSION) ErrorCode.unsupportedVersion
  let inputs := request.witness.publicInputs
  let spec ← (specs inputs.parentChainId).elim (.error .unsupportedChain) pure
  let chainId ← (zoneChainId inputs.parentChainId inputs.zoneId).mapError
    fun _ => .verificationFailed
  let config ← (spec chainId).elim (.error .unsupportedChain) pure
  let output ← (m.proveZoneBatch config request.witness).mapError fun _ => .verificationFailed
  pure (output, nitroBatchAttestationHash inputs output)

/-- The specification of the zone that the inputs name. -/
def Specified (specs : ℕ → Option (ℕ → Option (SpfConfig W))) (inputs : PublicInputs W)
    (config : SpfConfig W) : Prop :=
  ∃ spec chainId, specs inputs.parentChainId = some spec ∧
    zoneChainId inputs.parentChainId inputs.zoneId = .ok chainId ∧ spec chainId = some config

theorem processRequest_ok_iff {specs : ℕ → Option (ℕ → Option (SpfConfig W))}
    {request : VerifyRequest m} {output : BatchOutput W} {digest : W} :
    processRequest specs request = .ok (output, digest) ↔ request.version = PROTOCOL_VERSION ∧
      digest = nitroBatchAttestationHash request.witness.publicInputs output ∧
      ∃ config, Specified specs request.witness.publicInputs config ∧
        m.proveZoneBatch config request.witness = .ok output := by
  have hmap : ∀ {ε α : Type} {x : Except ε α} {a : α},
      x.mapError (fun _ => ErrorCode.verificationFailed) = .ok a ↔ x = .ok a := by
    rintro ε α (e | b) a <;> simp [Except.mapError]
  simp only [processRequest, ok_iff, elim_pure_eq_ok, hmap, Prod.mk.injEq]
  constructor
  · rintro ⟨-, hversion, spec, hspec, chainId, hchain, config, hconfig, proved, hproved, rfl, rfl⟩
    exact ⟨hversion, rfl, config, ⟨spec, chainId, hspec, hchain, hconfig⟩, hproved⟩
  · rintro ⟨hversion, rfl, config, ⟨spec, chainId, hspec, hchain, hconfig⟩, hproved⟩
    exact ⟨(), hversion, spec, hspec, chainId, hchain, config, hconfig, output, hproved, rfl, rfl⟩

/-! ## Sessions -/

/-- Processes on Nitro hardware with the measurements and the certificate of each, which of them run
this program, and who can act under the key of a certificate. -/
structure Deployment (W : Type) [EvmWord W] [DecidableEq W] where
  Process : Type
  Party : Type
  pcrs : Process → List (ℕ × Bytes)
  certificate : Process → Bytes
  Runs : Process → Prop
  enclave : Process → Party
  Holds : Party → Bytes → Prop
  policy : Policy
  specs : ℕ → Option (ℕ → Option (SpfConfig W))
  sha256 : Bytes → W
  runs_of_approved : ∀ p, policy.approves (pcrs p) = true → Runs p
  holder_unique : ∀ x p, Runs p → Holds x (certificate p) → x = enclave p
  sha256_injective : Function.Injective sha256
  sha256_ne_batch : ∀ b i o, sha256 b ≠ nitroBatchAttestationHash i o

variable (d : Deployment W)

inductive Event
  | hello (session : ℕ) (nonce : Bytes)
  | attested (p : d.Process) (doc : Document W)
  | connected (session : ℕ) (certificate : Bytes) (doc : Document W) (peer : d.Party) (now : ℕ)

variable {d}

def Fresh (nonce : Bytes) (trace : List (Event d)) : Prop :=
  ∀ e ∈ trace, (∀ s, e ≠ .hello s nonce) ∧ ∀ p doc, e = .attested p doc → doc.nonce ≠ nonce

/-- Runs of clients, processes and the network, newest event first. A process of this program
answers any nonce and proves any batch; the signing module of another program signs what that asks
for, with its measurements. A client accepts documents that some module has signed. -/
inductive Trace (m : Machine W) : List (Event d) → Prop
  | nil : Trace m []
  | hello {trace : List (Event d)} (h : Trace m trace) (session : ℕ) {nonce : Bytes}
    (length : nonce.length = NONCE_LEN) (fresh : Fresh nonce trace)
    (unused : ∀ n, .hello session n ∉ trace) : Trace m (.hello session nonce :: trace)
  | session {trace : List (Event d)} (h : Trace m trace) {p : d.Process} (runs : d.Runs p)
    {nonce : Bytes} (length : nonce.length = NONCE_LEN) (timestamp : ℕ) :
    Trace m (.attested p ⟨d.pcrs p, nonce, certificateBinding d.sha256 (d.certificate p),
      timestamp⟩ :: trace)
  | batch {trace : List (Event d)} (h : Trace m trace) {p : d.Process} (runs : d.Runs p)
    {request : VerifyRequest m} {output : BatchOutput W} {digest : W}
    (proved : processRequest d.specs request = .ok (output, digest)) (timestamp : ℕ) :
    Trace m (.attested p ⟨d.pcrs p, [], digest, timestamp⟩ :: trace)
  | other {trace : List (Event d)} (h : Trace m trace) {p : d.Process} (runs : ¬ d.Runs p)
    {doc : Document W} (measured : doc.pcrs = d.pcrs p) : Trace m (.attested p doc :: trace)
  | connect {trace : List (Event d)} (h : Trace m trace) {session : ℕ} {nonce : Bytes}
    (sent : .hello session nonce ∈ trace) {p : d.Process} {doc : Document W}
    (signed : .attested p doc ∈ trace) {certificate : Bytes} {now : ℕ}
    (verified : verifyEvidence d.sha256 doc certificate nonce d.policy now = true) {peer : d.Party}
    (holds : d.Holds peer certificate) :
    Trace m (.connected session certificate doc peer now :: trace)

def AcceptsBatch (doc : Document W) (inputs : PublicInputs W) (output : BatchOutput W) : Prop :=
  d.policy.approves doc.pcrs = true ∧ doc.userData = nitroBatchAttestationHash inputs output

variable {trace : List (Event d)} {p : d.Process} {doc : Document W}

theorem Trace.signed (h : Trace m trace) (hdoc : .attested p doc ∈ trace) :
    doc.pcrs = d.pcrs p ∧ (d.Runs p → (doc.nonce.length = NONCE_LEN ∧
        doc.userData = certificateBinding d.sha256 (d.certificate p)) ∨
      doc.nonce = [] ∧ ∃ request : VerifyRequest m, ∃ output,
        processRequest d.specs request = .ok (output, doc.userData)) := by
  induction h with
  | nil => cases hdoc
  | hello _ _ _ _ _ ih | connect _ _ _ _ _ ih =>
    rcases mem_cons.1 hdoc with heq | hdoc
    · cases heq
    · exact ih hdoc
  | session _ runs length timestamp ih =>
    rcases mem_cons.1 hdoc with heq | hdoc
    · cases heq
      exact ⟨rfl, fun _ => .inl ⟨length, rfl⟩⟩
    · exact ih hdoc
  | batch _ runs proved timestamp ih =>
    rcases mem_cons.1 hdoc with heq | hdoc
    · cases heq
      exact ⟨rfl, fun _ => .inr ⟨rfl, _, _, proved⟩⟩
    · exact ih hdoc
  | other _ runs measured ih =>
    rcases mem_cons.1 hdoc with heq | hdoc
    · cases heq
      exact ⟨measured, fun hruns => absurd hruns runs⟩
    · exact ih hdoc

theorem Trace.signed_later (h : Trace m trace) {session : ℕ}
    (hsent : .hello session doc.nonce ∈ trace) (hdoc : .attested p doc ∈ trace) :
    [.attested p doc, .hello session doc.nonce].Sublist trace := by
  have hcons : ∀ {e : Event d} {tr : List (Event d)}, e ≠ .hello session doc.nonce →
      .hello session doc.nonce ∈ e :: tr → .hello session doc.nonce ∈ tr := fun hne hmem =>
    (mem_cons.1 hmem).resolve_left (Ne.symm hne)
  -- the newest event is the document, or the nonce was sent and the document signed before it
  have hattested : ∀ {q : d.Process} {doc' : Document W} {tr : List (Event d)},
      .hello session doc.nonce ∈ (.attested q doc' :: tr) →
      .attested p doc ∈ (.attested q doc' :: tr) →
      (.hello session doc.nonce ∈ tr → .attested p doc ∈ tr →
        [.attested p doc, .hello session doc.nonce].Sublist tr) →
      [.attested p doc, .hello session doc.nonce].Sublist (.attested q doc' :: tr) :=
    fun hsent hdoc ih => by
      have hsent := hcons (by rintro ⟨⟩) hsent
      rcases mem_cons.1 hdoc with heq | hdoc
      · rw [heq]
        exact (singleton_sublist.2 hsent).cons_cons _
      · exact (ih hsent hdoc).cons _
  induction h with
  | nil => cases hdoc
  | hello _ _ _ fresh _ ih =>
    have hsigned := (mem_cons.1 hdoc).resolve_left (by rintro ⟨⟩)
    rcases mem_cons.1 hsent with heq | hsent
    · cases heq
      exact absurd rfl ((fresh _ hsigned).2 p doc rfl)
    · exact (ih hsent hsigned).cons _
  | session _ _ _ _ ih | batch _ _ _ _ ih | other _ _ _ ih => exact hattested hsent hdoc ih
  | connect _ _ _ _ _ ih =>
    exact (ih (hcons (by rintro ⟨⟩) hsent) ((mem_cons.1 hdoc).resolve_left (by rintro ⟨⟩))).cons _

omit [EvmWord W] in
theorem verifyEvidence_eq_true {sha256 : Bytes → W} {certificate nonce : Bytes} {policy : Policy}
    {now : ℕ} (h : verifyEvidence sha256 doc certificate nonce policy now = true) :
    doc.nonce = nonce ∧ doc.userData = certificateBinding sha256 certificate ∧
      policy.approves doc.pcrs = true := by
  simp only [verifyEvidence, Bool.and_eq_true, decide_eq_true_eq] at h
  exact ⟨h.1.1.1.1, h.1.1.1.2, h.2⟩

theorem Trace.connected {session : ℕ} {certificate : Bytes} {peer : d.Party} {now : ℕ}
    (h : Trace m trace) (hconnected : .connected session certificate doc peer now ∈ trace) :
    ∃ nonce p, .hello session nonce ∈ trace ∧ .attested p doc ∈ trace ∧
      verifyEvidence d.sha256 doc certificate nonce d.policy now = true ∧
      d.Holds peer certificate := by
  let Rests : List (Event d) → Prop := fun tr => ∃ nonce p, .hello session nonce ∈ tr ∧
    .attested p doc ∈ tr ∧ verifyEvidence d.sha256 doc certificate nonce d.policy now = true ∧
    d.Holds peer certificate
  have hlift : ∀ {e tr}, Rests tr → Rests (e :: tr) := fun ⟨nonce, p, hsent, hdoc, hrest⟩ =>
    ⟨nonce, p, mem_cons_of_mem _ hsent, mem_cons_of_mem _ hdoc, hrest⟩
  induction h with
  | nil => cases hconnected
  | hello _ _ _ _ _ ih | session _ _ _ _ ih | batch _ _ _ _ ih | other _ _ _ ih =>
    exact hlift (ih ((mem_cons.1 hconnected).resolve_left (by rintro ⟨⟩)))
  | connect _ sent signed verified holds ih =>
    rcases mem_cons.1 hconnected with heq | hconnected
    · cases heq
      exact hlift ⟨_, _, sent, signed, verified, holds⟩
    · exact hlift (ih hconnected)

/-- **Attested sessions.** The other end of a stream that `connect` returned is an enclave process
whose measurements the policy approves, and which signed the evidence for the session's nonce after
the client had sent it. A document that is accepted as a batch proof was signed without a nonce, by
such a process, for public inputs and an output that `prove_zone_batch` returned there. What a
process of this program signs for a session is no batch proof, and what it signs for a batch is no
evidence. -/
theorem attested_sessions_sound (hc : CollisionFree W) (h : Trace m trace) :
    (∀ session certificate doc peer now, .connected session certificate doc peer now ∈ trace →
      ∃ p, peer = d.enclave p ∧ d.Runs p ∧ d.policy.approves (d.pcrs p) = true ∧
        [.attested p doc, .hello session doc.nonce].Sublist trace) ∧
    (∀ q doc inputs output, .attested q doc ∈ trace → AcceptsBatch (d := d) doc inputs output →
      doc.nonce = [] ∧ d.Runs q ∧ d.policy.approves (d.pcrs q) = true ∧
        ∃ config, ∃ witness : BatchWitness m, ∃ proved, Specified d.specs inputs config ∧
          m.proveZoneBatch config witness = .ok proved ∧ witness.publicInputs = inputs ∧
          { proved with withdrawalBatchIndex := 0 } = { output with withdrawalBatchIndex := 0 }) ∧
    ∀ q doc, .attested q doc ∈ trace → d.Runs q →
      (doc.nonce ≠ [] → ∀ inputs output, ¬ AcceptsBatch (d := d) doc inputs output) ∧
      (doc.nonce = [] → ∀ certificate nonce now, nonce.length = NONCE_LEN →
        verifyEvidence d.sha256 doc certificate nonce d.policy now = false) := by
  have hbatch : ∀ q doc inputs output, .attested q doc ∈ trace →
      AcceptsBatch (d := d) doc inputs output → doc.nonce = [] ∧ d.Runs q ∧
        d.policy.approves (d.pcrs q) = true ∧ ∃ request : VerifyRequest m, ∃ proved,
          processRequest d.specs request = .ok (proved, doc.userData) :=
    fun q doc inputs output hdoc ⟨happroved, hdata⟩ => by
      obtain ⟨hpcrs, hkind⟩ := h.signed hdoc
      rw [hpcrs] at happroved
      have hruns := d.runs_of_approved q happroved
      rcases hkind hruns with ⟨-, hsession⟩ | ⟨hnonce, hproved⟩
      · exact absurd (hsession.symm.trans hdata) (d.sha256_ne_batch _ _ _)
      · exact ⟨hnonce, hruns, happroved, hproved⟩
  refine ⟨fun session certificate doc peer now hconnected => ?_,
    fun q doc inputs output hdoc haccepts => ?_,
    fun q doc hdoc hruns => ⟨fun hnonce inputs output haccepts => ?_,
      fun hnonce certificate nonce now hlength => ?_⟩⟩
  · obtain ⟨nonce, p, hsent, hdoc, hverified, hholds⟩ := h.connected hconnected
    obtain ⟨rfl, hdata, happroved⟩ := verifyEvidence_eq_true hverified
    obtain ⟨hpcrs, hkind⟩ := h.signed hdoc
    rw [hpcrs] at happroved
    have hruns := d.runs_of_approved p happroved
    rcases hkind hruns with ⟨-, hsession⟩ | ⟨-, request, output, hproved⟩
    · -- the binding determines the certificate, and only its process has the key
      have hcertificate := append_cancel_left (d.sha256_injective (hdata.symm.trans hsession))
      exact ⟨p, d.holder_unique peer p hruns (hcertificate ▸ hholds), hruns, happroved,
        h.signed_later hsent hdoc⟩
    · exact absurd (hdata.symm.trans (processRequest_ok_iff.1 hproved).2.1)
        (d.sha256_ne_batch _ _ _)
  · obtain ⟨hnonce, hruns, happroved, request, proved, hproved⟩ :=
      hbatch q doc inputs output hdoc haccepts
    obtain ⟨-, hdigest, config, hspecified, hprove⟩ := processRequest_ok_iff.1 hproved
    obtain ⟨hinputs, houtput⟩ := nitroBatchAttestationHash_inj hc (hdigest.symm.trans haccepts.2)
    rw [hinputs] at hspecified
    exact ⟨hnonce, hruns, happroved, config, request.witness, proved, hspecified, hprove, hinputs,
      houtput⟩
  · exact hnonce (hbatch q doc inputs output hdoc haccepts).1
  · rw [← Bool.not_eq_true]
    intro hverified
    have heq := (verifyEvidence_eq_true hverified).1
    rw [← heq, hnonce] at hlength
    cases hlength

namespace Example

open TempoZones.Example

def policy : Policy where
  pcrs := [(0, [[1]]), (1, [[1]]), (2, [[1]])]
  maxAgeSeconds := 300
  fresh := by decide
  required i hi := by simp; omega
  allowlists := by decide

/-- An approved process, with the only key of certificate 7, and another one with certificate 9,
whose key the network has too. -/
def deployment : Deployment Sym where
  Process := Bool
  Party := Bool
  pcrs p := if p then [(0, [1]), (1, [1]), (2, [1])] else [(0, [2]), (1, [1]), (2, [1])]
  certificate p := if p then [7] else [9]
  Runs p := p = true
  enclave := id
  Holds x certificate := x = true ∧ certificate = [7] ∨ certificate = [9]
  policy := policy
  specs _ := some fun _ => some spfConfig
  sha256 b := keccak256 [.raw b]
  runs_of_approved := by decide
  holder_unique := by
    rintro x p rfl (⟨rfl, -⟩ | hother)
    · rfl
    · cases hother
  sha256_injective a b h := by simpa using Sym.collisionFree.keccak_inj h
  sha256_ne_batch b i o h := by simpa using Sym.collisionFree.keccak_inj h

def nonce : Bytes := replicate 32 5

def evidence : Document Sym :=
  ⟨deployment.pcrs true, nonce, certificateBinding deployment.sha256 [7], 0⟩

/-- Evidence for the same nonce, from the process that is not approved. -/
def forgedEvidence : Document Sym :=
  ⟨deployment.pcrs false, nonce, certificateBinding deployment.sha256 [9], 0⟩

def batchRequest : VerifyRequest (zoneMachine surroundings) :=
  ⟨1, firstWitness genesisHeader spfGenesis⟩

def batchOutput : BatchOutput Sym := firstOutput genesisHeader spfGenesis

def batchProof : Document Sym :=
  ⟨deployment.pcrs true, [],
    nitroBatchAttestationHash batchRequest.witness.publicInputs batchOutput, 0⟩

/-- A batch proof and forged evidence come before the evidence, which is delivered twice. -/
def sessions : List (Event deployment) :=
  [.connected 0 [7] evidence true 1, .connected 0 [7] evidence true 0, .attested true evidence,
    .attested false forgedEvidence, .attested true batchProof, .hello 0 nonce]

theorem evidence_verified (now : ℕ) (hnow : now ≤ 1) :
    verifyEvidence deployment.sha256 evidence [7] nonce deployment.policy now = true := by
  have happroved : deployment.policy.approves (deployment.pcrs true) = true := by decide
  simp only [verifyEvidence, evidence, happroved, decide_true, Bool.true_and, Bool.and_true]
  obtain rfl | rfl : now = 0 ∨ now = 1 := by omega
  · decide
  · decide

theorem sessions_trace : Trace (zoneMachine surroundings) sessions := by
  have hproved : processRequest deployment.specs batchRequest = .ok (batchOutput,
      nitroBatchAttestationHash batchRequest.witness.publicInputs batchOutput) :=
    processRequest_ok_iff.2 ⟨rfl, rfl, _, ⟨_, _, rfl, rfl, rfl⟩,
      genesis_batch_proved⟩
  have hhello : Trace (zoneMachine surroundings)
      [Event.hello (d := deployment) 0 nonce] := .hello .nil 0 rfl nofun nofun
  have hbatch := hhello.batch (p := true) rfl hproved 0
  have hforged := hbatch.other (p := false) nofun
    (rfl : forgedEvidence.pcrs = deployment.pcrs false)
  have hsession := hforged.session (p := true) rfl (show nonce.length = NONCE_LEN from rfl) 0
  have hsent : Event.hello (d := deployment) 0 nonce ∈ sessions.drop 2 := by simp [sessions]
  have hdelivered : .attested true evidence ∈ sessions.drop 2 := mem_cons_self
  have hfirst := hsession.connect hsent hdelivered (evidence_verified 0 (by decide))
    (.inl ⟨rfl, rfl⟩ : deployment.Holds true [7])
  exact hfirst.connect (mem_cons_of_mem _ hsent) (mem_cons_of_mem _ hdelivered)
    (evidence_verified 1 le_rfl) (.inl ⟨rfl, rfl⟩)

/-- The peer is the approved enclave, the batch proof is backed by a run of `prove_zone_batch`, and
neither document passes for the other. -/
theorem sessions_and_batch_separate :
    (∃ p, true = deployment.enclave p ∧ deployment.policy.approves (deployment.pcrs p) = true ∧
      [Event.attested (d := deployment) p evidence, .hello 0 nonce].Sublist sessions) ∧
    (∃ config, ∃ witness : BatchWitness (zoneMachine surroundings), ∃ proved,
      Specified deployment.specs batchRequest.witness.publicInputs config ∧
        (zoneMachine surroundings).proveZoneBatch config witness = .ok proved) ∧
    (∀ inputs output, ¬ AcceptsBatch (d := deployment) evidence inputs output) ∧
    verifyEvidence deployment.sha256 batchProof [7] nonce deployment.policy 0 = false := by
  obtain ⟨hsessions, hbatches, hseparate⟩ :=
    attested_sessions_sound Sym.collisionFree sessions_trace
  obtain ⟨p, hpeer, -, happroved, horder⟩ := hsessions 0 [7] evidence true 0 (by simp [sessions])
  obtain ⟨-, -, -, config, witness, proved, hspecified, hproved, -⟩ :=
    hbatches true batchProof _ batchOutput (by simp [sessions]) ⟨by decide, rfl⟩
  exact ⟨⟨p, hpeer, happroved, horder⟩, ⟨config, witness, proved, hspecified, hproved⟩,
    (hseparate true evidence (by simp [sessions]) rfl).1 nofun,
    (hseparate true batchProof (by simp [sessions]) rfl).2 rfl [7] nonce 0 rfl⟩

end Example

end TempoZones.Prover
