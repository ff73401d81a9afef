import TempoZones.System.DepositSequence

/-!
# What decides a deposit's fate

The sequencer supplies one piece of decryption data per deposit. With a sound equality proof the
data matter through one bit, whether the proof verifies: a verified proof fixes the shared secret
and so the payload, and one that does not verify bounces the deposit. `settleQueue` is the deposit
loop on these bits alone (`processQueue_settles`). The bit itself is the sequencer's:
`Example.bouncedImport` bounces the deposit that `Example.firstImport` credits.
-/

namespace TempoZones

open Lib

variable {W : Type} [EvmWord W] [DecidableEq W] {z' : Zone W}

/-- The equality proof is sound: it verifies only for the shared secret of the ephemeral key and
the registered key. -/
def SoundProofs (lib : ZoneLibraries W) (secret : W → ℕ → W → ℕ → W) : Prop :=
  ∀ ephemeralX ephemeralYParity sharedSecret sharedSecretYParity keyX keyYParity cpProof,
    lib.chaumPedersenVerify ephemeralX ephemeralYParity sharedSecret sharedSecretYParity keyX
      keyYParity cpProof = true →
    sharedSecret = secret ephemeralX ephemeralYParity keyX keyYParity

def proofVerifies (lib : ZoneLibraries W) (d : Deposit W) (key : W × ℕ)
    (decryption : DecryptionData W) : Bool :=
  lib.chaumPedersenVerify d.encrypted.ephemeralPubkeyX d.encrypted.ephemeralPubkeyYParity
    decryption.sharedSecret decryption.sharedSecretYParity key.1 key.2 decryption.cpProof

/-- Recipient and memo that the deposit's ciphertext holds under a shared secret. -/
def payloadUnder (ctx : ZoneCtx W) (d : Deposit W) (sharedSecret : W) : Option (Address × W) :=
  let aesKey := ctx.lib.aesKey sharedSecret ctx.portal d.keyIndex d.encrypted.ephemeralPubkeyX d.sender
  let (plaintext, valid) := ctx.lib.decrypt aesKey d.encrypted.nonce d.encrypted.ciphertext
    d.encrypted.tag
  if valid = false ∨ plaintext.length ≠ ENCRYPTED_PAYLOAD_PLAINTEXT_SIZE then none
  else some (Fin.ofNat _ (natOfBytes (plaintext.take 20)),
    EvmWord.ofNat (natOfBytes ((plaintext.drop 20).take 32)))

/-- Recipient and memo that the deposit's ciphertext holds under its registered key, `none` when it
does not authenticate. No sequencer data enter. -/
def authenticPayload (ctx : ZoneCtx W) (secret : W → ℕ → W → ℕ → W) (d : Deposit W)
    (key : W × ℕ) : Option (Address × W) :=
  payloadUnder ctx d
    (secret d.encrypted.ephemeralPubkeyX d.encrypted.ephemeralPubkeyYParity key.1 key.2)

/-- A deposit is credited to the recipient of its payload; it is bounced without a payload or when
the mint fails. -/
def Zone.settleDeposit (z : Zone W) (payload : Option (Address × W)) (currentHash : W)
    (d : Deposit W) (reply : TryMint) : Except ZoneError (Zone W) :=
  match payload with
  | none => z.failDeposit currentHash d
  | some (recipient, memo) => do
      let (minted, z) ← z.tryMint reply d.token d.amount
      if minted then
        pure (z.emit (.depositProcessed currentHash d.sender recipient d.token d.amount memo))
      else z.failDeposit currentHash d

def settleQueue (ctx : ZoneCtx W) (secret : W → ℕ → W → ℕ → W) (mints : ℕ → TryMint) :
    ℕ → List (QueueEntry W) → List Bool → W → Zone W → Except ZoneError (W × Zone W)
  | _, [], _, hash, z => pure (hash, z)
  | i, .bounceBack d :: rest, verdicts, hash, z => do
      let z ← z.processWithdrawalBounceBack d (mints i)
      settleQueue ctx secret mints (i + 1) rest verdicts
        (QueueEntry.hashWithTail (.bounceBack d) hash) (z.record (.bounceBack d))
  | _, .deposit _ :: _, [], _, _ => .error .missingDecryptionData
  | i, .deposit d :: rest, verdict :: verdicts, hash, z => do
      let key ← z.readEncryptionKey ctx d.keyIndex
      let hash := QueueEntry.hashWithTail (.deposit d) hash
      let z ← z.settleDeposit (if verdict then authenticPayload ctx secret d key else none) hash d
        (mints i)
      settleQueue ctx secret mints (i + 1) rest verdicts hash (z.record (.deposit d))

/-- Which of the supplied proofs verify against the keys that the portal registers; `p` is what
the provider has for the imported block. -/
def verdicts (lib : ZoneLibraries W) (p : Option (Portal W)) :
    List (QueueEntry W) → List (DecryptionData W) → List Bool
  | .bounceBack _ :: rest, decryptions => verdicts lib p rest decryptions
  | .deposit d :: rest, decryption :: decryptions =>
    ((p.bind fun p => p.params.encryptionKeys[d.keyIndex]?).elim false fun key =>
      proofVerifies lib d (key.x, key.yParity) decryption) :: verdicts lib p rest decryptions
  | _, _ => []

variable {ctx : ZoneCtx W} {secret : W → ℕ → W → ℕ → W}

theorem recoverEncryptedPayload_eq (hsound : SoundProofs ctx.lib secret) (d : Deposit W)
    (decryption : DecryptionData W) (key : W × ℕ) :
    recoverEncryptedPayload ctx d decryption key =
      if proofVerifies ctx.lib d key decryption then authenticPayload ctx secret d key else none := by
  by_cases h : proofVerifies ctx.lib d key decryption = true
  · have hsecret := hsound _ _ _ _ _ _ _ h
    rw [if_pos h, authenticPayload, ← hsecret]
    exact if_pos h
  · rw [if_neg h]
    exact if_neg h

theorem processDeposit_eq (hsound : SoundProofs ctx.lib secret) (z : Zone W) (hash : W)
    (d : Deposit W) (decryption : DecryptionData W) (key : W × ℕ) (reply : TryMint) :
    z.processDeposit ctx hash d decryption key reply = z.settleDeposit
        (if proofVerifies ctx.lib d key decryption then authenticPayload ctx secret d key else none)
        hash d reply := by
  rw [← recoverEncryptedPayload_eq hsound]
  rfl

theorem EntryStep.tempo_eq {z : Zone W} {e : QueueEntry W} (h : EntryStep z e z') :
    z'.tempo = z.tempo := by
  cases h <;> rfl

theorem readEncryptionKey_ok {z : Zone W} {i : ℕ} {key : W × ℕ}
    (h : z.readEncryptionKey ctx i = .ok key) :
    ∃ k, ((ctx.readPortal z.tempo.tempoBlockNumber).bind fun p => p.params.encryptionKeys[i]?) =
      some k ∧ key = (k.x, k.yParity) := by
  simp only [Zone.readEncryptionKey, ok_iff] at h
  obtain ⟨-, -, p, hportal, hkey⟩ := h
  split at hkey
  · cases hkey
  · next k hk =>
    simp only [ok_iff] at hkey
    obtain ⟨-, -, rfl⟩ := hkey
    rw [anchoredPortal_ok hportal]
    exact ⟨k, hk, rfl⟩

theorem processQueue_settles (hsound : SoundProofs ctx.lib secret) {mints : ℕ → TryMint} {n : ℕ}
    {leftover : List (DecryptionData W)} {hash' : W} :
    ∀ {entries : List (QueueEntry W)} {i : ℕ} {decryptions : List (DecryptionData W)} {hash : W}
      {z : Zone W}, z.tempo.tempoBlockNumber = n →
      processQueue ctx mints i entries decryptions hash z = .ok (hash', leftover, z') →
      settleQueue ctx secret mints i entries
        (verdicts ctx.lib (ctx.readPortal n) entries decryptions) hash z = .ok (hash', z') := by
  intro entries
  induction entries with
  | nil =>
    intro i decryptions hash z _ h
    cases pure_ok_iff.1 h
    rfl
  | cons e rest ih =>
    intro i decryptions hash z hnumber h
    cases e with
    | bounceBack d =>
      obtain ⟨z₁, hstep, h⟩ := bind_ok_iff.1 h
      have htempo := (processWithdrawalBounceBack_ok hstep).tempo_eq
      simp only [settleQueue, verdicts, bind_ok_iff]
      exact ⟨z₁, hstep, ih ((congrArg TempoState.tempoBlockNumber htempo).trans hnumber) h⟩
    | deposit d =>
      cases decryptions with
      | nil => cases h
      | cons decryption decryptions =>
        simp only [processQueue, bind_ok_iff] at h
        obtain ⟨key, hkey, z₁, hstep, h⟩ := h
        obtain ⟨k, hk, rfl⟩ := readEncryptionKey_ok hkey
        have htempo := (processDeposit_ok hstep).tempo_eq
        rw [processDeposit_eq hsound] at hstep
        rw [hnumber] at hk
        simp only [settleQueue, verdicts, hk, Option.elim_some, bind_ok_iff]
        exact ⟨_, hkey, z₁, hstep,
          ih ((congrArg TempoState.tempoBlockNumber htempo).trans hnumber) h⟩

theorem finalizeCheckpoints_single_number {z : Zone W} {header : Bytes}
    (h : z.finalizeCheckpoints ctx [header] = .ok z') :
    z'.tempo.tempoBlockNumber = z.tempo.tempoBlockNumber + 1 := by
  simp only [Zone.finalizeCheckpoints, checkHeaders, ok_iff] at h
  obtain ⟨-, -, -, -, ⟨hash, number, last⟩, ⟨head, -, -, -, -, hnext, hlast⟩, -, -, -, -, rfl⟩ := h
  cases hlast
  exact hnext.2.symm

theorem advanceTokens_tempo {z : Zone W} {tokens : List EnabledToken} {enables : ℕ → Bool}
    (h : z.advanceTokens ctx tokens enables = .ok z') : z'.tempo = z.tempo := by
  simp only [Zone.advanceTokens, ok_iff] at h
  obtain ⟨_, -, z₁, henable, count, -, rfl⟩ := h
  obtain ⟨initialized, logs, rfl⟩ := enableTokens_ok henable
  rfl

/-! ## Main result -/

/-- **The fate of deposits.** With sound proofs, what the inbox does with a deposit depends on the
sequencer's data through the verdict on the proof alone: a verified proof gives the payload that the
ciphertext holds under the registered key; one that does not verify bounces the deposit. Two
successful imports that differ in the decryption data only, and whose proofs have the same verdicts,
end in the same zone. -/
theorem deposit_fate_fixed_by_verdicts (hsound : SoundProofs ctx.lib secret) :
    (∀ (z : Zone W) (hash : W) (d : Deposit W) (decryption : DecryptionData W) (key : W × ℕ)
      (reply : TryMint), z.processDeposit ctx hash d decryption key reply =
        z.settleDeposit (if proofVerifies ctx.lib d key decryption then
          authenticPayload ctx secret d key else none) hash d reply) ∧
    ∀ (z z₁ z₂ : Zone W) (caller : Address) (call : AdvanceTempo W) (reply : AdvanceReply)
      (decryptions₁ decryptions₂ : List (DecryptionData W)),
      z.advanceTempo ctx caller { call with decryptions := decryptions₁ } reply = .ok z₁ →
      z.advanceTempo ctx caller { call with decryptions := decryptions₂ } reply = .ok z₂ →
      (∀ entries, decodeDeposits ctx.lib call.deposits = .ok entries →
        verdicts ctx.lib (ctx.readPortal (z.tempo.tempoBlockNumber + 1)) entries decryptions₁ =
          verdicts ctx.lib (ctx.readPortal (z.tempo.tempoBlockNumber + 1)) entries decryptions₂) →
      z₁ = z₂ := by
  refine ⟨processDeposit_eq hsound, ?_⟩
  intro z z₁ z₂ caller call reply decryptions₁ decryptions₂ h₁ h₂ hverdicts
  simp only [Zone.advanceTempo, bind_ok_iff] at h₁ h₂
  obtain ⟨_, -, entries, hdecode, zc, hcheckpoint, zt, htokens, ⟨hash, leftover, zq⟩, hqueue, _, -,
    h₁⟩ := h₁
  obtain ⟨_, -, entries', hdecode', zc', hcheckpoint', zt', htokens', ⟨hash', leftover', zq'⟩,
    hqueue', _, -, h₂⟩ := h₂
  -- everything before the deposit loop is the same computation
  cases hdecode.symm.trans hdecode'
  cases hcheckpoint.symm.trans hcheckpoint'
  cases htokens.symm.trans htokens'
  have hnumber : zt.tempo.tempoBlockNumber = z.tempo.tempoBlockNumber + 1 := by
    rw [advanceTokens_tempo htokens, finalizeCheckpoints_single_number hcheckpoint]
  have hsettled := processQueue_settles hsound hnumber hqueue
  rw [hverdicts entries hdecode] at hsettled
  cases hsettled.symm.trans (processQueue_settles hsound hnumber hqueue')
  cases h₁.symm.trans h₂
  rfl

namespace Example

/-- Context whose equality proof verifies for the shared secret zero and the proof of zeros. -/
def provingCtx : ZoneCtx Sym :=
  { zoneCtx with lib := { zoneCtx.lib with
      chaumPedersenVerify := fun _ _ sharedSecret _ _ _ cpProof =>
        decide (sharedSecret = 0 ∧ cpProof = (0, 0)) } }

theorem provingCtx_sound : SoundProofs provingCtx.lib fun _ _ _ _ => 0 := by
  intro _ _ sharedSecret _ _ _ cpProof h
  exact (of_decide_eq_true h).1

def bouncedImport : AdvanceTempo Sym := { firstImport with decryptions := [⟨0, 2, (0, .num 1)⟩] }

/-- The same deposit is credited with one proof and bounced with another; both imports succeed. -/
theorem proof_choice_bounces_deposit :
    SoundProofs provingCtx.lib (fun _ _ _ _ => 0) ∧
    ∃ z₁ z₂, genesis.advanceTempo provingCtx 0 firstImport firstReplies = .ok z₁ ∧
      genesis.advanceTempo provingCtx 0 bouncedImport firstReplies = .ok z₂ ∧
      z₁.tokens.supply 50 = 10 ∧ z₂.tokens.supply 50 = 0 ∧
      z₁.outbox.pendingWithdrawals.length = 0 ∧ z₂.outbox.pendingWithdrawals.length = 1 := by
  refine ⟨provingCtx_sound, _, _, rfl, rfl, ?_⟩
  decide +kernel

/-- The first import with a different parity byte, which no verdict depends on. -/
theorem deposit_fate_other_parity :
    ∃ z₁, genesis.advanceTempo provingCtx 0 firstImport firstReplies = .ok z₁ ∧
      ∀ z₂, genesis.advanceTempo provingCtx 0
        { firstImport with decryptions := [⟨0, 5, (0, 0)⟩] } firstReplies = .ok z₂ → z₁ = z₂ := by
  refine ⟨_, rfl, ?_⟩
  intro z₂ h₂
  refine (deposit_fate_fixed_by_verdicts provingCtx_sound).2 genesis _ z₂ 0 firstImport firstReplies
    firstImport.decryptions _ rfl h₂ ?_
  intro entries hentries
  cases hentries
  rfl

end Example

end TempoZones
