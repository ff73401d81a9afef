import TempoZones.Zone.Calls

/-!
# Failures of a full import

A full import has checks of its own: that a bounce-back finds its recipient, that there is decryption
data for every user deposit and no more, and that the entries hash to the portal's queue. The steps
around these checks fail with other errors. So an import that passes them does not stop with their
errors, whatever else happens (`Avoids`).
-/

namespace TempoZones

open Lib Avoids

variable {W : Type} [EvmWord W] [DecidableEq W]

def ZoneError.isImportCheck : ZoneError → Bool
  | .invalidFallbackRecipient | .missingDecryptionData | .extraDecryptionData
  | .invalidDepositQueueHash => true
  | _ => false

section Import

variable {ctx : ZoneCtx W} {e : ZoneError} (he : e.isImportCheck = true)

include he

theorem ne_of_isImportCheck {e' : ZoneError} (h : e'.isImportCheck = false) : e' ≠ e := by
  rintro rfl
  exact Bool.false_ne_true (h.symm.trans he)

theorem avoids_require {c : Prop} [Decidable c] {e' : ZoneError} (h : e'.isImportCheck = false) :
    Avoids e (require c e' : Except ZoneError PUnit.{1}) :=
  .require fun _ => ne_of_isImportCheck he h

theorem avoids_error {α : Type} {e' : ZoneError} (h : e'.isImportCheck = false) :
    Avoids e (.error e' : Except ZoneError α) :=
  .error (ne_of_isImportCheck he h)

theorem zoneCheckedAdd_avoids (bits a b : ℕ) : Avoids e (zoneCheckedAdd bits a b) :=
  (avoids_require he rfl).bind fun _ _ => .pure _

theorem anchoredPortal_avoids (z : Zone W) : Avoids e (z.anchoredPortal ctx) := by
  unfold Zone.anchoredPortal
  cases ctx.readPortal z.tempo.tempoBlockNumber with
  | none => exact avoids_error he rfl
  | some p => exact .ok p

theorem decodeDeposits_avoids (lib : ZoneLibraries W) (deposits : List QueuedDeposit) :
    Avoids e (decodeDeposits lib deposits) := by
  induction deposits with
  | nil => exact .pure _
  | cons queued rest ih =>
    refine bind ?_ fun _ _ => ih.bind fun _ _ => .pure _
    unfold QueuedDeposit.decode
    cases queued.depositType with
    | withdrawalBounceBack =>
      cases lib.decodeBounceBack queued.depositData with
      | none => exact avoids_error he rfl
      | some d => exact .ok _
    | deposit =>
      cases lib.decodeDeposit queued.depositData with
      | none => exact avoids_error he rfl
      | some d => exact .ok _

theorem checkHeaders_avoids (headers : List Bytes) (hash : W) (number : ℕ)
    (last : Option (TempoHeader W)) : Avoids e (checkHeaders ctx hash number last headers) := by
  induction headers generalizing hash number last with
  | nil => exact .pure _
  | cons rlp rest ih =>
    refine bind ?_ fun header _ => (avoids_require he rfl).bind fun _ _ =>
      (avoids_require he rfl).bind fun _ _ => ih _ _ _
    cases ctx.lib.decodeHeader rlp with
    | none => exact avoids_error he rfl
    | some header => exact .pure header

theorem finalizeCheckpoints_avoids (z : Zone W) (headers : List Bytes) :
    Avoids e (z.finalizeCheckpoints ctx headers) :=
  (avoids_require he rfl).bind fun _ _ => (avoids_require he rfl).bind fun _ _ =>
    (checkHeaders_avoids he _ _ _ _).bind fun _ _ => (avoids_require he rfl).bind fun _ _ =>
      (avoids_require he rfl).bind fun _ _ => .pure _

theorem enableTokens_avoids (enables : ℕ → Bool) (i : ℕ) (tokens : List EnabledToken)
    (z : Zone W) : Avoids e (enableTokens enables i tokens z) := by
  induction tokens generalizing i z with
  | nil => exact .pure z
  | cons token rest ih => exact (avoids_require he rfl).bind fun _ _ => ih _ _

theorem advanceTokens_avoids (z : Zone W) (tokens : List EnabledToken) (enables : ℕ → Bool) :
    Avoids e (z.advanceTokens ctx tokens enables) := by
  refine bind ?_ fun portalCount _ => (enableTokens_avoids he _ _ _ _).bind fun z₁ _ =>
    bind ?_ fun _ _ => .pure _
  · exact .ite (fun _ => (anchoredPortal_avoids he z).bind fun _ _ =>
      (avoids_require he rfl).bind fun _ _ => .pure _) fun _ => .pure none
  refine .ite (fun _ => ?_) fun _ => .pure _
  cases portalCount with
  | none => exact zoneCheckedAdd_avoids he _ _ _
  | some count => exact (avoids_require he rfl).bind fun _ _ => .pure _

theorem tryMint_avoids (z : Zone W) (reply : TryMint) (token : Address) (amount : ℕ) :
    Avoids e (z.tryMint reply token amount) := by
  unfold Zone.tryMint
  split
  · exact avoids_error he rfl
  · exact .ok _
  · exact .ok _
  · exact avoids_error he rfl
  · exact .ok _
  · exact .ok _

theorem processWithdrawalBounceBack_avoids {z : Zone W} {d : WithdrawalBounceBackDeposit}
    (h : e = .invalidFallbackRecipient → z.outbox.fallbackRecipients d.fallbackNonce ≠ 0)
    (reply : TryMint) : Avoids e (z.processWithdrawalBounceBack d reply) := by
  refine bind ?_ fun r _ => (tryMint_avoids he _ _ _ _).bind fun minted _ =>
    .ite (fun _ => .pure _) fun _ => (avoids_require he rfl).bind fun _ _ => .pure _
  exact (avoids_require he rfl).bind fun _ _ =>
    (require fun hzero heq => hzero (h heq.symm)).bind fun _ _ => .pure _

theorem failDeposit_avoids (z : Zone W) (hash : W) (d : Deposit W) :
    Avoids e (z.failDeposit hash d) :=
  bind ((avoids_require he rfl).bind fun _ _ =>
    (zoneCheckedAdd_avoids he _ _ _).bind fun _ _ => .pure _) fun _ _ => .pure _

theorem processDeposit_avoids (z : Zone W) (hash : W) (d : Deposit W)
    (decryption : DecryptionData W) (key : W × ℕ) (reply : TryMint) :
    Avoids e (z.processDeposit ctx hash d decryption key reply) := by
  unfold Zone.processDeposit
  split
  · exact failDeposit_avoids he _ _ _
  · exact (tryMint_avoids he _ _ _ _).bind fun _ _ =>
      .ite (fun _ => .pure _) fun _ => failDeposit_avoids he _ _ _

theorem readEncryptionKey_avoids (z : Zone W) (keyIndex : ℕ) :
    Avoids e (z.readEncryptionKey ctx keyIndex) := by
  refine (avoids_require he rfl).bind fun _ _ => (anchoredPortal_avoids he z).bind fun p _ => ?_
  cases p.params.encryptionKeys[keyIndex]? with
  | none => exact avoids_error he rfl
  | some key => exact (avoids_require he rfl).bind fun _ _ => .pure _

/-- A full import avoids the error of a check that its entries pass: those of the loop over the
entries, the decryption data left over, and the portal's queue hash. -/
theorem advanceTempo_avoids_of {z : Zone W} {caller : Address} {call : AdvanceTempo W}
    {reply : AdvanceReply} {entries : List (QueueEntry W)}
    (hdecode : decodeDeposits ctx.lib call.deposits = .ok entries)
    (hqueue : ∀ z₁ z₂, z.finalizeCheckpoints ctx [call.header] = .ok z₁ →
      z₁.advanceTokens ctx call.enabledTokens reply.enables = .ok z₂ →
      Avoids e (processQueue ctx reply.mints 0 entries call.decryptions
        z₂.inbox.processedDepositQueueHash z₂) ∧
      ∀ hash leftover z₃, processQueue ctx reply.mints 0 entries call.decryptions
          z₂.inbox.processedDepositQueueHash z₂ = .ok (hash, leftover, z₃) →
        (e = .extraDecryptionData → leftover = []) ∧
        (e = .invalidDepositQueueHash → ctx.portal ≠ 0 → ∀ p, z₃.anchoredPortal ctx = .ok p →
          p.deposits.currentDepositQueueHash = hash)) :
    Avoids e (z.advanceTempo ctx caller call reply) := by
  refine (avoids_require he rfl).bind fun _ _ => (decodeDeposits_avoids he _ _).bind
    fun decoded hdecoded => (finalizeCheckpoints_avoids he _ _).bind fun z₁ hcheckpoint =>
      (advanceTokens_avoids he _ _ _).bind fun z₂ htokens => ?_
  obtain rfl : entries = decoded := Except.ok.inj (hdecode.symm.trans hdecoded)
  obtain ⟨havoids, hchecks⟩ := hqueue z₁ z₂ hcheckpoint htokens
  refine havoids.bind fun result hresult => ?_
  obtain ⟨hash, leftover, z₃⟩ := result
  obtain ⟨hleftover, hhash⟩ := hchecks hash leftover z₃ hresult
  have hextra : Avoids e (require (leftover.isEmpty = true) ZoneError.extraDecryptionData) := by
    refine require fun hne heq => hne ?_
    rw [hleftover heq.symm]
    rfl
  refine hextra.bind fun _ _ => ite (fun hportal => ?_) fun _ => ?_
  · refine (anchoredPortal_avoids he _).bind fun p hp => ?_
    exact (require fun hne heq => hne (hhash heq.symm hportal p hp)).bind fun _ _ =>
      (zoneCheckedAdd_avoids he _ _ _).bind fun _ _ => .pure _
  · exact (zoneCheckedAdd_avoids he _ _ _).bind fun _ _ => .pure _

end Import

end TempoZones
