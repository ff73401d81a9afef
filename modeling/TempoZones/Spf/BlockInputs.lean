import TempoZones.Zone.Inbox

/-!
# Block inputs of the batch proof

The checks that the batch proof makes on the system inputs of every block before executing it:
`validateSystemInputs` and `validateBatchBlockShape`.
-/

namespace TempoZones.Spf

open Lib

variable {W : Type}

inductive TempoImport (W : Type) where
  | full (headerRlp : Bytes) (deposits : List QueuedDeposit) (decryptions : List (DecryptionData W))
      (enabledTokens : List EnabledToken)
  | checkpointOnly (headersRlp : List Bytes)

def TempoImport.headersRlp : TempoImport W → List Bytes
  | .full headerRlp _ _ _ => [headerRlp]
  | .checkpointOnly headersRlp => headersRlp

/-- `ZoneBlock` of the witness, with the fields that the checks read. -/
structure ZoneBlock (W : Type) where
  tempoImport : TempoImport W
  finalizeWithdrawalBatchCount : Option ℕ
  finalizeWithdrawalBatchEncryptedSenders : List Bytes
  transactions : List Bytes

inductive Error where
  | missingTempoHeaders (blockIndex : ℕ)
  | portalWorkCapacityExceeded (blockIndex : ℕ)
  | invalidCheckpointOnlyBlock (blockIndex : ℕ)
  | finalizationEncryptedSenderCountMismatch (blockIndex expected actual : ℕ)
  | finalizationEncryptedSendersWithoutCount (blockIndex : ℕ)
  | invalidBatchShape
  deriving DecidableEq

/-- Checks of the import itself in `validate_system_inputs`. -/
def ZoneBlock.validateImport (block : ZoneBlock W) (index : ℕ) : Except Error Unit :=
  match block.tempoImport with
  | .full _ deposits _ enabledTokens =>
    require (¬ (deposits.length > MAX_UNPROCESSED_DEPOSITS ∨
      enabledTokens.length > MAX_UNPROCESSED_TOKEN_ENABLEMENTS))
      (Error.portalWorkCapacityExceeded index)
  | .checkpointOnly _ =>
    require (¬ (¬ block.transactions.isEmpty = true ∨
      block.finalizeWithdrawalBatchCount.isSome = true ∨
      ¬ block.finalizeWithdrawalBatchEncryptedSenders.isEmpty = true))
      (Error.invalidCheckpointOnlyBlock index)

/-- Checks of the finalization inputs in `validate_system_inputs`. -/
def ZoneBlock.validateFinalization (block : ZoneBlock W) (index : ℕ) : Except Error Unit :=
  match block.finalizeWithdrawalBatchCount with
  | some count =>
    require (count = block.finalizeWithdrawalBatchEncryptedSenders.length)
      (Error.finalizationEncryptedSenderCountMismatch index count
        block.finalizeWithdrawalBatchEncryptedSenders.length)
  | none =>
    require (block.finalizeWithdrawalBatchEncryptedSenders.isEmpty = true)
      (Error.finalizationEncryptedSendersWithoutCount index)

def ZoneBlock.validateSystemInputs (block : ZoneBlock W) (index : ℕ) : Except Error Unit := do
  require (¬ block.tempoImport.headersRlp.isEmpty = true) (Error.missingTempoHeaders index)
  block.validateImport index
  block.validateFinalization index

def ZoneBlock.validateBatchBlockShape (block : ZoneBlock W) (isLast : Bool) : Except Error Unit :=
  have valid := match block.tempoImport, isLast with
    | .checkpointOnly _, false => true
    | .full _ _ _ _, false => block.finalizeWithdrawalBatchCount.isNone
    | .full _ _ _ _, true => block.finalizeWithdrawalBatchCount.isSome
    | .checkpointOnly _, true => false
  require (valid = true) Error.invalidBatchShape

theorem ZoneBlock.validateSystemInputs_avoids {block : ZoneBlock W} {headerRlp : Bytes}
    {deposits : List QueuedDeposit} {decryptions : List (DecryptionData W)}
    {enabledTokens : List EnabledToken}
    (full : block.tempoImport = .full headerRlp deposits decryptions enabledTokens)
    (hdeposits : deposits.length ≤ MAX_UNPROCESSED_DEPOSITS)
    (htokens : enabledTokens.length ≤ MAX_UNPROCESSED_TOKEN_ENABLEMENTS) (i j : ℕ) :
    Avoids (.portalWorkCapacityExceeded j) (block.validateSystemInputs i) := by
  have hother : ∀ {c : Prop} [Decidable c] {e : Error}, e ≠ .portalWorkCapacityExceeded j →
      Avoids (.portalWorkCapacityExceeded j) (require c e : Except Error PUnit.{1}) :=
    fun h => .require fun _ => h
  refine Avoids.bind (hother (by simp)) fun _ _ => Avoids.bind ?_ fun _ _ => ?_
  · rw [validateImport, full]
    exact .require fun h => absurd (by omega) h
  unfold validateFinalization
  split
  · exact hother (by simp)
  · exact hother (by simp)

end TempoZones.Spf
