import TempoZones.Spf.Batch
import TempoZones.System.WithdrawalFifo

/-!
# Block execution over the zone precompiles

`zoneMachine` executes a block of the witness on the model of the zone precompiles: the import, the
calls of the users, and the finalization, as `execute_zone_block` does. The import alone moves the
checkpoint (`executeZoneBlock_checkpoint`). State roots commit to the slots that the batch proof
reads and to a digest of the other state.
-/

namespace TempoZones.Spf

open Lib

variable {W : Type} [EvmWord W] [DecidableEq W]

/-! ## Execution -/

/-- Surroundings of the zone precompiles in every block: libraries, portal address, replies of the
tokens to an import, the calls that user transactions make, and the digest of the state that the batch
proof does not read. -/
structure ZoneSurroundings (W : Type) where
  lib : ZoneLibraries W
  portal : Address
  reply : Zone W → AdvanceReply
  decodeTransaction : Bytes → Option (Address × ZoneCall W)
  digest : Zone W → W

inductive ZoneFailure where
  | reverted (error : ZoneError)
  | invalidTransaction
  | invalidStateWitness
  deriving DecidableEq

def systemCall (ctx : ZoneCtx W) (z : Zone W) (call : ZoneCall W) : Except ZoneFailure (Zone W) :=
  (zoneExec ctx 0 z call).mapError .reverted

namespace ZoneSurroundings

variable (env : ZoneSurroundings W)

def context (config : SpfConfig W) (tempo : TempoWitnessDatabase (Option (Portal W)) W)
    (block : WitnessBlock W) : ZoneCtx W where
  block :=
    { number := block.number, timestamp := block.timestamp
      timestampMillisPart := block.timestampMillisPart, t13 := config.isT13 block.timestamp }
  portal := env.portal
  readPortal := fun n => if n = tempo.tempoBlockNumber then tempo.state else none
  lib := env.lib

def importCall (z : Zone W) : TempoImport W → ZoneCall W
  | .full headerRlp deposits decryptions enabledTokens =>
    .advanceTempo ⟨headerRlp, deposits, decryptions, enabledTokens⟩ (env.reply z)
  | .checkpointOnly headersRlp => .advanceTempoHeaders headersRlp

/-- `execute_user_transactions`; users are neither the zero address nor the inbox. -/
def executeUserTransactions (ctx : ZoneCtx W) :
    List Bytes → Zone W → Except ZoneFailure (Zone W)
  | [], z => pure z
  | tx :: rest, z => do
      let (caller, call) ← (env.decodeTransaction tx).elim (.error .invalidTransaction) pure
      require (caller ≠ 0 ∧ caller ≠ ZONE_INBOX_ADDRESS) ZoneFailure.invalidTransaction
      executeUserTransactions ctx rest (zoneApply ctx caller z call)

def executeFinalizeWithdrawalBatch (ctx : ZoneCtx W) (block : WitnessBlock W) (z : Zone W) :
    Except ZoneFailure (Zone W) :=
  match block.finalizeWithdrawalBatchCount with
  | none => pure z
  | some count => systemCall ctx z
      (.finalizeWithdrawalBatch count block.number block.finalizeWithdrawalBatchEncryptedSenders)

def executeZoneBlock (ctx : ZoneCtx W) (block : WitnessBlock W) (z : Zone W) :
    Except ZoneFailure (Zone W) := do
  let z ← systemCall ctx z (env.importCall z block.tempoImport)
  let z ← env.executeUserTransactions ctx block.transactions z
  executeFinalizeWithdrawalBatch ctx block z

end ZoneSurroundings

open ZoneSurroundings

def slotOf (z : Zone W) : ZoneSlot → W
  | .processedDepositQueueHash => z.inbox.processedDepositQueueHash
  | .processedDepositNumber => EvmWord.ofNat z.inbox.processedDepositNumber
  | .processedEnabledTokenCount => EvmWord.ofNat z.inbox.processedEnabledTokenCount
  | .withdrawalQueueHash => z.outbox.withdrawalQueueHash
  | .withdrawalBatchIndex => EvmWord.ofNat z.outbox.withdrawalBatchIndex
  | .tempoBlockHash => z.tempo.tempoBlockHash
  | .tempoBlockNumber => EvmWord.ofNat z.tempo.tempoBlockNumber

def allSlots : List ZoneSlot :=
  [.processedDepositQueueHash, .processedDepositNumber, .processedEnabledTokenCount,
    .withdrawalQueueHash, .withdrawalBatchIndex, .tempoBlockHash, .tempoBlockNumber]

def ZoneSurroundings.root (env : ZoneSurroundings W) (z : Zone W) : W :=
  keccak256 (.word (env.digest z) :: allSlots.map fun slot => .word (slotOf z slot))

def zoneMachine (env : ZoneSurroundings W) : Machine W where
  ZoneStateWitness := Zone W
  TempoNodePool := W → Option (Portal W)
  ZoneState := Zone W
  TempoTrie := Option (Portal W)
  Failure := ZoneFailure
  decodeHeader := env.lib.decodeHeader
  fromZoneStateWitness := fun z root =>
    if env.root z = root then .ok z else .error .invalidStateWitness
  tempoTrie := fun pool root => .ok (pool root)
  readZoneStorage := fun z slot => .ok (slotOf z slot)
  executeZoneBlock := fun config tempo _ block z => do
    let z ← env.executeZoneBlock (env.context config tempo block) block z
    pure (z, env.root z, [.word (EvmWord.ofNat block.beneficiary.val)])

/-! ## The checkpoint -/

section Checkpoint

variable {env : ZoneSurroundings W} {ctx : ZoneCtx W} {block : WitnessBlock W} {z z' : Zone W}

theorem systemCall_ok {call : ZoneCall W} (h : systemCall ctx z call = .ok z') :
    zoneExec ctx 0 z call = .ok z' := by
  unfold systemCall at h
  cases hexec : zoneExec ctx 0 z call with
  | error e =>
    rw [hexec] at h
    cases h
  | ok z₁ =>
    rw [hexec] at h
    cases h
    rfl

theorem importCall_checkpoint {tempoImport : TempoImport W}
    (h : systemCall ctx z (env.importCall z tempoImport) = .ok z') :
    ∃ z₁, z.finalizeCheckpoints ctx tempoImport.headersRlp = .ok z₁ ∧ z'.tempo = z₁.tempo := by
  have hexec := systemCall_ok h
  cases tempoImport with
  | full headerRlp deposits decryptions enabledTokens => exact advanceTempo_checkpoint hexec
  | checkpointOnly headersRlp =>
    simp only [importCall, zoneExec, Zone.advanceTempoHeaders, bind_ok_iff] at hexec
    obtain ⟨-, -, -, -, hfinalize⟩ := hexec
    exact ⟨z', hfinalize, rfl⟩

theorem executeUserTransactions_tempo {transactions : List Bytes}
    (h : env.executeUserTransactions ctx transactions z = .ok z') : z'.tempo = z.tempo := by
  induction transactions generalizing z with
  | nil =>
    cases pure_ok_iff.1 h
    rfl
  | cons tx rest ih =>
    simp only [executeUserTransactions, ok_iff] at h
    obtain ⟨⟨caller, call⟩, -, -, ⟨hzero, hinbox⟩, h⟩ := h
    exact (ih h).trans (zoneApply_tempo hzero hinbox)

theorem executeFinalizeWithdrawalBatch_tempo
    (h : executeFinalizeWithdrawalBatch ctx block z = .ok z') :
    z'.tempo = z.tempo := by
  unfold executeFinalizeWithdrawalBatch at h
  split at h
  · cases pure_ok_iff.1 h
    rfl
  · obtain ⟨ws, -, rfl, -⟩ := finalizeWithdrawalBatch_ok (systemCall_ok h)
    rfl

theorem executeZoneBlock_checkpoint (h : env.executeZoneBlock ctx block z = .ok z') :
    ∃ z₁, z.finalizeCheckpoints ctx block.tempoImport.headersRlp = .ok z₁ ∧
      z'.tempo = z₁.tempo := by
  simp only [executeZoneBlock, bind_ok_iff] at h
  obtain ⟨zi, himport, zu, husers, hfinalize⟩ := h
  obtain ⟨z₁, hcheckpoint, htempo⟩ := importCall_checkpoint himport
  refine ⟨z₁, hcheckpoint, ?_⟩
  calc z'.tempo = zu.tempo := executeFinalizeWithdrawalBatch_tempo hfinalize
    _ = zi.tempo := executeUserTransactions_tempo husers
    _ = z₁.tempo := htempo

end Checkpoint

end TempoZones.Spf

/-! ## A concrete batch

Block 1 of the example zone imports Tempo block 7, in which token 50 was enabled and a deposit was
made, executes a withdrawal request and finalizes it. -/

namespace TempoZones.Example

open Lib Spf

def decodeTempoHeader (rlp : Bytes) : Option (TempoHeader Sym) :=
  if rlp = [6] then some ⟨.num 5, 6, .num 60, 999, 0⟩
  else if rlp = [7] then some ⟨keccak256 [.raw [6]], 7, .num 70, 1000, 0⟩
  else none

def surroundings : ZoneSurroundings Sym where
  lib := { zoneCtx.lib with decodeHeader := decodeTempoHeader }
  portal := ext.self
  reply := fun _ => firstReplies
  decodeTransaction := fun _ => some (20, .requestWithdrawal 20 (.num 11) request burnReply)
  digest := fun z => .num (z.tokens.supply 50)

def spfGenesis : Zone Sym := .genesis ⟨keccak256 [.raw [6]], 6⟩ fun _ => false

def genesisHeader : ZoneHeader Sym := ⟨⟨0, 0, surroundings.root spfGenesis, 999, 0⟩, []⟩

def spfConfig : SpfConfig Sym where
  chainId := 2 ^ 32 + 1
  genesisHeader := genesisHeader
  isT13 := fun _ => true

def blockOne (parent : ZoneHeader Sym) : WitnessBlock Sym where
  tempoImport := .full [7] firstImport.deposits firstImport.decryptions firstImport.enabledTokens
  finalizeWithdrawalBatchCount := some 1
  finalizeWithdrawalBatchEncryptedSenders := [[]]
  transactions := [[]]
  number := 1
  parentHash := parent.hashSlow
  timestamp := 1000
  timestampMillisPart := 5
  beneficiary := 1

def firstWitness (parent : ZoneHeader Sym) (z : Zone Sym) :
    BatchWitness (zoneMachine surroundings) where
  publicInputs := ⟨1, 1, 7, 7, keccak256 [.raw [7]], 1⟩
  parentHeader := parent
  zoneBlocks := [blockOne parent]
  zoneStateWitness := z
  initialTempoHeaderRlp := [6]
  tempoNodePool := fun root => if root = .num 70 then some deposited.portal else none
  tempoAncestryHeaders := []

def zoneOne (z : Zone Sym) : Zone Sym :=
  let ctx := surroundings.context spfConfig ⟨some deposited.portal, keccak256 [.raw [7]], 7⟩
    (blockOne genesisHeader)
  zoneApply ctx 0 (zoneApply ctx 20 (zoneApply ctx 0 z
    (surroundings.importCall z (blockOne genesisHeader).tempoImport))
    (.requestWithdrawal 20 (.num 11) request burnReply)) (.finalizeWithdrawalBatch 1 1 [[]])

def headerOne (parent : ZoneHeader Sym) (z : Zone Sym) : ZoneHeader Sym :=
  ⟨⟨parent.hashSlow, 1, surroundings.root (zoneOne z), 1000, 5⟩, [.word (.num 1)]⟩

def firstOutput (parent : ZoneHeader Sym) (z : Zone Sym) : BatchOutput Sym where
  nextZoneHeight := 1
  blockTransition := ⟨0, (headerOne parent z).hashSlow⟩
  depositQueueTransition := ⟨0, processedHash, 0, 1⟩
  tokenEnablementTransition := ⟨0, 1⟩
  withdrawalQueueHash := Withdrawal.queueHash [sent]
  withdrawalBatchIndex := 1

theorem eq_ok_of_toOption {ε α : Type} {x : Except ε α} {a : α} (h : x.toOption = some a) :
    x = .ok a := by
  cases x with
  | error e => cases h
  | ok b =>
    cases h
    rfl

theorem genesis_batch_proved : (zoneMachine surroundings).proveZoneBatch spfConfig
    (firstWitness genesisHeader spfGenesis) = .ok (firstOutput genesisHeader spfGenesis) :=
  eq_ok_of_toOption (by decide +kernel)

end TempoZones.Example
