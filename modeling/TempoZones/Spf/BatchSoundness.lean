import TempoZones.Spf.ZoneMachine

/-!
# Soundness of the batch proof

A batch that `proveZoneBatch` accepts is a chain of valid blocks on the parent header, its imports
and ancestry headers are one chain of Tempo headers from the parent's checkpoint to the anchor, and
the transitions are the values stored at the two ends. `Machine.Lawful` is what is assumed of the
code around it: state roots commit to the slots, and the import transaction runs
`finalizeCheckpoints`.
-/

namespace TempoZones.Spf

open Lib EvmWord List

variable {W : Type} [EvmWord W] [DecidableEq W] {number : ℕ} {hash : W} {F : Type}

/-! ## Chains of Tempo headers -/

/-- The headers lead from one checkpoint to another: each decodes, names the hash of the one before it
as its parent and has the next number. -/
inductive Extends (decodeHeader : Bytes → Option (TempoHeader W)) :
    TempoState W → List Bytes → TempoState W → Prop
  | nil (t : TempoState W) : Extends decodeHeader t [] t
  | cons {t t' : TempoState W} {rlp : Bytes} {rest : List Bytes} {header : TempoHeader W}
      (decoded : decodeHeader rlp = some header) (parent : header.parentHash = t.tempoBlockHash)
      (next : header.number = t.tempoBlockNumber + 1)
      (tail : Extends decodeHeader ⟨keccak256 [.raw rlp], header.number⟩ rest t') :
      Extends decodeHeader t (rlp :: rest) t'

section Chains

variable {decodeHeader : Bytes → Option (TempoHeader W)} {t t' t'' : TempoState W}
  {headers more : List Bytes}

theorem Extends.append (first : Extends decodeHeader t headers t')
    (second : Extends decodeHeader t' more t'') : Extends decodeHeader t (headers ++ more) t'' := by
  induction first with
  | nil t => exact second
  | cons decoded parent next _ ih => exact .cons decoded parent next (ih second)

theorem Extends.number_eq (h : Extends decodeHeader t headers t') :
    t'.tempoBlockNumber = t.tempoBlockNumber + headers.length := by
  induction h with
  | nil t => rfl
  | @cons t t' rlp rest header decoded parent next tail ih =>
    simp only [length_cons]
    simp only at ih
    omega

theorem elim_pure_eq_ok {ε α : Type} {x : Option α} {e : ε} {a : α} :
    x.elim (Except.error e) pure = .ok a ↔ x = some a := by
  cases x with
  | none => exact ⟨nofun, nofun⟩
  | some b => exact pure_ok_iff.trans ⟨congrArg some, Option.some.inj⟩

theorem checkHeaders_extends {ctx : ZoneCtx W} {hash' : W} {number' : ℕ}
    {last last' : Option (TempoHeader W)}
    (h : checkHeaders ctx hash number last headers = .ok (hash', number', last')) :
    Extends ctx.lib.decodeHeader ⟨hash, number⟩ headers ⟨hash', number'⟩ := by
  induction headers generalizing hash number last with
  | nil =>
    cases pure_ok_iff.1 h
    exact .nil _
  | cons rlp rest ih =>
    simp only [checkHeaders, ok_iff, elim_pure_eq_ok] at h
    obtain ⟨header, hdecode, -, hparent, -, ⟨-, hnext⟩, h⟩ := h
    exact .cons hdecode hparent hnext.symm (ih h)

theorem finalizeCheckpoints_extends {ctx : ZoneCtx W} {z z' : Zone W}
    (h : z.finalizeCheckpoints ctx headers = .ok z') :
    headers ≠ [] ∧ Extends ctx.lib.decodeHeader z.tempo headers z'.tempo := by
  simp only [Zone.finalizeCheckpoints, ok_iff] at h
  obtain ⟨-, hheaders, -, -, ⟨hash, number, last⟩, hcheck, -, -, -, -, rfl⟩ := h
  exact ⟨fun hnil => hheaders (.inl hnil), checkHeaders_extends hcheck⟩

theorem checkAncestry_extends {index : ℕ} {hash' : W}
    (h : checkAncestry (F := F) decodeHeader index number hash headers = .ok hash') :
    Extends decodeHeader ⟨hash, number⟩ headers ⟨hash', number + headers.length⟩ := by
  induction headers generalizing index number hash with
  | nil =>
    cases pure_ok_iff.1 h
    exact .nil _
  | cons rlp rest ih =>
    simp only [checkAncestry, ok_iff, elim_pure_eq_ok] at h
    obtain ⟨header, hdecode, -, -, -, hnext, -, hparent, h⟩ := h
    have htail := ih h
    have hlength : header.number + rest.length = number + (rlp :: rest).length := by
      rw [hnext, length_cons]
      omega
    rw [hlength] at htail
    exact .cons hdecode hparent hnext htail

theorem validateTempoAnchor_ok {inputs : PublicInputs W} {u : Unit}
    (h : validateTempoAnchor (F := F) decodeHeader number hash inputs headers = .ok u) :
    number ≤ inputs.anchorBlockNumber ∧ headers.length = inputs.anchorBlockNumber - number ∧
      Extends decodeHeader ⟨hash, number⟩ headers
        ⟨inputs.anchorBlockHash, inputs.anchorBlockNumber⟩ := by
  simp only [validateTempoAnchor, ok_iff] at h
  obtain ⟨-, hle, h⟩ := h
  have hle : number ≤ inputs.anchorBlockNumber := Nat.le_of_not_lt hle
  split at h
  · next hequal =>
    -- direct anchor: nothing in between
    simp only [ok_iff, List.isEmpty_iff] at h
    obtain ⟨-, rfl, rfl⟩ := h
    refine ⟨hle, by simp [hequal], ?_⟩
    rw [hequal]
    exact .nil _
  simp only [ok_iff] at h
  obtain ⟨-, hlength, hash', hcheck, rfl⟩ := h
  have hchain := checkAncestry_extends hcheck
  have hnumber : number + headers.length = inputs.anchorBlockNumber := by omega
  rw [hnumber] at hchain
  exact ⟨hle, hlength, hchain⟩

theorem checkAncestry_of_extends (h : Extends decodeHeader t headers t') :
    ∀ index, t'.tempoBlockNumber < 2 ^ 64 →
      checkAncestry (F := F) decodeHeader index t.tempoBlockNumber t.tempoBlockHash headers =
        .ok t'.tempoBlockHash := by
  induction h with
  | nil t => exact fun _ _ => rfl
  | @cons t t' rlp rest header decoded parent next tail ih =>
    intro index hbound
    have hnumber := tail.number_eq
    rw [next] at hnumber
    have hsmall : t.tempoBlockNumber + 1 < 2 ^ 64 := by
      simp only at hnumber
      omega
    simp only [checkAncestry, ok_iff, elim_pure_eq_ok]
    exact ⟨header, decoded, ⟨⟩, hsmall, ⟨⟩, next, ⟨⟩, parent, ih (index + 1) hbound⟩

theorem validateTempoAnchor_of_extends {inputs : PublicInputs W}
    (hbound : inputs.anchorBlockNumber < 2 ^ 64)
    (h : Extends decodeHeader ⟨hash, number⟩ headers ⟨inputs.anchorBlockHash, inputs.anchorBlockNumber⟩) :
    validateTempoAnchor (F := F) decodeHeader number hash inputs headers = .ok () := by
  have hnumber : inputs.anchorBlockNumber = number + headers.length := h.number_eq
  have hafter : ¬ inputs.anchorBlockNumber < number := by omega
  simp only [validateTempoAnchor, ok_iff]
  refine ⟨⟨⟩, hafter, ?_⟩
  split
  · next hequal =>
    have hnil : headers = [] := eq_nil_of_length_eq_zero (by omega)
    subst hnil
    cases h
    simp only [ok_iff]
    exact ⟨⟨⟩, rfl, trivial⟩
  · simp only [ok_iff]
    exact ⟨⟨⟩, by omega, _, checkAncestry_of_extends h 0 hbound, rfl⟩

end Chains

/-! ## Headers -/

def ZoneHeader.millis (h : ZoneHeader W) : ℕ := h.timestamp * 1000 + h.timestampMillisPart

theorem ZoneHeader.hashSlow_injective (hc : CollisionFree W) :
    Function.Injective (ZoneHeader.hashSlow (W := W)) := by
  rintro ⟨⟨parent, number, root, time, millis⟩, rest⟩
    ⟨⟨parent', number', root', time', millis'⟩, rest'⟩ h
  have hchunks := hc.keccak_inj h
  simp only [cons.injEq, Chunk.word.injEq] at hchunks
  obtain ⟨rfl, hnumber, rfl, htime, hmillis, rfl⟩ := hchunks
  rw [ofNat_injective hnumber, ofNat_injective htime, ofNat_injective hmillis]

theorem ZoneHeader.hashSlow_ne_zero (hc : CollisionFree W) (h : ZoneHeader W) : h.hashSlow ≠ 0 :=
  hc.keccak_ne_zero _

/-! ## Assumptions -/

namespace Machine

variable (m : Machine W)

def Stores (s : m.ZoneState) (slot : ZoneSlot) (value : W) : Prop :=
  m.readZoneStorage s slot = .ok value

def StoresNat (s : m.ZoneState) (slot : ZoneSlot) (n : ℕ) : Prop :=
  ∃ value, m.Stores s slot value ∧ toNat value = n

def Checkpoint (s : m.ZoneState) (t : TempoState W) : Prop :=
  m.Stores s .tempoBlockHash t.tempoBlockHash ∧ m.StoresNat s .tempoBlockNumber t.tempoBlockNumber

variable {m} in
theorem StoresNat.unique {s : m.ZoneState} {slot : ZoneSlot} {a b : ℕ} (ha : m.StoresNat s slot a)
    (hb : m.StoresNat s slot b) : a = b := by
  obtain ⟨v, hv, rfl⟩ := ha
  obtain ⟨w, hw, rfl⟩ := hb
  obtain rfl : v = w := Except.ok.inj (hv.symm.trans hw)
  rfl

variable {m} in
theorem Checkpoint.unique {s : m.ZoneState} {t u : TempoState W} (ht : m.Checkpoint s t)
    (hu : m.Checkpoint s u) : t = u := by
  obtain ⟨hash, number⟩ := t
  obtain ⟨hash', number'⟩ := u
  have hhash : hash = hash' := Except.ok.inj (ht.1.symm.trans hu.1)
  have hnumber : number = number' := ht.2.unique hu.2
  rw [hhash, hnumber]

/-- Assumptions on the code around the batch proof; `commit` is the state root of a zone state. -/
structure Lawful (commit : m.ZoneState → W) : Prop where
  /-- A state is opened at the root that it commits to. -/
  opened : ∀ {witness : m.ZoneStateWitness} {root : W} {s : m.ZoneState},
    m.fromZoneStateWitness witness root = .ok s → commit s = root
  /-- Execution returns the root of the state that it leaves. -/
  rooted : ∀ {config : SpfConfig W} {tempo : TempoWitnessDatabase m.TempoTrie W}
    {parent : ZoneHeader W} {block : WitnessBlock W} {s s' : m.ZoneState} {root : W}
    {rest : List (Chunk W)},
    m.executeZoneBlock config tempo parent block s = .ok (s', root, rest) → commit s' = root
  /-- A root determines the slots. -/
  binding : ∀ {s s' : m.ZoneState} {slot : ZoneSlot} {value value' : W}, commit s = commit s' →
    m.Stores s slot value → m.Stores s' slot value' → value = value'
  /-- The import transaction of a block finalizes its headers on the stored checkpoint, and nothing
  else in the block moves the checkpoint. -/
  imports : ∀ {config : SpfConfig W} {tempo : TempoWitnessDatabase m.TempoTrie W}
    {parent : ZoneHeader W} {block : WitnessBlock W} {s s' : m.ZoneState} {root : W}
    {rest : List (Chunk W)},
    m.executeZoneBlock config tempo parent block s = .ok (s', root, rest) →
    ∃ (ctx : ZoneCtx W) (z z' : Zone W), ctx.lib.decodeHeader = m.decodeHeader ∧
      m.Checkpoint s z.tempo ∧
      z.finalizeCheckpoints ctx block.tempoImport.headersRlp = .ok z' ∧ m.Checkpoint s' z'.tempo

/-! ## Valid blocks -/

/-- `header` is the header of a valid block on `parent`, which turns `s` into `s'`. -/
structure ValidBlock (commit : m.ZoneState → W) (config : SpfConfig W) (parent : ZoneHeader W)
    (s : m.ZoneState) (block : WitnessBlock W) (header : ZoneHeader W) (s' : m.ZoneState) :
    Prop where
  linked : header.parentHash = parent.hashSlow
  next : header.number = parent.number + 1
  number_eq : block.number = header.number
  timely : parent.millis ≤ header.millis
  nonempty : block.tempoImport.headersRlp ≠ []
  /-- The imports continue the stored checkpoint. -/
  imported : ∃ t t', m.Checkpoint s t ∧ Extends m.decodeHeader t block.tempoImport.headersRlp t' ∧
    m.Checkpoint s' t'
  /-- The block executes, reading Tempo state at the checkpoint that it imports. -/
  executed : ∃ pool rlp tempo rest, block.tempoImport.headersRlp.getLast? = some rlp ∧
    m.checkpointState pool rlp = .ok tempo ∧
    m.executeZoneBlock config tempo parent block s = .ok (s', header.stateRoot, rest) ∧
    header = assembleBlock parent block header.stateRoot rest
  committed : commit s' = header.stateRoot

inductive Replays (commit : m.ZoneState → W) (config : SpfConfig W) :
    ZoneHeader W → m.ZoneState → List (WitnessBlock W) → ZoneHeader W → m.ZoneState → Prop
  | nil (parent : ZoneHeader W) (s : m.ZoneState) : Replays commit config parent s [] parent s
  | cons {parent header last : ZoneHeader W} {s s₁ s' : m.ZoneState} {block : WitnessBlock W}
      {blocks : List (WitnessBlock W)} (first : m.ValidBlock commit config parent s block header s₁)
      (tail : Replays commit config header s₁ blocks last s') :
      Replays commit config parent s (block :: blocks) last s'

end Machine

def TempoImport.isFull : TempoImport W → Bool
  | .full _ _ _ _ => true
  | .checkpointOnly _ => false

/-- A batch ends with a full import that finalizes withdrawals, and no earlier block finalizes. -/
def EndsFinalized (blocks : List (WitnessBlock W)) : Prop :=
  ∃ earlier final, blocks = earlier ++ [final] ∧ final.tempoImport.isFull = true ∧
    final.finalizeWithdrawalBatchCount.isSome = true ∧
    ∀ block ∈ earlier, block.finalizeWithdrawalBatchCount = none

theorem ZoneBlock.validateBatchBlockShape_last {block : ZoneBlock W} {u : Unit}
    (h : block.validateBatchBlockShape true = .ok u) :
    block.tempoImport.isFull = true ∧ block.finalizeWithdrawalBatchCount.isSome = true := by
  simp only [ZoneBlock.validateBatchBlockShape, require_ok_iff] at h
  split at h
  · contradiction
  · contradiction
  · next himport _ =>
    rw [himport]
    exact ⟨rfl, h⟩
  · cases h

theorem ZoneBlock.finalize_eq_none {block : ZoneBlock W} {index : ℕ} {u v : Unit}
    (inputs : block.validateSystemInputs index = .ok u)
    (shape : block.validateBatchBlockShape false = .ok v) :
    block.finalizeWithdrawalBatchCount = none := by
  simp only [ZoneBlock.validateBatchBlockShape, require_ok_iff] at shape
  split at shape
  · next himport _ =>
    -- a checkpoint-only block may not finalize at all
    simp only [ZoneBlock.validateSystemInputs, ZoneBlock.validateImport, himport, ok_iff] at inputs
    obtain ⟨-, -, -, hempty, -⟩ := inputs
    by_contra hsome
    exact hempty (.inr (.inl (Option.isSome_iff_ne_none.2 hsome)))
  · exact Option.isNone_iff_eq_none.1 shape
  · contradiction
  · contradiction

theorem checkedMillis_ok {timestamp millisPart n : ℕ} {overflow : BatchError F W}
    (h : checkedMillis timestamp millisPart overflow = .ok n) :
    n = timestamp * 1000 + millisPart := by
  simp only [checkedMillis, ok_iff] at h
  obtain ⟨-, -, -, -, rfl⟩ := h
  rfl

theorem validateZoneBlockTimestamp_ok {block : WitnessBlock W} {index : ℕ} {parent : ZoneHeader W}
    {u : Unit} (h : validateZoneBlockTimestamp (F := F) block index parent = .ok u) :
    parent.millis ≤ block.timestamp * 1000 + block.timestampMillisPart := by
  simp only [validateZoneBlockTimestamp, ok_iff] at h
  obtain ⟨-, -, actual, hactual, previous, hprevious, horder⟩ := h
  rw [checkedMillis_ok hactual, checkedMillis_ok hprevious] at horder
  exact Nat.le_of_not_lt horder

namespace Machine

variable {m : Machine W} {commit : m.ZoneState → W} {config : SpfConfig W} {s : m.ZoneState}
  {slot : ZoneSlot}

theorem readHash_ok {value : W} : m.readHash s slot = .ok value ↔ m.Stores s slot value :=
  liftError_eq_ok

theorem readU64_ok {n : ℕ} (h : m.readU64 s slot = .ok n) : m.StoresNat s slot n := by
  simp only [readU64, ok_iff, readHash_ok] at h
  obtain ⟨value, hvalue, -, -, rfl⟩ := h
  exact ⟨value, hvalue, rfl⟩

section Replay

variable {pool : m.TempoNodePool} {index : ℕ} {isLast : Bool} {block : WitnessBlock W}
  {blocks : List (WitnessBlock W)} {previous header last : ZoneHeader W} {s s' : m.ZoneState}

theorem replayBlock_valid (lawful : m.Lawful commit)
    (h : m.replayBlock config pool index isLast block previous s = .ok (header, s')) :
    m.ValidBlock commit config previous s block header s' := by
  simp only [replayBlock, ok_iff, liftError_eq_ok, elim_pure_eq_ok, Prod.mk.injEq] at h
  obtain ⟨-, hparent, -, -, -, hnumber, _, htime, -, -, -, -, rlp, hlast, tempo, htempo,
    ⟨s₁, root, rest⟩, hexecute, rfl, rfl⟩ := h
  obtain ⟨ctx, z, z', hlib, hbefore, hfinalize, hafter⟩ := lawful.imports hexecute
  obtain ⟨hnonempty, hextends⟩ := finalizeCheckpoints_extends hfinalize
  rw [hlib] at hextends
  exact
    { linked := hparent
      next := rfl
      number_eq := hnumber
      timely := validateZoneBlockTimestamp_ok htime
      nonempty := hnonempty
      imported := ⟨z.tempo, z'.tempo, hbefore, hextends, hafter⟩
      executed := ⟨pool, rlp, tempo, rest, hlast, htempo, hexecute, rfl⟩
      committed := lawful.rooted hexecute }

theorem replayBlock_shape
    (h : m.replayBlock config pool index isLast block previous s = .ok (header, s')) :
    if isLast = true then
      block.tempoImport.isFull = true ∧ block.finalizeWithdrawalBatchCount.isSome = true
    else block.finalizeWithdrawalBatchCount = none := by
  simp only [replayBlock, bind_ok_iff, liftError_eq_ok] at h
  obtain ⟨-, -, -, -, -, -, -, -, _, hinputs, _, hshape, -⟩ := h
  cases isLast with
  | true => exact ZoneBlock.validateBatchBlockShape_last hshape
  | false => exact ZoneBlock.finalize_eq_none hinputs hshape

theorem replayBlocks_replays (lawful : m.Lawful commit)
    (h : m.replayBlocks config pool index blocks previous s = .ok (last, s')) :
    m.Replays commit config previous s blocks last s' := by
  induction blocks generalizing index previous s with
  | nil =>
    cases pure_ok_iff.1 h
    exact .nil _ _
  | cons block blocks ih =>
    simp only [replayBlocks, bind_ok_iff] at h
    obtain ⟨⟨header, s₁⟩, hblock, h⟩ := h
    exact .cons (replayBlock_valid lawful hblock) (ih h)

theorem replayBlocks_shape (nonempty : blocks ≠ [])
    (h : m.replayBlocks config pool index blocks previous s = .ok (last, s')) :
    EndsFinalized blocks := by
  induction blocks generalizing index previous s with
  | nil => exact absurd rfl nonempty
  | cons block blocks ih =>
    simp only [replayBlocks, bind_ok_iff] at h
    obtain ⟨⟨header, s₁⟩, hblock, h⟩ := h
    have hshape := replayBlock_shape hblock
    cases blocks with
    | nil => exact ⟨[], block, rfl, hshape.1, hshape.2, nofun⟩
    | cons next rest =>
      obtain ⟨earlier, final, heq, hfull, hfinal, hnone⟩ := ih (cons_ne_nil _ _) h
      refine ⟨block :: earlier, final, congrArg (block :: ·) heq, hfull, hfinal, ?_⟩
      intro b hb
      rcases mem_cons.1 hb with rfl | hb
      · exact hshape
      · exact hnone b hb

end Replay

/-! ## Chains of blocks -/

section Chain

variable {blocks : List (WitnessBlock W)} {parent last : ZoneHeader W} {s s' : m.ZoneState}

section

variable (h : m.Replays commit config parent s blocks last s')
include h

theorem Replays.number_eq {i : ℕ} {block : WitnessBlock W} (hi : blocks[i]? = some block) :
    block.number = parent.number + 1 + i := by
  induction h generalizing i with
  | nil => cases hi
  | cons first _ ih =>
    cases i with
    | zero =>
      cases hi
      exact first.number_eq.trans first.next
    | succ i =>
      have hnumber := ih hi
      rw [first.next] at hnumber
      omega

theorem Replays.imports {t : TempoState W} (ht : m.Checkpoint s t) : ∃ t', m.Checkpoint s' t' ∧
      Extends m.decodeHeader t (blocks.flatMap fun block => block.tempoImport.headersRlp) t' := by
  induction h generalizing t with
  | nil => exact ⟨t, ht, .nil t⟩
  | cons first _ ih =>
    obtain ⟨u, u', hu, hextends, hu'⟩ := first.imported
    obtain rfl := ht.unique hu
    obtain ⟨t', ht', htail⟩ := ih hu'
    exact ⟨t', ht', hextends.append htail⟩

theorem Replays.committed (hs : commit s = parent.stateRoot) : commit s' = last.stateRoot := by
  induction h with
  | nil => exact hs
  | cons first _ ih => exact ih first.committed

end

end Chain

/-! ## Accepted batches -/

/-- What an accepted batch consists of: the states and the header at its ends, and the output. -/
structure SoundBatch (m : Machine W) (commit : m.ZoneState → W) (config : SpfConfig W)
    (witness : BatchWitness m) (output : BatchOutput W) (s s' : m.ZoneState) (last : ZoneHeader W) : Prop where
  /-- The blocks are valid and lead from the parent header and its state to the last header and its
  state. -/
  opened : commit s = witness.parentHeader.stateRoot
  replays : m.Replays commit config witness.parentHeader s witness.zoneBlocks last s'
  closed : commit s' = last.stateRoot
  numbers : ∀ i block, witness.zoneBlocks[i]? = some block →
    block.number = witness.parentHeader.number + 1 + i
  finalized : EndsFinalized witness.zoneBlocks
  /-- The block transition; the zero hash stands for the parent of block 1 and for no other. -/
  previous_hash : output.blockTransition.prevBlockHash =
    if witness.parentHeader.number = 0 then 0 else witness.parentHeader.hashSlow
  previous_zero : output.blockTransition.prevBlockHash = 0 ↔
    ∃ first, witness.zoneBlocks.head? = some first ∧ first.number = 1
  next_hash : output.blockTransition.nextBlockHash = last.hashSlow
  next_height : output.nextZoneHeight = last.number
  /-- The Tempo headers: one chain from the stored checkpoint through all imports to the checkpoint
  reported, and on to the anchor. -/
  anchored : ∃ t t', m.Checkpoint s t ∧ m.Checkpoint s' t' ∧
    Extends m.decodeHeader t
      (witness.zoneBlocks.flatMap fun block => block.tempoImport.headersRlp) t' ∧
    t'.tempoBlockNumber = witness.publicInputs.tempoBlockNumber ∧
    Extends m.decodeHeader t' witness.tempoAncestryHeaders
      ⟨witness.publicInputs.anchorBlockHash, witness.publicInputs.anchorBlockNumber⟩
  distance : witness.publicInputs.anchorBlockNumber =
    witness.publicInputs.tempoBlockNumber + witness.tempoAncestryHeaders.length
  /-- The transitions of the queues are the values stored at the ends. -/
  previous_deposits :
    m.Stores s .processedDepositQueueHash output.depositQueueTransition.prevProcessedHash ∧
    m.StoresNat s .processedDepositNumber output.depositQueueTransition.prevDepositNumber
  next_deposits :
    m.Stores s' .processedDepositQueueHash output.depositQueueTransition.nextProcessedHash ∧
    m.StoresNat s' .processedDepositNumber output.depositQueueTransition.nextDepositNumber
  previous_tokens : m.StoresNat s .processedEnabledTokenCount
    output.tokenEnablementTransition.prevProcessedTokenCount
  next_tokens : m.StoresNat s' .processedEnabledTokenCount
    output.tokenEnablementTransition.nextProcessedTokenCount
  withdrawals : m.Stores s' .withdrawalQueueHash output.withdrawalQueueHash ∧
    ∃ index, m.StoresNat s' .withdrawalBatchIndex index ∧ output.withdrawalBatchIndex = uint64 index
  batch_index : output.withdrawalBatchIndex = witness.publicInputs.expectedWithdrawalBatchIndex

variable {witness : BatchWitness m}

theorem readWithdrawals_ok {index : ℕ} (shape : EndsFinalized witness.zoneBlocks)
    (h : m.readWithdrawals witness s = .ok (hash, index)) :
    m.Stores s .withdrawalQueueHash hash ∧
      ∃ stored, m.StoresNat s .withdrawalBatchIndex stored ∧ index = uint64 stored := by
  obtain ⟨earlier, final, hblocks, -, hfinal, -⟩ := shape
  have hany : witness.zoneBlocks.any (fun block => block.finalizeWithdrawalBatchCount.isSome) =
      true := by
    rw [hblocks, any_append]
    simp [hfinal]
  simp only [readWithdrawals, if_pos hany, ok_iff, readHash_ok, Prod.mk.injEq] at h
  obtain ⟨hash', hhash, word, hword, rfl, rfl⟩ := h
  exact ⟨hhash, _, ⟨word, hword, rfl⟩, rfl⟩

theorem checkInitialTempo_ok {u : Unit} (h : m.checkInitialTempo witness s = .ok u) :
    ∃ t, m.Checkpoint s t := by
  simp only [checkInitialTempo, bind_ok_iff, readHash_ok] at h
  obtain ⟨tempo, -, hash, hhash, number, hnumber, -⟩ := h
  exact ⟨⟨hash, number⟩, hhash, readU64_ok hnumber⟩

theorem proveZoneBatch_sound (hc : CollisionFree W) (lawful : m.Lawful commit)
    {output : BatchOutput W} (h : m.proveZoneBatch config witness = .ok output) :
    ∃ s s' last, m.SoundBatch commit config witness output s s' last := by
  simp only [proveZoneBatch, ok_iff, liftError_eq_ok, elim_pure_eq_ok, readHash_ok] at h
  obtain ⟨first, hfirst, -, -, s, hopen, prevHash, hprevHash, prevNumber, hprevNumber, prevTokens,
    hprevTokens, _, hinitial, ⟨last, s'⟩, hreplay, nextHash, hnextHash, nextNumber, hnextNumber,
    nextTokens, hnextTokens, ⟨queueHash, batchIndex⟩, hwithdrawals, tempoHash, htempoHash,
    tempoNumber, htempoNumber, -, hfinal, _, hanchor, -, hindex, rfl⟩ := h
  have hopened := lawful.opened hopen
  have hreplays := replayBlocks_replays lawful hreplay
  have hnonempty : witness.zoneBlocks ≠ [] := by
    rintro hnil
    rw [hnil] at hfirst
    cases hfirst
  have hshape := replayBlocks_shape hnonempty hreplay
  have hnumber : first.number = witness.parentHeader.number + 1 :=
    hreplays.number_eq (head?_eq_getElem?.symm.trans hfirst)
  have hzero : first.number = 1 ↔ witness.parentHeader.number = 0 := by omega
  obtain ⟨t, ht⟩ := checkInitialTempo_ok hinitial
  obtain ⟨t', ht', himports⟩ := hreplays.imports ht
  -- the final reads see the checkpoint that the imports reach
  obtain rfl : t' = ⟨tempoHash, tempoNumber⟩ := ht'.unique ⟨htempoHash, readU64_ok htempoNumber⟩
  obtain ⟨hle, hlength, hancestry⟩ := validateTempoAnchor_ok hanchor
  refine ⟨s, s', last,
    { opened := hopened
      replays := hreplays
      closed := hreplays.committed hopened
      numbers := fun i block hi => hreplays.number_eq hi
      finalized := hshape
      previous_hash := by simp only [hzero]
      previous_zero := ?_
      next_hash := rfl
      next_height := rfl
      anchored := ⟨t, _, ht, ht', himports, hfinal, hancestry⟩
      distance := by omega
      previous_deposits := ⟨hprevHash, readU64_ok hprevNumber⟩
      next_deposits := ⟨hnextHash, readU64_ok hnextNumber⟩
      previous_tokens := readU64_ok hprevTokens
      next_tokens := readU64_ok hnextTokens
      withdrawals := readWithdrawals_ok hshape hwithdrawals
      batch_index := hindex }⟩
  show (if first.number = 1 then 0 else witness.parentHeader.hashSlow) = 0 ↔ _
  constructor
  · intro hprevious
    by_contra hnone
    have hne : first.number ≠ 1 := fun hone => hnone ⟨first, hfirst, hone⟩
    rw [if_neg hne] at hprevious
    exact ZoneHeader.hashSlow_ne_zero hc _ hprevious
  · rintro ⟨block, hblock, hone⟩
    obtain rfl : first = block := Option.some.inj (hfirst.symm.trans hblock)
    exact if_pos hone

/-! ## Committed values -/

/-- The root commits to a value of the slot: some state with the root has the value, and none has
another one. -/
def Committed (commit : m.ZoneState → W) (root : W) (slot : ZoneSlot) (value : W) : Prop :=
  (∃ s, commit s = root ∧ m.Stores s slot value) ∧
    ∀ s other, commit s = root → m.Stores s slot other → other = value

def CommittedNat (commit : m.ZoneState → W) (root : W) (slot : ZoneSlot) (n : ℕ) : Prop :=
  ∃ value, Committed commit root slot value ∧ toNat value = n

theorem Stores.committed (lawful : m.Lawful commit) {value : W} (h : m.Stores s slot value) :
    Committed commit (commit s) slot value :=
  ⟨⟨s, rfl, h⟩, fun _ _ hroot hother => lawful.binding hroot hother h⟩

theorem StoresNat.committed (lawful : m.Lawful commit) {n : ℕ} (h : m.StoresNat s slot n) :
    CommittedNat commit (commit s) slot n := by
  obtain ⟨value, hvalue, hn⟩ := h
  exact ⟨value, hvalue.committed lawful, hn⟩

/-- The output reports values that the roots of the parent header and the last header commit to. -/
structure Reports (m : Machine W) (commit : m.ZoneState → W) (output : BatchOutput W)
    (parentRoot lastRoot : W) (tempoBlockNumber : ℕ) : Prop where
  previous_hash : Committed commit parentRoot .processedDepositQueueHash
    output.depositQueueTransition.prevProcessedHash
  previous_number : CommittedNat commit parentRoot .processedDepositNumber
    output.depositQueueTransition.prevDepositNumber
  previous_tokens : CommittedNat commit parentRoot .processedEnabledTokenCount
    output.tokenEnablementTransition.prevProcessedTokenCount
  next_hash : Committed commit lastRoot .processedDepositQueueHash
    output.depositQueueTransition.nextProcessedHash
  next_number : CommittedNat commit lastRoot .processedDepositNumber
    output.depositQueueTransition.nextDepositNumber
  next_tokens : CommittedNat commit lastRoot .processedEnabledTokenCount
    output.tokenEnablementTransition.nextProcessedTokenCount
  withdrawals : Committed commit lastRoot .withdrawalQueueHash output.withdrawalQueueHash
  batch_index : ∃ index, CommittedNat commit lastRoot .withdrawalBatchIndex index ∧
    output.withdrawalBatchIndex = uint64 index
  checkpoint : CommittedNat commit lastRoot .tempoBlockNumber tempoBlockNumber

theorem SoundBatch.reports (lawful : m.Lawful commit) {output : BatchOutput W} {s s' : m.ZoneState}
    {last : ZoneHeader W} (h : m.SoundBatch commit config witness output s s' last) :
    m.Reports commit output witness.parentHeader.stateRoot last.stateRoot
      witness.publicInputs.tempoBlockNumber := by
  obtain ⟨t, t', -, ht', -, hnumber, -⟩ := h.anchored
  obtain ⟨index, hindex, heq⟩ := h.withdrawals.2
  rw [← h.opened, ← h.closed, ← hnumber]
  exact
    { previous_hash := h.previous_deposits.1.committed lawful
      previous_number := h.previous_deposits.2.committed lawful
      previous_tokens := h.previous_tokens.committed lawful
      next_hash := h.next_deposits.1.committed lawful
      next_number := h.next_deposits.2.committed lawful
      next_tokens := h.next_tokens.committed lawful
      withdrawals := h.withdrawals.1.committed lawful
      batch_index := ⟨index, hindex.committed lawful, heq⟩
      checkpoint := ht'.2.committed lawful }

end Machine

/-! ## The zone machine -/

theorem slotOf_eq_of_root_eq (hc : CollisionFree W) {env : ZoneSurroundings W} {z z' : Zone W}
    (h : env.root z = env.root z') (slot : ZoneSlot) : slotOf z slot = slotOf z' slot := by
  have hwords := (cons.inj (hc.keccak_inj h)).2
  have hmem : slot ∈ allSlots := by cases slot <;> decide
  exact Chunk.word.inj (map_inj_left.1 hwords slot hmem)

theorem zoneMachine_checkpoint {env : ZoneSurroundings W}
    (toNat_ofNat : ∀ n, toNat (ofNat n : W) = n) (z : Zone W) :
    (zoneMachine env).Checkpoint z z.tempo :=
  ⟨rfl, _, rfl, toNat_ofNat _⟩

theorem zoneMachine_lawful (hc : CollisionFree W)
    (toNat_ofNat : ∀ n, toNat (ofNat n : W) = n) (env : ZoneSurroundings W) :
    (zoneMachine env).Lawful env.root where
  opened := by
    intro z root s h
    simp only [zoneMachine] at h
    split at h
    · next hroot =>
      cases h
      exact hroot
    · cases h
  rooted := by
    intro config tempo parent block z z' root rest h
    obtain ⟨z₁, -, h⟩ := bind_ok_iff.1 h
    cases pure_ok_iff.1 h
    rfl
  binding := by
    intro z z' slot value value' hroot hvalue hvalue'
    cases hvalue
    cases hvalue'
    exact slotOf_eq_of_root_eq hc hroot slot
  imports := by
    intro config tempo parent block z z' root rest h
    obtain ⟨z₁, hexecute, h⟩ := bind_ok_iff.1 h
    cases pure_ok_iff.1 h
    obtain ⟨z₂, hfinalize, htempo⟩ := executeZoneBlock_checkpoint hexecute
    refine ⟨_, z, z₂, rfl, zoneMachine_checkpoint toNat_ofNat z, hfinalize, ?_⟩
    rw [← htempo]
    exact zoneMachine_checkpoint toNat_ofNat z'

/-! ## Soundness -/

/-- An accepted batch is sound, and its output reports the values that the roots of the parent header
and of the last header commit to. -/
theorem zone_batch_sound {m : Machine W} {commit : m.ZoneState → W} {config : SpfConfig W}
    (hc : CollisionFree W) (lawful : m.Lawful commit) {witness : BatchWitness m}
    {output : BatchOutput W} (h : m.proveZoneBatch config witness = .ok output) :
    ∃ s s' last, m.SoundBatch commit config witness output s s' last ∧
      m.Reports commit output witness.parentHeader.stateRoot last.stateRoot
        witness.publicInputs.tempoBlockNumber := by
  obtain ⟨s, s', last, hsound⟩ := Machine.proveZoneBatch_sound hc lawful h
  exact ⟨s, s', last, hsound, hsound.reports lawful⟩

end TempoZones.Spf

namespace TempoZones.Example

open Lib Spf

theorem machine_lawful : (zoneMachine surroundings).Lawful surroundings.root :=
  zoneMachine_lawful Sym.collisionFree (fun _ => rfl) surroundings

theorem zone_batch_sound_genesis :
    ∃ s s' last, (zoneMachine surroundings).SoundBatch surroundings.root spfConfig
        (firstWitness genesisHeader spfGenesis) (firstOutput genesisHeader spfGenesis) s s' last ∧
      (zoneMachine surroundings).Reports surroundings.root (firstOutput genesisHeader spfGenesis)
        genesisHeader.stateRoot last.stateRoot 7 :=
  zone_batch_sound Sym.collisionFree machine_lawful genesis_batch_proved

end TempoZones.Example
