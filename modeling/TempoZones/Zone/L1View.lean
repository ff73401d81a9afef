import TempoZones.Spf.BatchSoundness

/-!
# Execution-local L1 state

`L1State` is the bookkeeping of one transaction attempt: the Tempo block number against which its L1
reads resolve (the anchor) and the warm L1 slots, outside the journal of the EVM.
`finalizeCheckpoints` imports Tempo headers with its effects in order: the checks, the anchor, the
two storage writes, which can fail for lack of gas, and the log. It is compared with importing the
headers one by one (`finalizeEach`).
-/

namespace TempoZones.L1View

open Lib List

variable {W : Type} [DecidableEq W]

/-! ## The anchor -/

inductive L1StateError (W : Type) where
  | storageUnavailable (account : Address) (slot : W) (blockNumber : ℕ)
  | anchorConflict (current new : ℕ)
  | advanceTempoConflict (parent child : ℕ)
  deriving DecidableEq

/-- `L1State` without its provider. -/
structure L1State (W : Type) where
  anchor : Option ℕ
  accessSet : List (Address × W)
  deriving DecidableEq

namespace L1State

def fresh : L1State W := ⟨none, []⟩

def resetTransactionState (_ : L1State W) : L1State W := fresh

def setAnchor (l1 : L1State W) (new : ℕ) : Except (L1StateError W) (L1State W) :=
  match l1.anchor with
  | none => .ok { l1 with anchor := some new }
  | some current => if current = new then .ok l1 else .error (.anchorConflict current new)

def advanceAnchor (l1 : L1State W) (parent child : ℕ) : Except (L1StateError W) (L1State W) :=
  if child ≤ parent then .error (.advanceTempoConflict parent child)
  else match l1.anchor with
    | some current => .error (.anchorConflict current child)
    | none => .ok { l1 with anchor := some child }

theorem advanceAnchor_eq_ok {l1 l1' : L1State W} {parent child : ℕ} :
    l1.advanceAnchor parent child = .ok l1' ↔
      parent < child ∧ l1.anchor = none ∧ l1' = { l1 with anchor := some child } := by
  unfold advanceAnchor
  split
  · next hle =>
    constructor
    · rintro ⟨⟩
    · rintro ⟨hlt, -, -⟩
      omega
  · next hle =>
    cases hanchor : l1.anchor with
    | some current => simp
    | none =>
      constructor
      · intro h
        cases h
        exact ⟨by omega, rfl, rfl⟩
      · rintro ⟨-, -, rfl⟩
        rfl

end L1State

variable [EvmWord W]

/-! ## Importing checkpoints -/

inductive StorageWrite where
  | tempoBlockHash
  | tempoBlockNumber
  | tempoBlockFinalized
  deriving DecidableEq

/-- Errors of `finalize_checkpoints`: a failed check, a conflict of the anchor, or a write that the
storage refuses. -/
inductive CheckpointError (W : Type) where
  | check (error : ZoneError)
  | l1State (error : L1StateError W)
  | storage (write : StorageWrite)
  deriving DecidableEq

/-- What an import reads and changes. -/
structure CheckpointState (W : Type) where
  tempo : TempoState W
  l1 : L1State W

def headerMillis (header : TempoHeader W) : ℕ := header.timestamp * 1000 + header.timestampMillisPart

def blockMillis (block : ZoneBlock) : ℕ := block.timestamp * 1000 + block.timestampMillisPart

/-- Checks of `finalize_checkpoints`: the last hash and number. -/
def checkCheckpoints (ctx : ZoneCtx W) (tempo : TempoState W) (headers : List Bytes) :
    Except ZoneError (TempoState W) := do
  require (¬ (headers = [] ∨ headers.length > MAX_TEMPO_HEADERS_PER_ZONE_BLOCK))
    ZoneError.invalidRlpData
  require (tempo.tempoBlockHash ≠ 0) ZoneError.invalidParentHash
  let (hash, number, last) ← checkHeaders ctx tempo.tempoBlockHash tempo.tempoBlockNumber none headers
  require (¬ blockMillis ctx.block < last.elim 0 headerMillis) ZoneError.invalidTimestamp
  pure ⟨hash, number⟩

/-- `finalize_checkpoints`, with the write that fails, if one does. -/
def finalizeCheckpoints (ctx : ZoneCtx W) (fault : Option StorageWrite) (σ : CheckpointState W)
    (headers : List Bytes) : Except (CheckpointError W) Unit × CheckpointState W :=
  match checkCheckpoints ctx σ.tempo headers with
  | .error e => (.error (.check e), σ)
  | .ok next =>
    match σ.l1.advanceAnchor σ.tempo.tempoBlockNumber next.tempoBlockNumber with
    | .error e => (.error (.l1State e), σ)
    | .ok l1 =>
      match fault with
      | none => (.ok (), ⟨next, l1⟩)
      | some .tempoBlockHash => (.error (.storage .tempoBlockHash), ⟨σ.tempo, l1⟩)
      | some .tempoBlockNumber =>
        (.error (.storage .tempoBlockNumber),
          ⟨⟨next.tempoBlockHash, σ.tempo.tempoBlockNumber⟩, l1⟩)
      | some .tempoBlockFinalized => (.error (.storage .tempoBlockFinalized), ⟨next, l1⟩)

def finalizeEach (ctx : ZoneCtx W) :
    CheckpointState W → List Bytes → Except (CheckpointError W) Unit × CheckpointState W
  | σ, [] => (.ok (), σ)
  | σ, [rlp] => finalizeCheckpoints ctx none σ [rlp]
  | σ, rlp :: rest =>
    match finalizeCheckpoints ctx none σ [rlp] with
    | (.error e, σ') => (.error e, σ')
    | (.ok (), σ') =>
      finalizeEach ctx { σ' with l1 := σ'.l1.resetTransactionState } rest

/-! ## Headers of a list -/

def NoneLater (ctx : ZoneCtx W) (headers : List Bytes) : Prop :=
  ∀ rlp ∈ headers, ∀ header, ctx.lib.decodeHeader rlp = some header →
    headerMillis header ≤ blockMillis ctx.block

section Checks

variable {ctx : ZoneCtx W} {σ : CheckpointState W} {headers rest : List Bytes} {rlp : Bytes}
  {last : Option (TempoHeader W)} {r : W × ℕ × Option (TempoHeader W)}

theorem checkHeaders_cons {hash : W} {number : ℕ} :
    checkHeaders ctx hash number last (rlp :: rest) = .ok r ↔
      ∃ header, ctx.lib.decodeHeader rlp = some header ∧ header.parentHash = hash ∧
        (number + 1 < 2 ^ 64 ∧ number + 1 = header.number) ∧
        checkHeaders ctx (keccak256 [.raw rlp]) header.number (some header) rest = .ok r := by
  simp only [checkHeaders, ok_iff, Spf.elim_pure_eq_ok]
  constructor
  · rintro ⟨header, hdecode, _, hparent, _, hnumber, h⟩
    exact ⟨header, hdecode, hparent, hnumber, h⟩
  · rintro ⟨header, hdecode, hparent, hnumber, h⟩
    exact ⟨header, hdecode, ⟨⟩, hparent, ⟨⟩, hnumber, h⟩

theorem checkHeaders_last {hash : W} {number : ℕ}
    (h : checkHeaders ctx hash number last headers = .ok r) :
    r.2.2 = last ∨ ∃ rlp ∈ headers, ∃ header, ctx.lib.decodeHeader rlp = some header ∧
      r.2.2 = some header := by
  induction headers generalizing hash number last with
  | nil =>
    cases pure_ok_iff.1 h
    exact .inl rfl
  | cons rlp rest ih =>
    obtain ⟨header, hdecode, -, -, hrest⟩ := checkHeaders_cons.1 h
    rcases ih hrest with hlast | ⟨rlp', hmem, header', hdecode', hlast⟩
    · exact .inr ⟨rlp, mem_cons_self, header, hdecode, hlast⟩
    · exact .inr ⟨rlp', mem_cons_of_mem _ hmem, header', hdecode', hlast⟩

theorem checkHeaders_le {hash : W} {number : ℕ}
    (h : checkHeaders ctx hash number last headers = .ok r) : number ≤ r.2.1 := by
  induction headers generalizing hash number last with
  | nil =>
    cases pure_ok_iff.1 h
    exact le_refl _
  | cons rlp rest ih =>
    obtain ⟨header, -, -, ⟨-, hnext⟩, hrest⟩ := checkHeaders_cons.1 h
    have hle := ih hrest
    omega

theorem singleton_length_le (rlp : Bytes) : [rlp].length ≤ MAX_TEMPO_HEADERS_PER_ZONE_BLOCK := by
  rw [length_singleton]
  decide

theorem finalizeCheckpoints_ok (h : (finalizeCheckpoints ctx none σ headers).1 = .ok ()) :
    ∃ next, checkCheckpoints ctx σ.tempo headers = .ok next ∧ σ.l1.anchor = none ∧
      (finalizeCheckpoints ctx none σ headers).2 =
        ⟨next, { σ.l1 with anchor := some next.tempoBlockNumber }⟩ := by
  unfold finalizeCheckpoints at h ⊢
  cases hchecks : checkCheckpoints ctx σ.tempo headers with
  | error e =>
    rw [hchecks] at h
    cases h
  | ok next =>
    rw [hchecks] at h
    simp only at h ⊢
    cases hanchor : σ.l1.advanceAnchor σ.tempo.tempoBlockNumber next.tempoBlockNumber with
    | error e =>
      rw [hanchor] at h
      cases h
    | ok l1 =>
      obtain ⟨-, hnone, rfl⟩ := L1State.advanceAnchor_eq_ok.1 hanchor
      exact ⟨next, rfl, hnone, rfl⟩

theorem finalizeCheckpoints_eq_ok (next : TempoState W) :
    ((finalizeCheckpoints ctx none σ (rlp :: rest)).1 = .ok () ∧
        (finalizeCheckpoints ctx none σ (rlp :: rest)).2.tempo = next) ↔
      (rlp :: rest).length ≤ MAX_TEMPO_HEADERS_PER_ZONE_BLOCK ∧ σ.tempo.tempoBlockHash ≠ 0 ∧
        σ.l1.anchor = none ∧ ∃ header,
          checkHeaders ctx σ.tempo.tempoBlockHash σ.tempo.tempoBlockNumber none (rlp :: rest) =
            .ok (next.tempoBlockHash, next.tempoBlockNumber, some header) ∧
          headerMillis header ≤ blockMillis ctx.block := by
  constructor
  · rintro ⟨hok, rfl⟩
    obtain ⟨next, hchecks, hnone, hstate⟩ := finalizeCheckpoints_ok hok
    rw [hstate]
    simp only [checkCheckpoints, ok_iff] at hchecks
    obtain ⟨_, hlength, _, hhash, ⟨hash, number, last⟩, hloop, _, htime, rfl⟩ := hchecks
    have hlast : ∃ header, last = some header := by
      obtain ⟨header, _, -, -, hrest⟩ := checkHeaders_cons.1 hloop
      rcases checkHeaders_last hrest with hlast | ⟨_, -, header', -, hlast⟩
      · exact ⟨header, hlast⟩
      · exact ⟨header', hlast⟩
    obtain ⟨header, rfl⟩ := hlast
    refine ⟨?_, hhash, hnone, header, hloop, Nat.le_of_not_lt htime⟩
    by_contra hlong
    exact hlength (.inr (Nat.lt_of_not_le hlong))
  · rintro ⟨hlength, hhash, hanchor, header, hloop, htime⟩
    have hlt : σ.tempo.tempoBlockNumber < next.tempoBlockNumber := by
      obtain ⟨first, -, -, ⟨-, hnext⟩, hrest⟩ := checkHeaders_cons.1 hloop
      have hle := checkHeaders_le hrest
      simp only at hle
      omega
    have hchecks : checkCheckpoints ctx σ.tempo (rlp :: rest) = .ok next := by
      simp only [checkCheckpoints, ok_iff]
      refine ⟨⟨⟩, ?_, ⟨⟩, hhash, _, hloop, ⟨⟩, Nat.not_lt_of_le htime, rfl⟩
      rintro (hnil | hlong)
      · cases hnil
      · exact Nat.not_lt_of_le hlength hlong
    have hadvance := L1State.advanceAnchor_eq_ok.2 ⟨hlt, hanchor, rfl⟩
    rw [finalizeCheckpoints, hchecks]
    simp only [hadvance]
    exact ⟨trivial, trivial⟩

theorem finalizeCheckpoints_anchor (h : (finalizeCheckpoints ctx none σ headers).1 = .ok ()) :
    (finalizeCheckpoints ctx none σ headers).2.l1.anchor =
      some (finalizeCheckpoints ctx none σ headers).2.tempo.tempoBlockNumber := by
  obtain ⟨next, -, -, hstate⟩ := finalizeCheckpoints_ok h
  rw [hstate]

theorem finalizeCheckpoints_unchanged {fault : Option StorageWrite} {e : CheckpointError W}
    (h : (finalizeCheckpoints ctx fault σ headers).1 = .error e)
    (hstorage : ∀ write, e ≠ .storage write) : (finalizeCheckpoints ctx fault σ headers).2 = σ := by
  unfold finalizeCheckpoints at h ⊢
  cases hchecks : checkCheckpoints ctx σ.tempo headers with
  | error e => rfl
  | ok next =>
    rw [hchecks] at h
    simp only at h ⊢
    cases hanchor : σ.l1.advanceAnchor σ.tempo.tempoBlockNumber next.tempoBlockNumber with
    | error e => rfl
    | ok l1 =>
      rw [hanchor] at h
      cases fault with
      | none => cases h
      | some write =>
        cases write with
        | tempoBlockHash =>
          cases h
          exact absurd rfl (hstorage .tempoBlockHash)
        | tempoBlockNumber =>
          cases h
          exact absurd rfl (hstorage .tempoBlockNumber)
        | tempoBlockFinalized =>
          cases h
          exact absurd rfl (hstorage .tempoBlockFinalized)

omit [EvmWord W] [DecidableEq W] in
theorem noneLater_cons {header : TempoHeader W} (hdecode : ctx.lib.decodeHeader rlp = some header) :
    NoneLater ctx (rlp :: rest) ↔
      headerMillis header ≤ blockMillis ctx.block ∧ NoneLater ctx rest := by
  constructor
  · intro h
    exact ⟨h rlp mem_cons_self header hdecode,
      fun rlp' hmem => h rlp' (mem_cons_of_mem _ hmem)⟩
  · rintro ⟨hfirst, hrest⟩ rlp' hmem header' hdecode'
    rcases mem_cons.1 hmem with rfl | hmem
    · cases hdecode.symm.trans hdecode'
      exact hfirst
    · exact hrest rlp' hmem header' hdecode'

theorem finalizeEach_eq_ok (hc : CollisionFree W) {next : TempoState W} :
    ((finalizeEach ctx σ (rlp :: rest)).1 = .ok () ∧
        (finalizeEach ctx σ (rlp :: rest)).2.tempo = next ∧
        (finalizeEach ctx σ (rlp :: rest)).2.l1.anchor = some next.tempoBlockNumber) ↔
      σ.tempo.tempoBlockHash ≠ 0 ∧ σ.l1.anchor = none ∧ NoneLater ctx (rlp :: rest) ∧
        ∃ header, checkHeaders ctx σ.tempo.tempoBlockHash σ.tempo.tempoBlockNumber none (rlp :: rest) =
          .ok (next.tempoBlockHash, next.tempoBlockNumber, some header) := by
  induction rest generalizing rlp σ with
  | nil =>
    have hanchor : (finalizeCheckpoints ctx none σ [rlp]).1 = .ok () →
        (finalizeCheckpoints ctx none σ [rlp]).2.tempo = next →
        (finalizeCheckpoints ctx none σ [rlp]).2.l1.anchor = some next.tempoBlockNumber := by
      rintro h rfl
      exact finalizeCheckpoints_anchor h
    constructor
    · rintro ⟨hok, hnext, -⟩
      obtain ⟨-, hhash, hnone, header, hloop, htime⟩ :=
        (finalizeCheckpoints_eq_ok next).1 ⟨hok, hnext⟩
      refine ⟨hhash, hnone, ?_, header, hloop⟩
      obtain ⟨header', hdecode, -, -, hrest⟩ := checkHeaders_cons.1 hloop
      simp only [checkHeaders, pure_ok_iff, Prod.mk.injEq, Option.some.injEq] at hrest
      obtain ⟨-, -, rfl⟩ := hrest
      exact (noneLater_cons hdecode).2 ⟨htime, fun _ hmem => absurd hmem not_mem_nil⟩
    · rintro ⟨hhash, hnone, hlater, header, hloop⟩
      obtain ⟨header', hdecode, -, -, hrest⟩ := checkHeaders_cons.1 hloop
      simp only [checkHeaders, pure_ok_iff, Prod.mk.injEq, Option.some.injEq] at hrest
      obtain ⟨-, -, rfl⟩ := hrest
      have hsingle := (finalizeCheckpoints_eq_ok next).2 ⟨singleton_length_le rlp, hhash, hnone,
        header', hloop, ((noneLater_cons hdecode).1 hlater).1⟩
      exact ⟨hsingle.1, hsingle.2, hanchor hsingle.1 hsingle.2⟩
  | cons rlp' rest ih =>
    -- the first header alone, then the others from the state it leaves
    rw [finalizeEach]
    · cases hfirst : finalizeCheckpoints ctx none σ [rlp] with
      | mk result σ₁ =>
        cases result with
        | error e =>
          constructor
          · rintro ⟨h, -⟩
            cases h
          · rintro ⟨hhash, hnone, hlater, header, hloop⟩
            obtain ⟨header', hdecode, hparent, hnumber, -⟩ := checkHeaders_cons.1 hloop
            have hone : checkHeaders ctx σ.tempo.tempoBlockHash σ.tempo.tempoBlockNumber none
                [rlp] = .ok (keccak256 [.raw rlp], header'.number, some header') :=
              checkHeaders_cons.2 ⟨header', hdecode, hparent, hnumber, rfl⟩
            have hsingle := (finalizeCheckpoints_eq_ok ⟨keccak256 [.raw rlp], header'.number⟩).2
              ⟨singleton_length_le rlp, hhash, hnone, header', hone,
                ((noneLater_cons hdecode).1 hlater).1⟩
            rw [hfirst] at hsingle
            cases hsingle.1
        | ok _ =>
          have hsingle := (finalizeCheckpoints_eq_ok σ₁.tempo).1 ⟨by rw [hfirst], by rw [hfirst]⟩
          obtain ⟨-, hhash, hnone, header', hone, htime⟩ := hsingle
          obtain ⟨_, hdecode, hparent, hnumber, hend⟩ := checkHeaders_cons.1 hone
          simp only [checkHeaders, pure_ok_iff, Prod.mk.injEq, Option.some.injEq] at hend
          obtain ⟨htempoHash, htempoNumber, rfl⟩ := hend
          simp only
          rw [ih]
          simp only [L1State.resetTransactionState, L1State.fresh, ← htempoHash, ← htempoNumber]
          constructor
          · rintro ⟨-, -, hlater, header, hloop⟩
            exact ⟨hhash, hnone, (noneLater_cons hdecode).2 ⟨htime, hlater⟩, header,
              checkHeaders_cons.2 ⟨_, hdecode, hparent, hnumber, hloop⟩⟩
          · rintro ⟨-, -, hlater, header, hloop⟩
            obtain ⟨header₂, hdecode₂, -, -, hrest⟩ := checkHeaders_cons.1 hloop
            cases hdecode.symm.trans hdecode₂
            exact ⟨hc.keccak_ne_zero _, trivial, ((noneLater_cons hdecode).1 hlater).2, header,
              hrest⟩
    · simp

theorem finalizeEach_anchor (h : (finalizeEach ctx σ (rlp :: rest)).1 = .ok ()) :
    (finalizeEach ctx σ (rlp :: rest)).2.l1.anchor =
      some (finalizeEach ctx σ (rlp :: rest)).2.tempo.tempoBlockNumber := by
  induction rest generalizing rlp σ with
  | nil => exact finalizeCheckpoints_anchor h
  | cons rlp' rest ih =>
    rw [finalizeEach] at h ⊢
    · cases hfirst : finalizeCheckpoints ctx none σ [rlp] with
      | mk result σ₁ =>
        rw [hfirst] at h
        cases result with
        | error e => cases h
        | ok _ => exact ih h
    · simp
    · simp

/-- Importing headers that are not later than the zone block is importing them one by one, up to the
limit on their number. A successful import follows the stored checkpoint and selects the anchor, and
one that fails before the writes changes nothing. -/
theorem checkpoint_import_compositional (hc : CollisionFree W) (ctx : ZoneCtx W)
    (σ : CheckpointState W) (headers : List Bytes) (hne : headers ≠ []) :
    (((finalizeCheckpoints ctx none σ headers).1 = .ok () ∧ NoneLater ctx headers) ↔
      (headers.length ≤ MAX_TEMPO_HEADERS_PER_ZONE_BLOCK ∧
        (finalizeEach ctx σ headers).1 = .ok ())) ∧
    ((finalizeCheckpoints ctx none σ headers).1 = .ok () → NoneLater ctx headers →
      (finalizeCheckpoints ctx none σ headers).2.tempo = (finalizeEach ctx σ headers).2.tempo ∧
      (finalizeCheckpoints ctx none σ headers).2.l1.anchor =
        (finalizeEach ctx σ headers).2.l1.anchor) ∧
    ((finalizeCheckpoints ctx none σ headers).1 = .ok () →
      Spf.Extends ctx.lib.decodeHeader σ.tempo headers
        (finalizeCheckpoints ctx none σ headers).2.tempo ∧
      (finalizeCheckpoints ctx none σ headers).2.l1.anchor =
        some (finalizeCheckpoints ctx none σ headers).2.tempo.tempoBlockNumber) ∧
    (∀ fault e, (finalizeCheckpoints ctx fault σ headers).1 = .error e →
      (∀ write, e ≠ .storage write) → (finalizeCheckpoints ctx fault σ headers).2 = σ) := by
  obtain ⟨rlp, rest, rfl⟩ := exists_cons_of_ne_nil hne
  -- the state after the list is the state after its headers one by one
  have heach : (finalizeCheckpoints ctx none σ (rlp :: rest)).1 = .ok () →
      NoneLater ctx (rlp :: rest) → (finalizeEach ctx σ (rlp :: rest)).1 = .ok () ∧
        (finalizeEach ctx σ (rlp :: rest)).2.tempo =
          (finalizeCheckpoints ctx none σ (rlp :: rest)).2.tempo ∧
        (finalizeEach ctx σ (rlp :: rest)).2.l1.anchor =
          some (finalizeCheckpoints ctx none σ (rlp :: rest)).2.tempo.tempoBlockNumber := by
    intro hok hlater
    obtain ⟨-, hhash, hnone, header, hloop, -⟩ := (finalizeCheckpoints_eq_ok _).1 ⟨hok, rfl⟩
    exact (finalizeEach_eq_ok hc).2 ⟨hhash, hnone, hlater, header, hloop⟩
  refine ⟨⟨?_, ?_⟩, ?_, ?_, ?_⟩
  · rintro ⟨hok, hlater⟩
    exact ⟨((finalizeCheckpoints_eq_ok _).1 ⟨hok, rfl⟩).1, (heach hok hlater).1⟩
  · rintro ⟨hlength, hok⟩
    obtain ⟨hhash, hnone, hlater, header, hloop⟩ :=
      (finalizeEach_eq_ok hc).1 ⟨hok, rfl, finalizeEach_anchor hok⟩
    have htime : headerMillis header ≤ blockMillis ctx.block := by
      rcases checkHeaders_last hloop with hlast | ⟨rlp', hmem, header', hdecode, hlast⟩
      · cases hlast
      · cases hlast
        exact hlater rlp' hmem header hdecode
    exact ⟨((finalizeCheckpoints_eq_ok _).2 ⟨hlength, hhash, hnone, header, hloop, htime⟩).1, hlater⟩
  · intro hok hlater
    obtain ⟨-, htempo, hanchor⟩ := heach hok hlater
    exact ⟨htempo.symm, (finalizeCheckpoints_anchor hok).trans hanchor.symm⟩
  · intro hok
    obtain ⟨-, -, -, header, hloop, -⟩ := (finalizeCheckpoints_eq_ok _).1 ⟨hok, rfl⟩
    exact ⟨Spf.checkHeaders_extends hloop, finalizeCheckpoints_anchor hok⟩
  · intro fault e herror hstorage
    exact finalizeCheckpoints_unchanged herror hstorage

end Checks

end TempoZones.L1View

namespace TempoZones.Example

open Lib L1View

def decodeUnordered (rlp : Bytes) : Option (TempoHeader Sym) :=
  if rlp = [7] then some ⟨.num 6, 7, .num 70, 2000, 0⟩
  else if rlp = [8] then some ⟨keccak256 [.raw [7]], 8, .num 80, 1000, 0⟩
  else none

def unorderedCtx : ZoneCtx Sym :=
  { zoneCtx with
    block := ⟨5, 1500, 0, true⟩
    lib := { zoneCtx.lib with decodeHeader := decodeUnordered } }

def checkpointSix : CheckpointState Sym := ⟨⟨.num 6, 6⟩, .fresh⟩

/-- The list is imported, but its first header alone is too late. -/
theorem unordered_headers_import :
    (finalizeCheckpoints unorderedCtx none checkpointSix [[7], [8]]).1 = .ok () ∧
      (finalizeEach unorderedCtx checkpointSix [[7], [8]]).1 = .error (.check .invalidTimestamp) := by
  decide +kernel

/-- A zone block that is later than both headers. -/
def laterCtx : ZoneCtx Sym := { unorderedCtx with block := ⟨5, 9000, 0, true⟩ }

/-- In a later block the two headers are imported one by one as in one list. -/
theorem checkpoint_import_compositional_two :
    (finalizeEach laterCtx checkpointSix [[7], [8]]).1 = .ok () ∧
      (finalizeEach laterCtx checkpointSix [[7], [8]]).2.tempo.tempoBlockHash =
        keccak256 [.raw [8]] ∧
      (finalizeEach laterCtx checkpointSix [[7], [8]]).2.l1.anchor = some 8 := by
  have hok : (finalizeCheckpoints laterCtx none checkpointSix [[7], [8]]).1 = .ok () := by
    decide +kernel
  have hlast : (finalizeCheckpoints laterCtx none checkpointSix [[7], [8]]).2.tempo.tempoBlockHash =
        keccak256 [.raw [8]] ∧
      (finalizeCheckpoints laterCtx none checkpointSix [[7], [8]]).2.tempo.tempoBlockNumber = 8 := by
    decide +kernel
  have hlater : NoneLater laterCtx [[7], [8]] := by
    intro rlp hrlp header hheader
    rcases List.mem_pair.1 hrlp with rfl | rfl <;> cases hheader <;> decide
  obtain ⟨⟨heach, -⟩, hsame, hfollows, -⟩ := checkpoint_import_compositional Sym.collisionFree
    laterCtx checkpointSix [[7], [8]] (by simp)
  obtain ⟨htempo, hanchor⟩ := hsame hok hlater
  refine ⟨(heach ⟨hok, hlater⟩).2, htempo ▸ hlast.1, ?_⟩
  rw [← hanchor, (hfollows hok).2, hlast.2]

end TempoZones.Example
