import TempoZones.Portal.Capacity
import TempoZones.Zone.Calls

/-!
# The bridge as one system

A Tempo chain with the portal, and the zone that imports it. Transactions change the Tempo state,
the end of a block records it, and zone calls read the portal storage of recorded blocks, in any
order (`Reachable`); `Visible` adds the states observed in the middle of a transaction. `Platform`
stands for the code outside the repository; it is `Sound` when its verifier accepts only the zone's
own batches and `Capped` when balances fit in 128 bits. Invariants are proved by induction over
`Trace`.
-/

namespace TempoZones

open Lib List

variable {W : Type} [EvmWord W] [DecidableEq W]

/-! ## States and moves -/

/-- Code outside the repository: the portal's address, the replies of external contracts that are
possible while the zone is in a given state, and the token balances that are possible. -/
structure Platform (W : Type) where
  self : Address
  self_ne_zero : self ≠ 0
  proves : Zone W → Externals W → Prop
  balances : Ledger → Prop

/-- A proof of `v` attests that `b` is the zone's batch with the index, the queue hash, the cursors
and the Tempo block of `v`. -/
structure Attests (b : FinalizedBatch W) (v : VerifyCall W) : Prop where
  index : v.expectedWithdrawalBatchIndex = b.withdrawalBatchIndex
  withdrawals : v.withdrawalQueueHash = b.withdrawalQueueHash
  hash : v.depositQueueTransition.nextProcessedHash = b.processedDepositQueueHash
  number : v.depositQueueTransition.nextDepositNumber = b.processedDepositNumber
  tokens : v.tokenEnablementTransition.nextProcessedTokenCount = b.processedEnabledTokenCount
  tempo : v.tempoBlockNumber = b.tempoBlockNumber

def VerifierSound (z : Zone W) (ext : Externals W) : Prop :=
  ∀ v, ext.verify v = true → ∃ b ∈ z.history.batches, Attests b v

def Platform.Sound (π : Platform W) : Prop :=
  ∀ {z : Zone W} {ext : Externals W}, π.proves z ext → VerifierSound z ext

/-- No account holds more of a token than the cap of a TIP-20 supply allows. -/
def Platform.Capped (π : Platform W) : Prop :=
  ∀ {ledger : Ledger}, π.balances ledger → ∀ token account, ledger token account < 2 ^ 128

/-- Tempo state, the Tempo states at the end of the blocks so far, and the zone. -/
structure Sys (W : Type) where
  l1 : L1 W
  blocks : List (L1 W)
  zone : Zone W

/-- Contexts of a transaction in the current block. -/
structure Admissible (π : Platform W) (σ : Sys W) (ctx : CallCtx W) : Prop where
  here : ctx.ext.self = π.self
  number : ctx.env.number = σ.blocks.length
  proofs : π.proves σ.zone ctx.ext

/-- Contexts of a zone call: L1 reads return the portal's storage at the end of a block, if they
return at all. -/
structure ReadsFrom (π : Platform W) (blocks : List (L1 W)) (zctx : ZoneCtx W) : Prop where
  portal : zctx.portal = π.self
  reads : ∀ {n : ℕ} {p : Portal W}, zctx.readPortal n = some p →
    ∃ s, blocks[n]? = some s ∧ s.portal = p

/-- Start of a run: `initialize` has just succeeded in the current block, earlier blocks have no
portal, and the zone is at genesis. -/
structure Start (π : Platform W) (σ : Sys W) : Prop where
  started : ∃ e, Started (fun ctx => ctx.ext.self = π.self ∧
    ctx.env.number = σ.blocks.length) e σ.l1
  before : ∀ s ∈ σ.blocks, ∃ ledger, s = .fresh π.self ledger
  zone : ∃ tempo initialized, σ.zone = .genesis tempo initialized
  balances : π.balances σ.l1.ledger

inductive Reachable (π : Platform W) : Sys W → Prop
  | start {σ : Sys W} (h : Start π σ) : Reachable π σ
  | transaction {σ : Sys W} {ctx : CallCtx W} {s' : L1 W} (before : Reachable π σ)
      (admissible : Admissible π σ ctx) (run : Control ctx σ.l1 s')
      (balances : π.balances s'.ledger) : Reachable π { σ with l1 := s' }
  | nextBlock {σ : Sys W} (before : Reachable π σ) :
      Reachable π { σ with blocks := σ.blocks ++ [σ.l1] }
  | zoneCall {σ : Sys W} {zctx : ZoneCtx W} {caller : Address} {call : ZoneCall W}
      (before : Reachable π σ) (reads : ReadsFrom π σ.blocks zctx)
      (outside : caller ≠ ZONE_INBOX_ADDRESS) :
      Reachable π { σ with zone := zoneApply zctx caller σ.zone call }

/-- States that outside code observes, between or in the middle of transactions. -/
inductive Visible (π : Platform W) : Sys W → Prop
  | between {σ : Sys W} (h : Reachable π σ) : Visible π σ
  | within {σ : Sys W} {ctx : CallCtx W} {m : L1 W} (h : Reachable π σ)
      (admissible : Admissible π σ ctx) (sees : Sees ctx σ.l1 m) : Visible π { σ with l1 := m }

/-! ## Traces of steps -/

/-- States passed when every transaction and every zone call is taken apart into its steps. -/
inductive Trace (π : Platform W) : Sys W → Prop
  | start {σ : Sys W} (h : Start π σ) : Trace π σ
  | micro {σ : Sys W} {ctx : CallCtx W} {s' : L1 W} (before : Trace π σ)
      (admissible : Admissible π σ ctx) (step : Micro ctx σ.l1 s') : Trace π { σ with l1 := s' }
  | nextBlock {σ : Sys W} (before : Trace π σ) : Trace π { σ with blocks := σ.blocks ++ [σ.l1] }
  | zone {σ : Sys W} {zctx : ZoneCtx W} {z' : Zone W} (before : Trace π σ)
      (reads : ReadsFrom π σ.blocks zctx) (balances : π.balances σ.l1.ledger)
      (step : ZoneStep zctx σ.zone z') : Trace π { σ with zone := z' }

variable {π : Platform W} {σ : Sys W}

theorem ReadsFrom.portal_ne_zero {blocks : List (L1 W)} {zctx : ZoneCtx W}
    (h : ReadsFrom π blocks zctx) : zctx.portal ≠ 0 :=
  h.portal ▸ π.self_ne_zero

theorem Reachable.initialized (h : Reachable π σ) : σ.l1.portal.gov.initialized = true := by
  induction h with
  | start h =>
    obtain ⟨e, hstarted⟩ := h.started
    obtain ⟨_, _, -, -, hinit⟩ := hstarted.initial
    exact hinit.initialized
  | transaction _ _ run _ ih => exact (run.traced ih).1.initialized_eq.trans ih
  | nextBlock _ ih => exact ih
  | zoneCall _ _ _ ih => exact ih

theorem Reachable.balances (h : Reachable π σ) : π.balances σ.l1.ledger := by
  induction h with
  | start h => exact h.balances
  | transaction _ _ _ balances _ => exact balances
  | nextBlock _ ih => exact ih
  | zoneCall _ _ _ ih => exact ih

theorem Reachable.zoneRun {zctx : ZoneCtx W} {caller : Address} {call : ZoneCall W} {z' : Zone W}
    (h : Reachable π σ) (reads : ReadsFrom π σ.blocks zctx) (outside : caller ≠ ZONE_INBOX_ADDRESS)
    (run : zoneExec zctx caller σ.zone call = .ok z') : Reachable π { σ with zone := z' } := by
  have hcall : Reachable π { σ with zone := zoneApply zctx caller σ.zone call } :=
    h.zoneCall reads outside
  rw [zoneApply, run] at hcall
  exact hcall

theorem Trace.path {ctx : CallCtx W} {s' : L1 W} (h : Trace π σ) (admissible : Admissible π σ ctx)
    (path : MicroPath ctx σ.l1 s') : Trace π { σ with l1 := s' } := by
  induction path with
  | refl => exact h
  | tail _ step ih =>
    -- admissibility does not look at the Tempo state that the steps change
    exact ih.micro ⟨admissible.here, admissible.number, admissible.proofs⟩ step

theorem Reachable.trace (h : Reachable π σ) : Trace π σ := by
  induction h with
  | start h => exact .start h
  | transaction before admissible run _ ih =>
    exact ih.path admissible (run.traced before.initialized).1
  | nextBlock _ ih => exact ih.nextBlock
  | @zoneCall σ zctx caller call before reads outside ih =>
    unfold zoneApply
    split
    · next z' hrun =>
      exact ih.zone reads before.balances (zone_step reads.portal_ne_zero outside hrun)
    · exact ih

theorem Visible.trace (h : Visible π σ) : Trace π σ := by
  cases h with
  | between h => exact h.trace
  | within h admissible sees => exact h.trace.path admissible (sees.path h.initialized)

theorem Visible.initialized (h : Visible π σ) : σ.l1.portal.gov.initialized = true := by
  cases h with
  | between h => exact h.initialized
  | within h _ sees => exact (sees.path h.initialized).initialized_eq.trans h.initialized

/-! ## Invariants -/

/-- A relation of zone and Tempo states that `initialize` establishes and every step keeps holds
with the current state and with every recorded block, if it holds where there is no portal yet. -/
theorem Trace.zoneBlockwise {R : Zone W → L1 W → Prop}
    (fresh : ∀ z ledger, R z (.fresh π.self ledger))
    (initial : ∀ {z e args s}, Initial e args π.self s → R z s)
    (step : ∀ {σ : Sys W} {ctx : CallCtx W} {s' : L1 W}, Trace π σ → Admissible π σ ctx →
      R σ.zone σ.l1 → Micro ctx σ.l1 s' → R σ.zone s')
    (zone : ∀ {zctx : ZoneCtx W} {z z' : Zone W} {s : L1 W}, ZoneStep zctx z z' → R z s → R z' s)
    (h : Trace π σ) : R σ.zone σ.l1 ∧ ∀ s ∈ σ.blocks, R σ.zone s := by
  induction h with
  | start h =>
    obtain ⟨e, hstarted⟩ := h.started
    obtain ⟨ctx, args, ⟨hself, -⟩, -, hinit⟩ := hstarted.initial
    refine ⟨initial (hself ▸ hinit), ?_⟩
    intro s hs
    obtain ⟨ledger, rfl⟩ := h.before s hs
    exact fresh _ ledger
  | micro before admissible hstep ih =>
    have hafter := step before admissible ih.1 hstep
    exact ⟨hafter, ih.2⟩
  | nextBlock _ ih =>
    refine ⟨ih.1, ?_⟩
    intro s hs
    rcases mem_append.1 hs with hs | hs
    · exact ih.2 s hs
    · exact mem_singleton.1 hs ▸ ih.1
  | zone _ _ _ hstep ih => exact ⟨zone hstep ih.1, fun s hs => zone hstep (ih.2 s hs)⟩

theorem Trace.blockwise {I : L1 W → Prop} (fresh : ∀ ledger, I (.fresh π.self ledger))
    (initial : ∀ {e args s}, Initial e args π.self s → I s)
    (step : ∀ {ctx : CallCtx W} {s s' : L1 W}, ctx.ext.self = π.self → I s → Micro ctx s s' → I s')
    (h : Trace π σ) : I σ.l1 ∧ ∀ s ∈ σ.blocks, I s :=
  h.zoneBlockwise (R := fun _ => I) (fun _ => fresh) initial
    (fun _ admissible => step admissible.here) fun _ hs => hs

theorem Trace.zonewise {I : Zone W → Prop}
    (genesis : ∀ tempo initialized, I (.genesis tempo initialized))
    (step : ∀ {zctx : ZoneCtx W} {z z' : Zone W}, I z → ZoneStep zctx z z' → I z')
    (h : Trace π σ) : I σ.zone := by
  induction h with
  | start h =>
    obtain ⟨tempo, initialized, hzone⟩ := h.zone
    exact hzone ▸ genesis tempo initialized
  | zone _ _ _ hstep ih => exact step ih hstep
  | micro _ _ _ ih => exact ih
  | nextBlock _ ih => exact ih

/-! ## A concrete run

The example portal and a zone anchored at block 6. In block 7 the portal is initialized, a sequencer
registers an encryption key, and account 20 deposits ten units of token 50. -/

namespace Example

def platform : Platform Sym where
  self := ext.self
  self_ne_zero := by decide
  proves := VerifierSound
  balances := fun ledger => ∀ token account, ledger token account < 2 ^ 128

theorem platform_sound : platform.Sound := fun h => h

theorem platform_capped : platform.Capped := fun h => h

def genesis : Zone Sym := .genesis ⟨.num 3, 6⟩ fun _ => false

def sysStart : Sys Sym := ⟨start, replicate 7 (.fresh ext.self fun _ _ => 0), genesis⟩

theorem sysStart_start : Start platform sysStart where
  started := ⟨env, started ⟨rfl, rfl⟩⟩
  before := fun _ hs => ⟨fun _ _ => 0, eq_of_mem_replicate hs⟩
  zone := ⟨_, _, rfl⟩
  balances := fun _ _ => Nat.two_pow_pos 128

/-- Context in which the holder of the encryption key proves possession of it. -/
def keyCtx : CallCtx Sym := ⟨env, { ext with ecrecover := fun _ _ _ _ => 1 }⟩

def tokenSystem : TokenSystem where
  resolveRecipient := some
  validateReceivePolicy := fun _ _ _ => some true
  transfer := fun _ _ _ _ => .succeeds

def endowed : L1 Sym :=
  { start with ledger := fun token account => if token = 50 ∧ account = 20 then 10 else 0 }

theorem validX : Secp256k1Lib.isValidX (Sym.num 1) = true := by decide +kernel

def keyed : L1 Sym :=
  endowed.withConfig { endowed.portal.params with encryptionKeys := [⟨.num 1, 2, 7⟩] }
    endowed.portal.registry
    [.sequencerEncryptionKeyUpdated (.num 1) 2 (Secp256k1Lib.deriveAddress (Sym.num 1) 2) 0 7]

theorem keys : exec keyCtx 1 endowed (.configure (.setSequencerEncryptionKey (.num 1) 2 27 0 0)) =
    .ok keyed := by
  have hderived : Secp256k1Lib.deriveAddress (Sym.num 1) 2 = 1 := rfl
  have hpossession : ¬ ((1 : Address) = 0 ∨
      (1 : Address) ≠ Secp256k1Lib.deriveAddress (Sym.num 1) 2) := by
    rw [hderived]
    decide
  simp only [exec, configure, Portal.setSequencerEncryptionKey, Governance.onlySequencerOrAdmin,
    ok_iff]
  exact ⟨_, ⟨(), by decide, (), rfl, (), validX, (), hpossession, rfl⟩, rfl⟩

def depositArgs : DepositArgs Sym where
  token := 50
  amount := 10
  keyIndex := 0
  encrypted := ⟨.num 1, 2, replicate 64 0, 0, 0⟩
  tempoRefundRecipient := 20

def deposited : L1 Sym :=
  ((keyed.pull 50 20 100 10).setStatus .notEntered).appendEntry
    (.deposit (depositArgs.queued 20 0))
    (.depositMade (DepositQueueLib.enqueueDeposit 0 (depositArgs.queued 20 0))
      (depositArgs.queued 20 0) 0 1)

theorem checks : keyed.portal.checkDeposit keyCtx 20 depositArgs = .ok () := by
  simp only [Portal.checkDeposit, ok_iff]
  exact ⟨(), by decide, (), rfl, (), by decide, (), rfl, (), rfl, (), rfl, (), validX, (), rfl, rfl⟩

theorem collects : keyed.collectDepositFunds keyCtx tokenSystem 20 50 10 =
    .ok (0, 10, keyed.pull 50 20 100 10) := by
  have hfee : keyed.portal.params.calculateBouncebackFee keyCtx.env = .ok 0 := by
    simp only [Params.calculateBouncebackFee, ok_iff, checkedMul_eq_ok, checkedAdd_eq_ok]
    exact ⟨0, ⟨by decide, rfl⟩, _, ⟨by decide, rfl⟩, by decide⟩
  simp only [L1.collectDepositFunds, ok_iff, hfee, checkedAdd_eq_ok]
  exact ⟨0, rfl, 0, rfl, 0, ⟨by decide, rfl⟩, (), by decide, _, rfl, rfl⟩

theorem deposits : exec keyCtx 20 keyed (.deposit depositArgs tokenSystem) = .ok deposited := by
  simp only [exec, L1.deposit, ok_iff]
  exact ⟨(), by decide, (), checks, _, collects, rfl⟩

theorem deposits_control : Control keyCtx start deposited := by
  have hmove : Outside keyCtx start endowed :=
    ⟨rfl, rfl, rfl, rfl, rfl, fun _ => ⟨0, if_neg fun h => absurd h.2 (by decide), rfl⟩⟩
  have hoff : ∀ a : Address, a = 1 ∨ a = 20 → a ≠ keyCtx.ext.self := by
    rintro a (rfl | rfl) <;> decide
  have hkeyed : Control keyCtx start keyed :=
    .call (.outside (.refl _) hmove) (hoff 1 (.inl rfl)) keys
  exact .call hkeyed (hoff 20 (.inr rfl)) deposits

def sysBlock : Sys Sym := ⟨deposited, sysStart.blocks ++ [deposited], genesis⟩

theorem deposited_le (token account : Address) : deposited.ledger token account ≤ 20 := by
  have hendowed : endowed.ledger token account ≤ 10 := by
    simp only [endowed]
    split <;> omega
  have hmoved : deposited.ledger token account ≤ endowed.ledger token account + 10 := by
    show endowed.ledger.move 50 20 100 10 token account ≤ _
    unfold Ledger.move
    split_ifs <;> omega
  omega

theorem deposited_balances : platform.balances deposited.ledger :=
  fun token account => (deposited_le token account).trans_lt (by decide)

theorem sysBlock_reachable : Reachable platform sysBlock := by
  have hadmissible : Admissible platform sysStart keyCtx := ⟨rfl, rfl, nofun⟩
  exact .nextBlock (.transaction (.start sysStart_start) hadmissible deposits_control
    deposited_balances)

def plaintext : Bytes := replicate 19 0 ++ [20] ++ replicate 44 0

def zoneCtx : ZoneCtx Sym where
  block := { number := 1, timestamp := 1000, timestampMillisPart := 0, t13 := true }
  portal := ext.self
  readPortal := fun n => if n = 7 then some deposited.portal else none
  lib :=
    { decodeHeader := fun _ => some
        { parentHash := .num 3, number := 7, stateRoot := 0, timestamp := 1000
          timestampMillisPart := 0 }
      decodeBounceBack := fun _ => none
      decodeDeposit := fun _ => some (depositArgs.queued 20 0)
      chaumPedersenVerify := fun _ _ _ _ _ _ _ => true
      hkdfSha256 := fun _ _ _ => 0
      decrypt := fun _ _ _ _ => (plaintext, true)
      recoverPoint := fun _ _ => false }

theorem zoneCtx_reads : ReadsFrom platform sysBlock.blocks zoneCtx where
  portal := rfl
  reads := by
    intro n p h
    by_cases hn : n = 7
    · subst hn
      exact ⟨deposited, rfl, Option.some.inj h⟩
    have hnone : zoneCtx.readPortal n = none := if_neg hn
    rw [hnone] at h
    cases h

end Example

end TempoZones
