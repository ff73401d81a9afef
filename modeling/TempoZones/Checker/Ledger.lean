import Mathlib.Data.Prod.Lex
import TempoZones.Lib.Evm
import TempoZones.Lib.Outcome
import TempoZones.Lib.UndoLog

/-!
# The checker's ledger

The accounting state of the bridge checker (`checker/src/accounting/mod.rs`): a row per nonzero
account of a token, a row per enabled token with the cached total of its accounts and four kinds of
liability. `State.apply` runs effects in place, compares the cached totals of the touched tokens,
and writes the prior values back when anything fails. A 256-bit word is a natural number;
`checkedAdd` and `checkedSub` refuse what does not fit.
-/

namespace TempoZones.Checker

open Lib

/-- One user's entitlement to one zone token. -/
structure AccountKey where
  token : Address
  account : Address

namespace AccountKey

def lex (k : AccountKey) : Address ×ₗ Address := toLex (k.token, k.account)

theorem lex_injective : Function.Injective lex := by
  rintro ⟨t, a⟩ ⟨t', a'⟩ h
  cases toLex.injective h
  rfl

instance : LinearOrder AccountKey := LinearOrder.lift' lex lex_injective

theorem le_iff (k k' : AccountKey) :
    k ≤ k' ↔ k.token < k'.token ∨ k.token = k'.token ∧ k.account ≤ k'.account :=
  Prod.Lex.le_iff

theorem lt_iff (k k' : AccountKey) :
    k < k' ↔ k.token < k'.token ∨ k.token = k'.token ∧ k.account < k'.account :=
  Prod.Lex.lt_iff

end AccountKey

inductive AccountingError where
  | unknownToken (token : Address)
  | overflow
  | underflow
  | aggregateMismatch (token : Address) (expected actual : ℕ)
  deriving DecidableEq

def wordBound : ℕ := 2 ^ 256

/-- The source's `checked_add`, with the error every caller gives. -/
def checkedAdd (a b : ℕ) : Except AccountingError ℕ :=
  if a + b < wordBound then .ok (a + b) else .error .overflow

/-- The source's `checked_sub`, with the error every caller gives. -/
def checkedSub (a b : ℕ) : Except AccountingError ℕ :=
  if b ≤ a then .ok (a - b) else .error .underflow

structure TokenState where
  accountTotal : ℕ
  pendingDeposits : ℕ
  pendingWithdrawals : ℕ
  pendingTempoRefunds : ℕ
  pendingZoneRefunds : ℕ
  deriving DecidableEq

def TokenState.default : TokenState := ⟨0, 0, 0, 0, 0⟩

inductive BalanceChange where
  | credit (amount : ℕ)
  | debit (amount : ℕ)
  deriving DecidableEq

def BalanceChange.apply (value : ℕ) : BalanceChange → Except AccountingError ℕ
  | .credit amount => checkedAdd value amount
  | .debit amount => checkedSub value amount

inductive LiabilityKind where
  | deposit
  | withdrawal
  | tempoRefund
  | zoneRefund
  deriving DecidableEq

def LiabilityKind.balance (t : TokenState) : LiabilityKind → ℕ
  | .deposit => t.pendingDeposits
  | .withdrawal => t.pendingWithdrawals
  | .tempoRefund => t.pendingTempoRefunds
  | .zoneRefund => t.pendingZoneRefunds

def LiabilityKind.setBalance (t : TokenState) (value : ℕ) : LiabilityKind → TokenState
  | .deposit => { t with pendingDeposits := value }
  | .withdrawal => { t with pendingWithdrawals := value }
  | .tempoRefund => { t with pendingTempoRefunds := value }
  | .zoneRefund => { t with pendingZoneRefunds := value }

inductive Effect where
  | enableToken (token : Address)
  | account (key : AccountKey) (change : BalanceChange)
  | liability (token : Address) (kind : LiabilityKind) (change : BalanceChange)

/-- Rows changed by one successfully applied zone block. -/
structure ChangedRows where
  accounts : List AccountKey
  tokens : List Address

/-- Independently derived bridge accounting state. Membership in `tokens` means that the token was
authenticated through portal creation or enablement. -/
structure State where
  accounts : SortedMap AccountKey ℕ
  tokens : SortedMap Address TokenState
  deriving DecidableEq

/-- A state under change, with the prior value of every row touched so far. -/
structure Working where
  state : State
  accounts : SortedMap AccountKey (Option ℕ)
  tokens : SortedMap Address (Option TokenState)

def writeNonzero (values : SortedMap AccountKey ℕ) (key : AccountKey) (value : ℕ) :
    SortedMap AccountKey ℕ :=
  if value = 0 then values.erase key else values.insert key value

namespace State

def account (s : State) (key : AccountKey) : ℕ := (s.accounts.get? key).getD 0

/-- The rows of one token in a map keyed by account: `range(start..)` with the `take_while` on the
token that every loop of the source puts behind it. -/
def rowsOf {V : Type} (values : SortedMap AccountKey V) (token : Address) : List (AccountKey × V) :=
  (values.range ⟨token, 0⟩).takeWhile fun row => decide (row.1.token = token)

def ensureAggregate (s : State) (token : Address) (expected : ℕ) : Except AccountingError Unit :=
  match s.tokens.get? token with
  | none => .error (.unknownToken token)
  | some actual =>
    if actual.accountTotal = expected then .ok ()
    else .error (.aggregateMismatch token expected actual.accountTotal)

/-- One token's turn in `validateAggregates`. -/
def validateAggregate (s : State) (token : Address) : Except AccountingError Unit := do
  let total ← (rowsOf s.accounts token).foldlM (fun total row => checkedAdd total row.2) 0
  if (s.tokens.get? token).isNone ∧ total = 0 then pure () else s.ensureAggregate token total

/-- Validate that every one of the tokens' cached aggregates matches the sum of its accounts. -/
def validateAggregates (s : State) : List Address → Except AccountingError Unit
  | [] => pure ()
  | token :: tokens => do
      s.validateAggregate token
      s.validateAggregates tokens

/-- The tokens that `fromRows` validates: those of the token rows and those of the account rows. -/
def allTokens (s : State) : List Address :=
  (SortedMap.collect ((s.tokens.keys ++ s.accounts.keys.map AccountKey.token).map (·, ()))).keys

/-- Build a state from raw rows, dropping zero accounts and asserting aggregate consistency. -/
def fromRows (accounts : List (AccountKey × ℕ)) (tokens : List (Address × TokenState)) :
    Except AccountingError State := do
  let state : State :=
    ⟨SortedMap.collect (accounts.filter fun row => decide (row.2 ≠ 0)), SortedMap.collect tokens⟩
  state.validateAggregates state.allTokens
  pure state

end State

namespace Working

def enableToken (σ : Working) (token : Address) : Working :=
  if (σ.state.tokens.get? token).isSome then σ
  else
    { σ with
      state := { σ.state with tokens := σ.state.tokens.insert token TokenState.default }
      tokens := σ.tokens.insert token none }

def writeAccount (σ : Working) (key : AccountKey) (previousToken : TokenState) (total next : ℕ) :
    Working where
  state :=
    { accounts := writeNonzero σ.state.accounts key next
      tokens := σ.state.tokens.insert key.token { previousToken with accountTotal := total } }
  accounts := σ.accounts.insertIfAbsent key (σ.state.accounts.get? key)
  tokens := σ.tokens.insertIfAbsent key.token (some previousToken)

/-- Every check comes before the first write, so a failed change leaves the state and the prior
values as they were. -/
def changeAccount (σ : Working) (key : AccountKey) (change : BalanceChange) :
    Except AccountingError Working :=
  match σ.state.tokens.get? key.token with
  | none => .error (.unknownToken key.token)
  | some previousToken => do
      let total ← change.apply previousToken.accountTotal
      let next ← change.apply (σ.state.account key)
      pure (σ.writeAccount key previousToken total next)

def writeToken (σ : Working) (token : Address) (previous next : TokenState) : Working where
  state := { σ.state with tokens := σ.state.tokens.insert token next }
  accounts := σ.accounts
  tokens := σ.tokens.insertIfAbsent token (some previous)

def changeLiability (σ : Working) (token : Address) (kind : LiabilityKind)
    (change : BalanceChange) : Except AccountingError Working :=
  match σ.state.tokens.get? token with
  | none => .error (.unknownToken token)
  | some previous => do
      let value ← change.apply (kind.balance previous)
      pure (σ.writeToken token previous (kind.setBalance previous value))

def applyEffect (σ : Working) : Effect → Except AccountingError Working
  | .enableToken token => .ok (σ.enableToken token)
  | .account key change => σ.changeAccount key change
  | .liability token kind change => σ.changeLiability token kind change

/-- The source's `try_for_each`: stop at the first error with what was written until then. -/
def applyEffects (σ : Working) : List Effect → Except AccountingError Unit × Working
  | [] => (.ok (), σ)
  | effect :: effects =>
    match σ.applyEffect effect with
    | .error e => (.error e, σ)
    | .ok next => next.applyEffects effects

/-- Sum of the prior and of the current balances over the touched accounts of a token. -/
def changedSums (σ : Working) (token : Address) : Except AccountingError (ℕ × ℕ) :=
  (State.rowsOf σ.accounts token).foldlM
    (fun sums row => do
      let previous ← checkedAdd sums.1 (row.2.getD 0)
      let current ← checkedAdd sums.2 (σ.state.account row.1)
      pure (previous, current))
    (0, 0)

/-- One token's turn in `validateChangedAggregates`. -/
def validateChangedAggregate (σ : Working) (token : Address) (previous : Option TokenState) :
    Except AccountingError Unit := do
  let (previousChanged, currentChanged) ← σ.changedSums token
  let unchanged ← checkedSub (previous.getD TokenState.default).accountTotal previousChanged
  let expected ← checkedAdd unchanged currentChanged
  σ.state.ensureAggregate token expected

/-- Validate cached aggregates from only the account rows changed by this transition. -/
def validateChangedAggregates (σ : Working) :
    List (Address × Option TokenState) → Except AccountingError Unit
  | [] => pure ()
  | (token, previous) :: rest => do
      σ.validateChangedAggregate token previous
      σ.validateChangedAggregates rest

def rollback (σ : Working) : State :=
  ⟨σ.state.accounts.restore σ.accounts.entries, σ.state.tokens.restore σ.tokens.entries⟩

end Working

def State.begin (s : State) : Working := ⟨s, ∅, ∅⟩

/-- Apply ordered effects atomically: the changed rows or the error, and the state afterwards. -/
def State.apply (s : State) (effects : List Effect) : Except AccountingError ChangedRows × State :=
  let (result, σ) := s.begin.applyEffects effects
  match result >>= fun _ => σ.validateChangedAggregates σ.tokens.entries with
  | .error e => (.error e, σ.rollback)
  | .ok _ => (.ok ⟨σ.accounts.keys, σ.tokens.keys⟩, σ.state)

/-- The two tables of the checker's database. -/
structure Rows where
  accounts : SortedMap AccountKey ℕ
  tokens : SortedMap Address TokenState
  deriving DecidableEq

def State.rows (s : State) : Rows := ⟨s.accounts, s.tokens⟩

/-- Write the current value of every changed row, deleting the rows that are gone. -/
def Rows.writeChangedRows (rows : Rows) (s : State) (changes : ChangedRows) : Rows :=
  ⟨rows.accounts.restore (changes.accounts.map fun key => (key, s.accounts.get? key)),
    rows.tokens.restore (changes.tokens.map fun token => (token, s.tokens.get? token))⟩

def Rows.load (rows : Rows) : Except AccountingError State :=
  State.fromRows rows.accounts.entries rows.tokens.entries

end TempoZones.Checker
