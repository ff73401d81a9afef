import TempoZones.Portal.Settlement

/-!
# Transactions of the portal and re-entrancy

`exec` is one call to the portal by an outside account. `Control ctx s s'` says that outside code in
control can take the state from `s` to `s'`: it makes portal calls, lets tokens move, and starts
`processWithdrawals` with callback targets that again only do what `Control` allows. A call that
reverts leaves no effect and does not occur in a derivation; `Sees ctx s m` adds the states observed
while a callback runs. A run starts with `initialize` and continues in blocks whose number and time
do not decrease; `Reached` collects every state observed in it.
-/

namespace TempoZones

open Lib

variable {W : Type} [EvmWord W] [DecidableEq W]

/-! ## Calls -/

/-- Calls to the portal other than `processWithdrawals`, with the replies of the token system. -/
inductive Call (W : Type) where
  | initializePortal (args : InitializeArgs)
  | govern (call : GovernCall)
  | configure (call : ConfigureCall W)
  | deposit (args : DepositArgs W) (ts : TokenSystem)
  | claimRefund (token : Address) (ts : TokenSystem)
  | submitBatch (call : SubmitBatch W)
  | deliverWithdrawal (w : Withdrawal W) (r : Reply W)

namespace L1

def withGov (s : L1 W) (g : Governance) (logs : List (PortalEvent W)) : L1 W :=
  { s with portal := { s.portal with gov := g }, logs := s.logs ++ logs }

def withConfig (s : L1 W) (params : Params W) (registry : TokenRegistry W)
    (logs : List (PortalEvent W)) : L1 W :=
  { s with portal := { s.portal with params := params, registry := registry }
           logs := s.logs ++ logs }

/-- State before `initialize`: whatever the portal address holds arrived outside the bridge. -/
def fresh (self : Address) (ledger : Ledger) : L1 W where
  portal := .empty
  ledger := ledger
  relayEntered := false
  logs := []
  history := { gifts := fun t => ledger t self, refused := false, dequeued := [], accepted := [] }

end L1

def exec (ctx : CallCtx W) (sender : Address) (s : L1 W) : Call W → Except Revert (L1 W)
  | .initializePortal args => do
      let (portal, logs) ← s.portal.initializePortal ctx sender args
      pure { s with portal := portal, logs := s.logs ++ logs }
  | .govern call => do
      let (g, logs) ← govern ctx.env sender s.portal.gov call
      pure (s.withGov g logs)
  | .configure call => do
      let (params, registry, logs) ← configure ctx sender s.portal call
      pure (s.withConfig params registry logs)
  | .deposit args ts => s.deposit ctx ts sender args
  | .claimRefund token ts => s.claimRefund ctx ts sender token
  | .submitBatch call => s.submitBatch ctx sender call
  | .deliverWithdrawal w r =>
    s.deliverWithdrawal ctx r sender w.token w.recipient w.amount w.senderTag w.gasLimit
      w.callbackData

/-! ## Control of outside code -/

/-- Changes of the Tempo state in which the portal takes no part: balances of other accounts move,
the portal may receive tokens, and other portals may use the shared messenger. -/
structure Outside (ctx : CallCtx W) (s s' : L1 W) : Prop where
  portal_eq : s'.portal = s.portal
  logs_eq : s'.logs = s.logs
  refused_eq : s'.history.refused = s.history.refused
  dequeued_eq : s'.history.dequeued = s.history.dequeued
  accepted_eq : s'.history.accepted = s.history.accepted
  received : ∀ t, ∃ amount, s'.ledger t ctx.ext.self = s.ledger t ctx.ext.self + amount ∧
    s'.history.gifts t = s.history.gifts t + amount

/-- State changes that outside code can cause while it holds control in a transaction. -/
inductive Control (ctx : CallCtx W) : L1 W → L1 W → Prop
  | refl (s : L1 W) : Control ctx s s
  | call {s m s' : L1 W} {sender : Address} {c : Call W} (before : Control ctx s m)
      (outside : sender ≠ ctx.ext.self) (run : exec ctx sender m c = .ok s') : Control ctx s s'
  | process {s m s' : L1 W} {sender : Address} {ws : List (Withdrawal W)} {remainingQueue : W}
      {replies : ℕ → Reply W} (before : Control ctx s m) (outside : sender ≠ ctx.ext.self)
      (callbacks : ∀ {i target message a ok b},
        (replies i).callback target message a = some (ok, b) → Control ctx a b)
      (run : m.processWithdrawals ctx sender ws remainingQueue replies = .ok s') :
      Control ctx s s'
  | outside {s m s' : L1 W} (before : Control ctx s m) (move : Outside ctx m s') :
      Control ctx s s'

def Confined (ctx : CallCtx W) (r : Reply W) : Prop :=
  ∀ {target message a ok b}, r.callback target message a = some (ok, b) → Control ctx a b

/-- States observed by outside code in a transaction that reaches `s`: those it can bring about, and
those inside the callbacks of a `processWithdrawals` it starts. -/
inductive Sees (ctx : CallCtx W) : L1 W → L1 W → Prop
  | reached {s m : L1 W} (before : Control ctx s m) : Sees ctx s m
  | inside {s m e p a seen : L1 W} {sender : Address} {ws : List (Withdrawal W)}
      {remainingQueue : W} {replies : ℕ → Reply W} {done : List (Withdrawal W × W)}
      {w : Withdrawal W} {after : W} {rest : List (Withdrawal W × W)}
      (before : Control ctx s m) (outside : sender ≠ ctx.ext.self)
      (callbacks : ∀ i, Confined ctx (replies i))
      (enter : m.enterProcessing ctx sender ws.length = .ok e)
      (split : (remainingQueues ws remainingQueue).1 = done ++ (w, after) :: rest)
      (processed : L1.processLoop ctx replies 0 done e = .ok p)
      (entry : CallbackEntry ctx (replies done.length) w after p a)
      (within : Sees ctx a seen) : Sees ctx s seen

/-! ## Runs -/

def Lib.BlockEnv.NotAfter (a b : BlockEnv) : Prop :=
  a.number ≤ b.number ∧ a.timestamp ≤ b.timestamp

/-- Transactions from `s`, last executed in block `e`, to `s'`, last executed in `e'`. Every
transaction context satisfies `P`. -/
inductive Later (P : CallCtx W → Prop) : BlockEnv → L1 W → BlockEnv → L1 W → Prop
  | refl (e : BlockEnv) (s : L1 W) : Later P e s e s
  | tx {e e' : BlockEnv} {s m s' : L1 W} {ctx : CallCtx W} (before : Later P e s e' m)
      (order : e'.NotAfter ctx.env) (admissible : P ctx) (run : Control ctx m s') :
      Later P e s ctx.env s'

/-- `m` is observed in block `e'`, at or after the state `s` of block `e`. -/
def Seen (P : CallCtx W → Prop) (e : BlockEnv) (s : L1 W) (e' : BlockEnv) (m : L1 W) : Prop :=
  ∃ (e₁ : BlockEnv) (s₁ : L1 W) (ctx : CallCtx W), Later P e s e₁ s₁ ∧
    e₁.NotAfter ctx.env ∧ P ctx ∧ ctx.env = e' ∧ Sees ctx s₁ m

def Started (P : CallCtx W → Prop) (e : BlockEnv) (s : L1 W) : Prop :=
  ∃ (ctx : CallCtx W) (args : InitializeArgs) (ledger : Ledger), P ctx ∧ ctx.env = e ∧
    exec ctx ZONE_FACTORY_ADDRESS (.fresh ctx.ext.self ledger) (.initializePortal args) = .ok s

def Reached (P : CallCtx W → Prop) (e : BlockEnv) (m : L1 W) : Prop :=
  ∃ e₀ s₀, Started P e₀ s₀ ∧ Seen P e₀ s₀ e m

end TempoZones
