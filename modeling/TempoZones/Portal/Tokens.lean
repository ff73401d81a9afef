import TempoZones.Portal.Registry

/-!
# Token transfers of the portal and refund claims

A TIP-20 transfer moves exactly its amount out of a sufficient balance or has no effect, and it
credits the account that the address registry resolves the recipient to. `_tryTransfer` turns
every failure of the registry, the receive policy and the token into `false`.

The history variable `gifts` records what the portal receives outside the bridge: transfers from
other accounts, and payouts whose resolved recipient is the portal itself.
-/

namespace TempoZones

open Lib

variable {W : Type} {token : Address} {ts : TokenSystem}

/-- How a TIP-20 `transfer` or `transferFrom` ends. -/
inductive TransferOutcome where
  | succeeds
  | refuses
  | reverts
  deriving DecidableEq, Repr

/-- Answers of the address registry, the TIP-403 registry and the token at one moment; `none` is a
revert. -/
structure TokenSystem where
  resolveRecipient : Address → Option Address
  validateReceivePolicy : (token sender receiver : Address) → Option Bool
  transfer : (token sender recipient : Address) → ℕ → TransferOutcome

namespace L1

/-- Move a payment; one that arrives at the portal is recorded as received outside the bridge. -/
def pay (s : L1 W) (self token src dst : Address) (amount : ℕ) : L1 W :=
  let received : Address → ℕ := fun t => if t = token ∧ dst = self then amount else 0
  { s with
    ledger := s.ledger.move token src dst amount
    history := { s.history with gifts := fun t => s.history.gifts t + received t } }

/-- `ITIP20(token).transfer(to, amount)` called by `src`: the returned flag and the new state. -/
def tip20Transfer (s : L1 W) (ts : TokenSystem) (self token src recipient : Address)
    (amount : ℕ) : Except Revert (Bool × L1 W) :=
  match ts.transfer token src recipient amount, ts.resolveRecipient recipient with
  | .succeeds, some account =>
    if amount ≤ s.ledger token src then .ok (true, s.pay self token src account amount)
    else .error .externalRevert
  | .refuses, _ => .ok (false, s)
  | _, _ => .error .externalRevert

def tryTransfer (s : L1 W) (ts : TokenSystem) (self token recipient : Address) (amount : ℕ) :
    Bool × L1 W :=
  match ts.resolveRecipient recipient with
  | none => (false, s)
  | some effectiveRecipient =>
    match ts.validateReceivePolicy token self effectiveRecipient with
    | some true =>
      match s.tip20Transfer ts self token self recipient amount with
      | .ok result => result
      | .error _ => (false, s)
    | _ => (false, s)

/-- `guard && _tryTransfer(token, recipient, amount)`. -/
def tryTransferIf (s : L1 W) (guard : Prop) [Decidable guard] (ts : TokenSystem)
    (self token recipient : Address) (amount : ℕ) : Bool × L1 W :=
  if guard then s.tryTransfer ts self token recipient amount else (false, s)

theorem tip20Transfer_ok {s s' : L1 W} {self src recipient : Address} {amount : ℕ} {ok : Bool}
    (h : s.tip20Transfer ts self token src recipient amount = .ok (ok, s')) :
    (ok = true ∧ ∃ account, ts.resolveRecipient recipient = some account ∧
      amount ≤ s.ledger token src ∧ s' = s.pay self token src account amount) ∨
    (ok = false ∧ s' = s) := by
  unfold tip20Transfer at h
  split at h
  · next account _ hres =>
    split at h
    · next hle =>
      cases h
      exact .inl ⟨rfl, account, hres, hle, rfl⟩
    · cases h
  · cases h
    exact .inr ⟨rfl, rfl⟩
  · cases h

theorem tryTransfer_cases (s : L1 W) (ts : TokenSystem) (self token recipient : Address)
    (amount : ℕ) :
    (∃ account, ts.resolveRecipient recipient = some account ∧ amount ≤ s.ledger token self ∧
      s.tryTransfer ts self token recipient amount = (true, s.pay self token self account amount)) ∨
    s.tryTransfer ts self token recipient amount = (false, s) := by
  unfold tryTransfer
  split
  · exact .inr rfl
  split
  · split
    · next result hok =>
      obtain ⟨ok, s'⟩ := result
      rcases tip20Transfer_ok hok with ⟨rfl, account, hres, hle, rfl⟩ | ⟨rfl, rfl⟩
      · exact .inl ⟨account, hres, hle, rfl⟩
      · exact .inr rfl
    · exact .inr rfl
  · exact .inr rfl

/-- A payment attempt out of the portal: it pays, or leaves the state as it is. -/
inductive Attempt (self token : Address) (amount : ℕ) (s : L1 W) : Bool → L1 W → Prop
  | paid {account : Address} (covered : amount ≤ s.ledger token self) :
      Attempt self token amount s true (s.pay self token self account amount)
  | failed : Attempt self token amount s false s

theorem Attempt.portal_eq {s s' : L1 W} {self : Address} {amount : ℕ} {ok : Bool}
    (h : Attempt self token amount s ok s') : s'.portal = s.portal := by
  cases h <;> rfl

theorem tryTransferIf_attempt {s s' : L1 W} {guard : Prop} [Decidable guard]
    {self recipient : Address} {amount : ℕ} {ok : Bool}
    (h : s.tryTransferIf guard ts self token recipient amount = (ok, s')) :
    Attempt self token amount s ok s' := by
  unfold tryTransferIf at h
  split at h
  · rcases tryTransfer_cases s ts self token recipient amount with ⟨account, -, hle, heq⟩ | heq
    · cases heq.symm.trans h
      exact .paid hle
    · cases heq.symm.trans h
      exact .failed
  · cases h
    exact .failed

def setRefund (s : L1 W) (token owner : Address) (amount : ℕ) : L1 W :=
  { s with portal := { s.portal with
    refunds := Function.update s.portal.refunds token
      (Function.update (s.portal.refunds token) owner amount) } }

def claimRefund (s : L1 W) (ctx : CallCtx W) (ts : TokenSystem) (sender token : Address) :
    Except Revert (L1 W) := do
  require (s.portal.gov.isAllowed sender) (Revert.accountNotAllowed sender)
  let amount := s.portal.refunds token sender
  let (paid, s) := (s.setRefund token sender 0).tryTransfer ts ctx.ext.self token sender amount
  require (paid = true) Revert.callbackRejected
  pure (s.emit (.refundClaimed sender token amount))

theorem claimRefund_ok {s s' : L1 W} {ctx : CallCtx W} {sender : Address}
    (h : s.claimRefund ctx ts sender token = .ok s') :
    ∃ account, s.portal.refunds token sender ≤ s.ledger token ctx.ext.self ∧
      s' = ((s.setRefund token sender 0).pay ctx.ext.self token ctx.ext.self account
        (s.portal.refunds token sender)).emit
        (.refundClaimed sender token (s.portal.refunds token sender)) := by
  simp only [claimRefund, ok_iff] at h
  obtain ⟨-, -, -, hpaid, rfl⟩ := h
  rcases tryTransfer_cases (s.setRefund token sender 0) ts ctx.ext.self token sender
    (s.portal.refunds token sender) with ⟨account, -, hle, heq⟩ | heq
  · rw [heq]
    exact ⟨account, hle, rfl⟩
  · rw [heq] at hpaid
    cases hpaid

end L1

end TempoZones
