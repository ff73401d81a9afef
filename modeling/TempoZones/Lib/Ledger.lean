import TempoZones.Lib.Evm

/-!
# Token balances

Balances of every token and holder. A transfer moves exactly its amount between two accounts and
is possible only out of a sufficient balance; a transfer from an account to itself changes
nothing.
-/

namespace TempoZones.Lib

/-- Balance of each token (first argument) held by each account (second argument). -/
abbrev Ledger := Address → Address → ℕ

namespace Ledger

def move (b : Ledger) (token src dst : Address) (amount : ℕ) : Ledger := fun t a =>
  if t = token ∧ src ≠ dst then
    if a = src then b t a - amount else if a = dst then b t a + amount else b t a
  else b t a

theorem move_self (b : Ledger) (token a : Address) (amount : ℕ) : b.move token a a amount = b := by
  funext t x
  simp [move]

theorem move_src {b : Ledger} {token src dst : Address} {amount : ℕ} (h : src ≠ dst) :
    b.move token src dst amount token src = b token src - amount := by
  simp [move, h]

theorem move_dst {b : Ledger} {token src dst : Address} {amount : ℕ} (h : src ≠ dst) :
    b.move token src dst amount token dst = b token dst + amount := by
  simp [move, h, h.symm]

theorem move_of_ne {b : Ledger} {token src dst t a : Address} {amount : ℕ} (hs : a ≠ src)
    (hd : a ≠ dst) : b.move token src dst amount t a = b t a := by
  simp [move, hs, hd]

theorem move_token_ne {b : Ledger} {token src dst t a : Address} {amount : ℕ} (h : t ≠ token) :
    b.move token src dst amount t a = b t a := by
  simp [move, h]

end Ledger

end TempoZones.Lib
