import Mathlib.Algebra.Order.BigOperators.Group.Finset
import TempoZones.Checker.Ledger
import TempoZones.Lib.Tally

/-!
# Consistency of the checker's ledger

`Books` is the ledger without caches, the total of a token being the sum of its balances. Each
effect on a consistent state does what `Books.step` says (`applyEffect_ok`, `applyEffect_error`),
and the prior values lead back to the state before (`Tracks`). So the check of the touched totals
cannot fail, a failed transition restores the state, and the changed rows bring the database up to
date.
-/

namespace TempoZones.Checker

open Lib List Function SortedMap State TokenState

/-! ## Sums of rows -/

/-- The class of a token's accounts starts at its zero address and has no gap, so reading up to the
first row of another token reads all of them. -/
theorem State.rowsOf_eq_filter {V : Type} (values : SortedMap AccountKey V) (token : Address) :
    rowsOf values token = values.entries.filter fun row => decide (row.1.token = token) := by
  apply takeWhile_range (p := fun key : AccountKey => key.token = token)
  · intro key hkey
    rw [AccountKey.le_iff]
    exact .inr ⟨hkey.symm, Fin.zero_le _⟩
  intro a b hstart hlt hb
  rw [AccountKey.le_iff] at hstart
  rw [AccountKey.lt_iff] at hlt
  rcases hlt with hlt | ⟨heq, -⟩
  · rcases hstart with hstart | ⟨hstart, -⟩
    · exact absurd (hlt.trans_eq hb) (lt_asymm hstart)
    · exact hstart.symm
  · exact heq.trans hb

theorem State.mem_rowsOf {V : Type} {values : SortedMap AccountKey V} {token : Address}
    {row : AccountKey × V} :
    row ∈ rowsOf values token ↔ values.get? row.1 = some row.2 ∧ row.1.token = token := by
  rw [rowsOf_eq_filter, mem_filter, decide_eq_true_eq, get_eq_some_iff, mem_def]

theorem State.sum_rowsOf {V : Type} (values : SortedMap AccountKey V) (token : Address)
    (f : AccountKey → V → ℕ) :
    ((rowsOf values token).map fun row => f row.1 row.2).sum =
      ∑ a : Address, (values.get? ⟨token, a⟩).elim 0 (f ⟨token, a⟩) := by
  classical
  have hnodup : (rowsOf values token).Nodup := by
    rw [rowsOf_eq_filter]
    exact (values.sorted.imp fun hlt heq =>
      absurd (congrArg Prod.fst heq) (ne_of_lt hlt)).sublist filter_sublist
  have hkey : ∀ row ∈ rowsOf values token, row.1 = ⟨token, row.1.account⟩ := by
    rintro ⟨⟨t, a⟩, v⟩ hrow
    obtain ⟨-, rfl⟩ := mem_rowsOf.1 hrow
    rfl
  rw [← sum_toFinset _ hnodup]
  -- the rows are indexed by their accounts
  have himage := Finset.sum_image (s := (rowsOf values token).toFinset)
    (g := fun row => row.1.account)
    (f := fun a => (values.get? ⟨token, a⟩).elim 0 (f ⟨token, a⟩)) (by
      intro row hrow row' hrow' heq
      rw [Finset.mem_coe, mem_toFinset] at hrow hrow'
      have hfst : row.1 = row'.1 :=
        (hkey row hrow).trans ((congrArg (AccountKey.mk token) heq).trans (hkey row' hrow').symm)
      refine Prod.ext hfst (Option.some.inj ?_)
      rw [← (mem_rowsOf.1 hrow).1, ← (mem_rowsOf.1 hrow').1, hfst])
  have hrows : ∑ row ∈ (rowsOf values token).toFinset, f row.1 row.2 =
      ∑ row ∈ (rowsOf values token).toFinset,
        (values.get? ⟨token, row.1.account⟩).elim 0 (f ⟨token, row.1.account⟩) := by
    apply Finset.sum_congr rfl
    intro row hrow
    rw [mem_toFinset] at hrow
    rw [← hkey row hrow, (mem_rowsOf.1 hrow).1, Option.elim_some]
  rw [hrows, ← himage]
  apply Finset.sum_subset (Finset.subset_univ _)
  intro a _ ha
  cases hget : values.get? ⟨token, a⟩ with
  | none => rfl
  | some v =>
    have hrow : ((⟨token, a⟩, v) : AccountKey × V) ∈ rowsOf values token := mem_rowsOf.2 ⟨hget, rfl⟩
    exact absurd (Finset.mem_image.2 ⟨_, mem_toFinset.2 hrow, rfl⟩) ha

theorem foldlM_checkedAdd {A : Type} (f : A → ℕ) :
    ∀ (l : List A) (start : ℕ), start + (l.map f).sum < wordBound →
      l.foldlM (fun total x => checkedAdd total (f x)) start = .ok (start + (l.map f).sum) := by
  intro l
  induction l with
  | nil => exact fun start _ => rfl
  | cons x l ih =>
    intro start hfits
    rw [map_cons, sum_cons, ← add_assoc] at hfits ⊢
    have hx : checkedAdd start (f x) = .ok (start + f x) := if_pos (by omega)
    rw [foldlM_cons, hx]
    exact ih (start + f x) hfits

theorem foldlM_checkedAdd_pair {A : Type} (f g : A → ℕ) :
    ∀ (l : List A) (sums : ℕ × ℕ), sums.1 + (l.map f).sum < wordBound →
      sums.2 + (l.map g).sum < wordBound →
      l.foldlM (fun sums x => do
        let first ← checkedAdd sums.1 (f x)
        let second ← checkedAdd sums.2 (g x)
        pure (first, second)) sums =
        Except.ok (sums.1 + (l.map f).sum, sums.2 + (l.map g).sum) := by
  intro l
  induction l with
  | nil => exact fun sums _ _ => rfl
  | cons x l ih =>
    intro sums hf hg
    simp only [map_cons, sum_cons, ← add_assoc] at hf hg ⊢
    have hx : checkedAdd sums.1 (f x) = .ok (sums.1 + f x) := if_pos (by omega)
    have hy : checkedAdd sums.2 (g x) = .ok (sums.2 + g x) := if_pos (by omega)
    rw [foldlM_cons, hx]
    simp only [Except.bind, bind, hy]
    exact ih (sums.1 + f x, sums.2 + g x) hf hg

/-! ## The ledger without caches -/

/-- Balances and in-flight liabilities; a token is enabled when it has liabilities. -/
structure Books where
  balance : AccountKey → ℕ
  pending : Address → Option (LiabilityKind → ℕ)

namespace Books

def total (b : Books) (token : Address) : ℕ := ∑ a : Address, b.balance ⟨token, a⟩

theorem total_eq_sum (b : Books) (token : Address) :
    b.total token = ∑ a : Address, b.balance ⟨token, a⟩ := rfl

-- the sum runs over all addresses and must never be evaluated
attribute [irreducible] total

/-- What one effect means. An account is credited as far as what circulates fits a word and
debited as far as its balance reaches. -/
def step (b : Books) : Effect → Except AccountingError Books
  | .enableToken token =>
    .ok { b with
      pending := update b.pending token (some ((b.pending token).getD fun _ => 0)) }
  | .account key (.credit amount) => do
      require ((b.pending key.token).isSome) (.unknownToken key.token)
      require (b.total key.token + amount < wordBound) .overflow
      pure { b with balance := update b.balance key (b.balance key + amount) }
  | .account key (.debit amount) => do
      require ((b.pending key.token).isSome) (.unknownToken key.token)
      require (amount ≤ b.balance key) .underflow
      pure { b with balance := update b.balance key (b.balance key - amount) }
  | .liability token kind change =>
    match b.pending token with
    | none => .error (.unknownToken token)
    | some pending => do
        let value ← change.apply (pending kind)
        pure { b with
          pending := update b.pending token (some (update pending kind value)) }

theorem total_update (b : Books) (key : AccountKey) (value : ℕ) (token : Address) :
    ({ b with balance := update b.balance key value } : Books).total token +
        (if key.token = token then b.balance key else 0) =
      b.total token + if key.token = token then value else 0 := by
  by_cases h : key.token = token
  · subst h
    have hrow : (fun a => update b.balance key value ⟨key.token, a⟩) =
        update (fun a => b.balance ⟨key.token, a⟩) key.account value := by
      funext a
      by_cases ha : a = key.account
      · rw [ha, update_self key.account]
        exact update_self key value b.balance
      · rw [update_of_ne ha, update_of_ne]
        exact fun heq => ha (congrArg AccountKey.account heq)
    rw [if_pos rfl, if_pos rfl, total_eq_sum, total_eq_sum, hrow]
    exact sum_update _ key.account value
  rw [if_neg h, if_neg h, add_zero, add_zero, total_eq_sum, total_eq_sum]
  apply Finset.sum_congr rfl
  intro a _
  apply update_of_ne
  exact fun heq => h (congrArg AccountKey.token heq).symm

theorem balance_le_total (b : Books) (key : AccountKey) : b.balance key ≤ b.total key.token := by
  rw [total_eq_sum]
  exact Finset.single_le_sum (f := fun a => b.balance ⟨key.token, a⟩) (fun _ _ => Nat.zero_le _)
    (Finset.mem_univ key.account)

theorem total_congr {b c : Books} (h : b.balance = c.balance) (token : Address) :
    b.total token = c.total token := by
  rw [total_eq_sum, total_eq_sum, h]

end Books

open Books

def State.books (s : State) : Books where
  balance := s.account
  pending := fun token => (s.tokens.get? token).map fun t kind => kind.balance t

def State.accountSum (s : State) (token : Address) : ℕ :=
  ((rowsOf s.accounts token).map fun row => row.2).sum

theorem State.accountSum_eq (s : State) (token : Address) :
    s.accountSum token = s.books.total token := by
  rw [accountSum, sum_rowsOf s.accounts token fun _ v => v, total_eq_sum]
  apply Finset.sum_congr rfl
  intro a _
  change _ = (s.accounts.get? ⟨token, a⟩).getD 0
  cases s.accounts.get? ⟨token, a⟩ with
  | none => rfl
  | some v => rfl

/-- The invariant of the ledger: the token of every account row is known, no account row is zero,
every cached total is the sum of the token's account rows, and it fits a word. -/
structure State.Consistent (s : State) : Prop where
  known : ∀ key v, s.accounts.get? key = some v → (s.tokens.get? key.token).isSome
  nonzero : ∀ key v, s.accounts.get? key = some v → v ≠ 0
  total : ∀ token t, s.tokens.get? token = some t → t.accountTotal = s.accountSum token
  fits : ∀ token t, s.tokens.get? token = some t → t.accountTotal < wordBound

namespace State.Consistent

variable {s : State}

section

variable (h : s.Consistent)
include h

theorem books_total (token : Address) :
    s.books.total token = ((s.tokens.get? token).getD default).accountTotal := by
  cases htoken : s.tokens.get? token with
  | some t => rw [Option.getD_some, h.total token t htoken, accountSum_eq]
  | none =>
    -- an unknown token has no account rows
    rw [total_eq_sum]
    apply Finset.sum_eq_zero
    intro a _
    change (s.accounts.get? ⟨token, a⟩).getD 0 = 0
    cases haccount : s.accounts.get? ⟨token, a⟩ with
    | none => rfl
    | some v =>
      have hknown := h.known _ v haccount
      rw [htoken] at hknown
      cases hknown

theorem books_total_lt (token : Address) : s.books.total token < wordBound := by
  rw [h.books_total]
  cases htoken : s.tokens.get? token with
  | some t => exact h.fits token t htoken
  | none => exact Nat.two_pow_pos 256

theorem account_le {key : AccountKey} {t : TokenState} (ht : s.tokens.get? key.token = some t) :
    s.account key ≤ t.accountTotal := by
  have hle := s.books.balance_le_total key
  rwa [h.books_total, ht] at hle

theorem validateAggregate (token : Address) : s.validateAggregate token = .ok () := by
  have hsum : 0 + ((rowsOf s.accounts token).map fun row => row.2).sum = s.books.total token := by
    rw [zero_add, ← accountSum_eq, accountSum]
  have hfold := foldlM_checkedAdd (fun row : AccountKey × ℕ => row.2) (rowsOf s.accounts token) 0
    (by rw [hsum]; exact h.books_total_lt token)
  rw [hsum] at hfold
  rw [State.validateAggregate, hfold]
  simp only [bind, Except.bind]
  have htotal := h.books_total token
  cases htoken : s.tokens.get? token with
  | none =>
    rw [htoken] at htotal
    rw [if_pos ⟨rfl, htotal⟩]
    rfl
  | some t =>
    rw [htoken] at htotal
    rw [if_neg fun hnone => absurd hnone.1 Bool.false_ne_true, ensureAggregate, htoken]
    exact if_pos htotal.symm

theorem validateAggregates : ∀ tokens, s.validateAggregates tokens = .ok () := by
  intro tokens
  induction tokens with
  | nil => rfl
  | cons token tokens ih =>
    rw [State.validateAggregates, h.validateAggregate token]
    exact ih

theorem load_rows : s.rows.load = .ok s := by
  have hkeep : (s.accounts.entries.filter fun row => decide (row.2 ≠ 0)) = s.accounts.entries := by
    rw [filter_eq_self]
    rintro ⟨key, v⟩ hrow
    exact decide_eq_true (h.nonzero key v (get_eq_some_iff.2 hrow))
  have hstate : (⟨SortedMap.collect (s.accounts.entries.filter fun row => decide (row.2 ≠ 0)),
      SortedMap.collect s.tokens.entries⟩ : State) = s := by
    rw [hkeep, collect_entries, collect_entries]
  change (do
    let state : State := ⟨SortedMap.collect (s.accounts.entries.filter fun row => decide (row.2 ≠ 0)),
      SortedMap.collect s.tokens.entries⟩
    state.validateAggregates state.allTokens
    pure state) = _
  rw [hstate]
  simp only [h.validateAggregates]
  rfl

end

end State.Consistent

/-! ## One effect -/

theorem get_writeNonzero (values : SortedMap AccountKey ℕ) (key : AccountKey) (value : ℕ)
    (key' : AccountKey) :
    (writeNonzero values key value).get? key' =
      if key' = key then (if value = 0 then none else some value) else values.get? key' := by
  unfold writeNonzero
  split
  · rw [get_erase]
  · rw [get_insert]

theorem account_writeNonzero (s : State) (key : AccountKey) (value : ℕ)
    (tokens : SortedMap Address TokenState) :
    account ⟨writeNonzero s.accounts key value, tokens⟩ = update s.account key value := by
  funext key'
  rw [account, get_writeNonzero, update_apply]
  split
  · split
    · next hzero => exact hzero.symm
    · rfl
  · rfl

theorem LiabilityKind.balance_setBalance (t : TokenState) (kind : LiabilityKind) (value : ℕ) :
    (fun k : LiabilityKind => k.balance (kind.setBalance t value)) =
      update (fun k : LiabilityKind => k.balance t) kind value := by
  funext k
  rw [update_apply]
  cases kind <;> cases k <;> rfl

theorem LiabilityKind.accountTotal_setBalance (t : TokenState) (kind : LiabilityKind) (value : ℕ) :
    (kind.setBalance t value).accountTotal = t.accountTotal := by
  cases kind <;> rfl

theorem State.Consistent.insertToken {s : State} (h : s.Consistent) (token : Address)
    (t : TokenState)
    (ht : t.accountTotal = ((s.tokens.get? token).getD default).accountTotal) :
    State.Consistent { s with tokens := s.tokens.insert token t } where
  known := by
    intro key v hv
    rw [get_insert]
    split
    · rfl
    · exact h.known key v hv
  nonzero := h.nonzero
  total := by
    intro token' t' ht'
    rw [get_insert] at ht'
    change t'.accountTotal = s.accountSum token'
    split at ht'
    · next heq =>
      cases ht'
      rw [ht, ← h.books_total, heq, accountSum_eq]
    · exact h.total token' t' ht'
  fits := by
    intro token' t' ht'
    rw [get_insert] at ht'
    split at ht'
    · cases ht'
      rw [ht, ← h.books_total]
      exact h.books_total_lt token
    · exact h.fits token' t' ht'

variable {key : AccountKey}

theorem State.Consistent.writeAccount {s : State} (h : s.Consistent)
    {t : TokenState} (ht : s.tokens.get? key.token = some t) {value total : ℕ}
    (hmoved : total + s.account key = t.accountTotal + value) (hfits : total < wordBound) :
    State.Consistent ⟨writeNonzero s.accounts key value,
      s.tokens.insert key.token { t with accountTotal := total }⟩ where
  known := by
    intro key' v hv
    rw [get_insert]
    split
    · rfl
    · next hne =>
      rw [get_writeNonzero, if_neg fun heq => hne (congrArg AccountKey.token heq)] at hv
      exact h.known key' v hv
  nonzero := by
    intro key' v hv
    rw [get_writeNonzero] at hv
    split at hv
    · split at hv
      · cases hv
      · next hvalue =>
        cases hv
        exact hvalue
    · exact h.nonzero key' v hv
  total := by
    intro token t' ht'
    rw [accountSum_eq]
    rw [total_congr (c := { s.books with balance := update s.account key value })
      (account_writeNonzero s key value _)]
    have hbooks := s.books.total_update key value token
    have hold := h.books_total token
    rw [get_insert] at ht'
    change _ + (if key.token = token then s.account key else 0) = _ at hbooks
    split at ht'
    · next heq =>
      cases ht'
      rw [if_pos heq.symm, if_pos heq.symm, hold, heq, ht, Option.getD_some] at hbooks
      rw [heq]
      exact (Nat.add_right_cancel (hbooks.trans hmoved.symm)).symm
    · next hne =>
      rw [if_neg (Ne.symm hne), if_neg (Ne.symm hne), add_zero, add_zero, hold, ht',
        Option.getD_some] at hbooks
      exact hbooks.symm
  fits := by
    intro token' t' ht'
    rw [get_insert] at ht'
    split at ht'
    · cases ht'
      exact hfits
    · exact h.fits token' t' ht'

theorem State.books_insertToken (s : State) (token : Address) (t : TokenState) :
    books { s with tokens := s.tokens.insert token t } =
      { s.books with
        pending := update s.books.pending token (some fun kind => kind.balance t) } := by
  simp only [books, Books.mk.injEq]
  refine ⟨rfl, ?_⟩
  funext token'
  rw [get_insert, update_apply]
  split
  · rfl
  · rfl

theorem State.books_writeAccount (s : State) {t : TokenState}
    (ht : s.tokens.get? key.token = some t) (value total : ℕ) :
    books ⟨writeNonzero s.accounts key value,
      s.tokens.insert key.token { t with accountTotal := total }⟩ =
      { s.books with balance := update s.books.balance key value } := by
  simp only [books, Books.mk.injEq]
  refine ⟨account_writeNonzero s key value _, ?_⟩
  funext token
  rw [get_insert]
  split
  · next heq =>
    rw [heq, ht, Option.map_some, Option.map_some, Option.some.injEq]
    funext kind
    cases kind <;> rfl
  · rfl

namespace Working

variable {σ next : Working} {key : AccountKey}

section

variable (h : σ.state.Consistent)
include h

/-- What an account change does on a consistent state: the checks on the balance and on the cached
total come down to one. -/
theorem changeAccount_eq {t : TokenState} (ht : σ.state.tokens.get? key.token = some t)
    (change : BalanceChange) :
    σ.changeAccount key change =
      match change with
      | .credit amount =>
        if t.accountTotal + amount < wordBound then
          .ok (σ.writeAccount key t (t.accountTotal + amount) (σ.state.account key + amount))
        else .error .overflow
      | .debit amount =>
        if amount ≤ σ.state.account key then
          .ok (σ.writeAccount key t (t.accountTotal - amount) (σ.state.account key - amount))
        else .error .underflow := by
  have hle := h.account_le ht
  cases change with
  | credit amount =>
    simp only [changeAccount, ht, BalanceChange.apply, checkedAdd]
    by_cases hfits : t.accountTotal + amount < wordBound
    · have haccount : σ.state.account key + amount < wordBound := by omega
      rw [if_pos hfits, if_pos hfits, if_pos haccount]
      rfl
    · rw [if_neg hfits, if_neg hfits]
      rfl
  | debit amount =>
    simp only [changeAccount, ht, BalanceChange.apply, checkedSub]
    by_cases henough : amount ≤ σ.state.account key
    · rw [if_pos (henough.trans hle), if_pos henough, if_pos henough]
      rfl
    · -- the total may reach where the balance does not; the error is the same
      rw [if_neg henough, if_neg henough]
      by_cases htotal : amount ≤ t.accountTotal
      · rw [if_pos htotal]
        rfl
      · rw [if_neg htotal]
        rfl

theorem changeAccount_consistent {change : BalanceChange}
    (hnext : σ.changeAccount key change = .ok next) : next.state.Consistent := by
  cases ht : σ.state.tokens.get? key.token with
  | none =>
    rw [changeAccount, ht] at hnext
    cases hnext
  | some t =>
    rw [changeAccount_eq h ht] at hnext
    have hle := h.account_le ht
    have hfits := h.fits _ t ht
    cases change with
    | credit amount =>
      simp only at hnext
      split at hnext
      · next hsum =>
        cases hnext
        exact h.writeAccount ht (by omega) hsum
      · cases hnext
    | debit amount =>
      simp only at hnext
      split at hnext
      · cases hnext
        exact h.writeAccount ht (by omega) (by omega)
      · cases hnext

theorem applyEffect_consistent {effect : Effect} (hnext : σ.applyEffect effect = .ok next) :
    next.state.Consistent := by
  cases effect with
  | enableToken token =>
    cases hnext
    unfold enableToken
    split
    · exact h
    · next hunknown =>
      apply h.insertToken
      rw [Option.not_isSome_iff_eq_none.1 hunknown]
      rfl
  | account key change => exact changeAccount_consistent h hnext
  | liability token kind change =>
    simp only [applyEffect, changeLiability] at hnext
    split at hnext
    · cases hnext
    · next previous ht =>
      obtain ⟨value, -, hpure⟩ := bind_ok_iff.1 hnext
      cases hpure
      apply h.insertToken
      rw [LiabilityKind.accountTotal_setBalance, ht]
      rfl

theorem changeAccount_books (key : AccountKey) (change : BalanceChange) :
    (σ.changeAccount key change).map (fun next => next.state.books) =
      σ.state.books.step (.account key change) := by
  cases ht : σ.state.tokens.get? key.token with
  | none =>
    have hpending : σ.state.books.pending key.token = none := by
      change (σ.state.tokens.get? key.token).map _ = none
      rw [ht, Option.map_none]
    rw [changeAccount, ht]
    cases change <;> simp [step, hpending, require, Except.map, bind, Except.bind]
  | some t =>
    have hpending : (σ.state.books.pending key.token).isSome := by
      change ((σ.state.tokens.get? key.token).map _).isSome
      rw [ht, Option.map_some, Option.isSome_some]
    have htotal : σ.state.books.total key.token = t.accountTotal := by
      rw [h.books_total, ht, Option.getD_some]
    have hbalance : σ.state.books.balance key = σ.state.account key := rfl
    rw [changeAccount_eq h ht]
    cases change with
    | credit amount =>
      simp only [step, htotal, hbalance, require, hpending, if_true]
      split
      · simp only [Except.map, writeAccount, books_writeAccount _ ht]
        rfl
      · rfl
    | debit amount =>
      simp only [step, hbalance, require, hpending, if_true]
      split
      · simp only [Except.map, writeAccount, books_writeAccount _ ht]
        rfl
      · rfl

end

theorem State.books_pending (s : State) (token : Address) :
    s.books.pending token = (s.tokens.get? token).map fun t kind => kind.balance t := rfl

theorem enableToken_books (σ : Working) (token : Address) :
    .ok (σ.enableToken token).state.books = σ.state.books.step (.enableToken token) := by
  have hpending := State.books_pending σ.state token
  unfold enableToken
  simp only [step, Except.ok.injEq]
  cases ht : σ.state.tokens.get? token with
  | none =>
    have hzero : (fun kind : LiabilityKind => kind.balance default) = fun _ => 0 := by
      funext kind
      cases kind <;> rfl
    rw [ht, Option.map_none] at hpending
    rw [Option.isSome_none, if_neg Bool.false_ne_true, books_insertToken, hzero, hpending,
      Option.getD_none]
  | some t =>
    rw [ht, Option.map_some] at hpending
    rw [Option.isSome_some, if_pos rfl, hpending, Option.getD_some, ← hpending, update_eq_self]

theorem changeLiability_books (σ : Working) (token : Address) (kind : LiabilityKind)
    (change : BalanceChange) :
    (σ.changeLiability token kind change).map (fun next => next.state.books) =
      σ.state.books.step (.liability token kind change) := by
  have hpending := State.books_pending σ.state token
  simp only [changeLiability, step]
  cases ht : σ.state.tokens.get? token with
  | none =>
    rw [ht, Option.map_none] at hpending
    rw [hpending]
    rfl
  | some previous =>
    rw [ht, Option.map_some] at hpending
    rw [hpending]
    simp only
    cases change.apply (kind.balance previous) with
    | error e => rfl
    | ok value =>
      change Except.ok (books { σ.state with
        tokens := σ.state.tokens.insert token (kind.setBalance previous value) }) = _
      rw [books_insertToken, LiabilityKind.balance_setBalance]
      rfl

theorem applyEffect_books (h : σ.state.Consistent) (effect : Effect) :
    (σ.applyEffect effect).map (fun next => next.state.books) = σ.state.books.step effect := by
  cases effect with
  | enableToken token => exact enableToken_books σ token
  | account key change => exact changeAccount_books h key change
  | liability token kind change => exact changeLiability_books σ token kind change

/-! ## The prior values -/

/-- The prior values lead from the working state back to `s₀`, where the transition started. The
token of a touched account is touched as well, and a touched token is known. -/
structure Tracks (s₀ : State) (σ : Working) : Prop where
  accounts : Tracked s₀.accounts σ.state.accounts σ.accounts
  tokens : Tracked s₀.tokens σ.state.tokens σ.tokens
  touched : ∀ key, (σ.accounts.get? key).isSome → (σ.tokens.get? key.token).isSome
  known : ∀ token, (σ.tokens.get? token).isSome → (σ.state.tokens.get? token).isSome

variable {s₀ : State}

theorem Tracks.begin (s : State) : Tracks s s.begin where
  accounts := Tracked.start s.accounts
  tokens := Tracked.start s.tokens
  touched := fun key h => by rw [State.begin, get_empty] at h; cases h
  known := fun token h => by rw [State.begin, get_empty] at h; cases h

section

variable (h : Tracks s₀ σ)
include h

theorem Tracks.writeToken {token : Address} {previous : TokenState}
    (ht : σ.state.tokens.get? token = some previous) (t : TokenState) :
    Tracks s₀ (σ.writeToken token previous t) where
  accounts := h.accounts
  tokens := by
    change Tracked s₀.tokens _ (σ.tokens.insertIfAbsent token (some previous))
    rw [← ht]
    apply h.tokens.record
    intro token' hne
    exact (get_insert token t σ.state.tokens token').trans (if_neg hne)
  touched := by
    intro key hkey
    change ((σ.tokens.insertIfAbsent token (some previous)).get? key.token).isSome
    rw [get_insertIfAbsent]
    split
    · rfl
    · exact h.touched key hkey
  known := by
    intro token' htoken
    change ((σ.state.tokens.insert token t).get? token').isSome
    change ((σ.tokens.insertIfAbsent token (some previous)).get? token').isSome at htoken
    rw [get_insertIfAbsent] at htoken
    rw [get_insert]
    split
    · rfl
    · next hne =>
      rw [if_neg hne] at htoken
      exact h.known token' htoken

theorem Tracks.writeAccount {previous : TokenState}
    (ht : σ.state.tokens.get? key.token = some previous) (total value : ℕ) :
    Tracks s₀ (σ.writeAccount key previous total value) := by
  have htoken := h.writeToken ht { previous with accountTotal := total }
  refine ⟨?_, htoken.tokens, ?_, htoken.known⟩
  · apply h.accounts.record
    intro key' hne
    exact (get_writeNonzero σ.state.accounts key value key').trans (if_neg hne)
  intro key' hkey'
  change ((σ.accounts.insertIfAbsent key _).get? key').isSome at hkey'
  rw [get_insertIfAbsent] at hkey'
  split at hkey'
  · next heq =>
    rw [heq]
    change ((σ.tokens.insertIfAbsent key.token (some previous)).get? key.token).isSome
    rw [get_insertIfAbsent, if_pos rfl, Option.isSome_some]
  · exact htoken.touched key' hkey'

theorem Tracks.enableToken (token : Address) : Tracks s₀ (σ.enableToken token) := by
  unfold Working.enableToken
  cases ht : σ.state.tokens.get? token with
  | some t =>
    rw [Option.isSome_some, if_pos rfl]
    exact h
  | none =>
    rw [Option.isSome_none, if_neg Bool.false_ne_true]
    -- an unknown token is not recorded yet, since recorded tokens are known
    have hlog : σ.tokens.get? token = none := by
      cases hlog : σ.tokens.get? token with
      | none => rfl
      | some previous =>
        have hknown := h.known token (by rw [hlog]; rfl)
        rw [ht] at hknown
        cases hknown
    have hinsert : σ.tokens.insert token none =
        σ.tokens.insertIfAbsent token (σ.state.tokens.get? token) := by
      rw [SortedMap.insertIfAbsent, hlog, ht]
      rfl
    refine ⟨h.accounts, ?_, ?_, ?_⟩
    · rw [hinsert]
      apply h.tokens.record
      intro token' hne
      exact (get_insert token _ σ.state.tokens token').trans (if_neg hne)
    · intro key hkey
      change ((σ.tokens.insert token none).get? key.token).isSome
      rw [get_insert]
      split
      · rfl
      · exact h.touched key hkey
    intro token' htoken
    change ((σ.state.tokens.insert token default).get? token').isSome
    change ((σ.tokens.insert token none).get? token').isSome at htoken
    rw [get_insert] at htoken ⊢
    split
    · rfl
    · next hne =>
      rw [if_neg hne] at htoken
      exact h.known token' htoken

theorem Tracks.applyEffect {effect : Effect} (hnext : σ.applyEffect effect = .ok next) :
    Tracks s₀ next := by
  cases effect with
  | enableToken token =>
    cases hnext
    exact h.enableToken token
  | account key change =>
    simp only [Working.applyEffect, changeAccount] at hnext
    split at hnext
    · cases hnext
    · next previous ht =>
      obtain ⟨total, -, hrest⟩ := bind_ok_iff.1 hnext
      obtain ⟨value, -, hpure⟩ := bind_ok_iff.1 hrest
      cases hpure
      exact h.writeAccount ht total value
  | liability token kind change =>
    simp only [Working.applyEffect, changeLiability] at hnext
    split at hnext
    · cases hnext
    · next previous ht =>
      obtain ⟨value, -, hpure⟩ := bind_ok_iff.1 hnext
      cases hpure
      exact h.writeToken ht _

theorem Tracks.rollback_eq : σ.rollback = s₀ := by
  rw [rollback, h.accounts.restore_eq, h.tokens.restore_eq]

end

/-! ## A list of effects -/

/-- What a list of effects leaves: consistent books that say what the effects mean, and the prior
values to get back. -/
theorem applyEffects_spec :
    ∀ (effects : List Effect) (σ : Working), σ.state.Consistent → Tracks s₀ σ →
      (σ.applyEffects effects).2.state.Consistent ∧ Tracks s₀ (σ.applyEffects effects).2 ∧
        (σ.applyEffects effects).1.map (fun _ => (σ.applyEffects effects).2.state.books) =
          effects.foldlM step σ.state.books := by
  intro effects
  induction effects with
  | nil => exact fun σ hconsistent htracks => ⟨hconsistent, htracks, rfl⟩
  | cons effect effects ih =>
    intro σ hconsistent htracks
    have hstep := applyEffect_books hconsistent effect
    rw [foldlM_cons, ← hstep]
    cases hnext : σ.applyEffect effect with
    | error e =>
      rw [applyEffects, hnext]
      exact ⟨hconsistent, htracks, rfl⟩
    | ok next =>
      rw [applyEffects, hnext]
      exact ih next (applyEffect_consistent hconsistent hnext) (htracks.applyEffect hnext)

/-! ## The check of the touched totals -/

def previousChanged (σ : Working) (token a : Address) : ℕ :=
  (σ.accounts.get? ⟨token, a⟩).elim 0 fun previous => previous.getD 0

def currentChanged (σ : Working) (token a : Address) : ℕ :=
  (σ.accounts.get? ⟨token, a⟩).elim 0 fun _ => σ.state.account ⟨token, a⟩

theorem Tracks.changed_cases (htracks : Tracks s₀ σ) (token a : Address) :
    (σ.previousChanged token a = s₀.account ⟨token, a⟩ ∧
      σ.currentChanged token a = σ.state.account ⟨token, a⟩) ∨
    (σ.previousChanged token a = 0 ∧ σ.currentChanged token a = 0 ∧
      σ.state.account ⟨token, a⟩ = s₀.account ⟨token, a⟩) := by
  unfold previousChanged currentChanged
  cases hlog : σ.accounts.get? ⟨token, a⟩ with
  | some previous =>
    left
    rw [htracks.accounts.recorded _ previous hlog]
    exact ⟨rfl, rfl⟩
  | none =>
    right
    refine ⟨rfl, rfl, ?_⟩
    rw [account, account, htracks.accounts.kept _ hlog]

theorem Tracks.changed_sums (htracks : Tracks s₀ σ) (token : Address) :
    ∑ a, σ.previousChanged token a ≤ s₀.books.total token ∧
      ∑ a, σ.currentChanged token a ≤ σ.state.books.total token ∧
      s₀.books.total token + ∑ a, σ.currentChanged token a =
        σ.state.books.total token + ∑ a, σ.previousChanged token a := by
  rw [total_eq_sum, total_eq_sum, ← Finset.sum_add_distrib, ← Finset.sum_add_distrib]
  refine ⟨Finset.sum_le_sum fun a _ => ?_, Finset.sum_le_sum fun a _ => ?_,
    Finset.sum_congr rfl fun a _ => ?_⟩
  all_goals
    simp only [books]
    rcases htracks.changed_cases token a with ⟨hprevious, hcurrent⟩ | ⟨hprevious, hcurrent, hsame⟩
    <;> omega

theorem Tracks.changedSums_eq (hstart : s₀.Consistent) (h : σ.state.Consistent)
    (htracks : Tracks s₀ σ) (token : Address) :
    σ.changedSums token = .ok (∑ a, σ.previousChanged token a, ∑ a, σ.currentChanged token a) := by
  obtain ⟨hprevious, hcurrent, -⟩ := htracks.changed_sums token
  have hprev := sum_rowsOf σ.accounts token fun _ previous => previous.getD 0
  have hcur := sum_rowsOf σ.accounts token fun key _ => σ.state.account key
  have hfold := foldlM_checkedAdd_pair (fun row : AccountKey × Option ℕ => row.2.getD 0)
    (fun row => σ.state.account row.1) (rowsOf σ.accounts token) (0, 0)
  rw [zero_add, zero_add, hprev, hcur] at hfold
  exact hfold (hprevious.trans_lt (hstart.books_total_lt token))
    (hcurrent.trans_lt (h.books_total_lt token))

theorem validateChangedAggregate_of_sums {token : Address} {previous : Option TokenState}
    {t : TokenState} {before after : ℕ} (hsums : σ.changedSums token = .ok (before, after))
    (ht : σ.state.tokens.get? token = some t)
    (hle : before ≤ (previous.getD default).accountTotal)
    (hmoved : (previous.getD default).accountTotal + after = t.accountTotal + before)
    (hfits : t.accountTotal < wordBound) :
    σ.validateChangedAggregate token previous = .ok () := by
  have hsub : checkedSub (previous.getD default).accountTotal before =
      .ok ((previous.getD default).accountTotal - before) := if_pos hle
  have hsum : (previous.getD default).accountTotal - before + after = t.accountTotal := by omega
  have hadd : checkedAdd ((previous.getD default).accountTotal - before) after =
      .ok t.accountTotal := by
    rw [checkedAdd, hsum, if_pos hfits]
  rw [validateChangedAggregate, hsums]
  simp only [bind, Except.bind, hsub, hadd, ensureAggregate, ht, if_true]

theorem validateChangedAggregate_ok (hstart : s₀.Consistent) (h : σ.state.Consistent)
    (htracks : Tracks s₀ σ) {token : Address} {previous : Option TokenState}
    (htoken : σ.tokens.get? token = some previous) :
    σ.validateChangedAggregate token previous = .ok () := by
  obtain ⟨t, ht⟩ := Option.isSome_iff_exists.1 (htracks.known token (by rw [htoken]; rfl))
  have hold := hstart.books_total token
  have hnew := h.books_total token
  rw [← htracks.tokens.recorded token previous htoken] at hold
  rw [ht, Option.getD_some] at hnew
  obtain ⟨hle, -, hmoved⟩ := htracks.changed_sums token
  rw [hold] at hle
  rw [hold, hnew] at hmoved
  exact validateChangedAggregate_of_sums (htracks.changedSums_eq hstart h token) ht hle hmoved
    (h.fits token t ht)

theorem validateChangedAggregates_ok (hstart : s₀.Consistent) (h : σ.state.Consistent)
    (htracks : Tracks s₀ σ) :
    ∀ rows : List (Address × Option TokenState), (∀ row ∈ rows, σ.tokens.get? row.1 = some row.2) →
      σ.validateChangedAggregates rows = .ok () := by
  intro rows
  induction rows with
  | nil => exact fun _ => rfl
  | cons row rows ih =>
    intro hrows
    rw [validateChangedAggregates,
      validateChangedAggregate_ok hstart h htracks (hrows row mem_cons_self)]
    exact ih fun row' hrow' => hrows row' (mem_cons_of_mem row hrow')

end Working

/-! ## Transitions -/

namespace State.Consistent

variable {s s' : State} {effects : List Effect} {changes : ChangedRows}

theorem validateChangedAggregates (h : s.Consistent) (effects : List Effect) :
    (s.begin.applyEffects effects).2.validateChangedAggregates
      (s.begin.applyEffects effects).2.tokens.entries = .ok () := by
  obtain ⟨hconsistent, htracks, -⟩ :=
    Working.applyEffects_spec effects s.begin h (Working.Tracks.begin s)
  exact Working.validateChangedAggregates_ok h hconsistent htracks _
    fun row hrow => get_eq_some_iff.2 hrow

theorem apply_ok (h : s.Consistent) (happly : s.apply effects = (.ok changes, s')) :
    s'.Consistent ∧ effects.foldlM step s.books = .ok s'.books ∧
      s.rows.writeChangedRows s' changes = s'.rows := by
  obtain ⟨hconsistent, htracks, hbooks⟩ :=
    Working.applyEffects_spec effects s.begin h (Working.Tracks.begin s)
  have hcheck := h.validateChangedAggregates effects
  rw [apply] at happly
  cases hrun : s.begin.applyEffects effects with
  | mk result σ =>
    rw [hrun] at hconsistent htracks hbooks hcheck happly
    cases result with
    | error e => cases happly
    | ok u =>
      simp only [bind, Except.bind, hcheck] at happly
      cases happly
      refine ⟨hconsistent, hbooks.symm, ?_⟩
      -- the touched keys are the changed rows
      rw [Rows.writeChangedRows, rows, rows, htracks.accounts.write_back, htracks.tokens.write_back]

theorem apply_error (h : s.Consistent) {e : AccountingError}
    (happly : s.apply effects = (.error e, s')) :
    s' = s ∧ effects.foldlM step s.books = .error e := by
  obtain ⟨-, htracks, hbooks⟩ :=
    Working.applyEffects_spec effects s.begin h (Working.Tracks.begin s)
  have hcheck := h.validateChangedAggregates effects
  rw [apply] at happly
  cases hrun : s.begin.applyEffects effects with
  | mk result σ =>
    rw [hrun] at htracks hbooks hcheck happly
    cases result with
    | error e' =>
      simp only [bind, Except.bind, htracks.rollback_eq] at happly
      cases happly
      exact ⟨rfl, hbooks.symm⟩
    | ok u =>
      simp only [bind, Except.bind, hcheck] at happly
      cases happly

end State.Consistent

/-- A transition from a consistent state. Either every effect goes through: the state is consistent
again, the books say what the effects mean one after the other, a full recomputation agrees with the
incremental check, and the changed rows bring the stored rows up to date. Or the first effect that
fails gives the error, and the state is the one before. -/
theorem apply_effects_atomic (s : State) (h : s.Consistent) (effects : List Effect) :
    ((s.begin.applyEffects effects).2.validateChangedAggregates
      (s.begin.applyEffects effects).2.tokens.entries = .ok ()) ∧
    ((∃ (changes : ChangedRows) (s' : State), s.apply effects = (.ok changes, s') ∧
      s'.Consistent ∧ effects.foldlM step s.books = .ok s'.books ∧
      (∀ tokens, s'.validateAggregates tokens = .ok ()) ∧
      s.rows.writeChangedRows s' changes = s'.rows ∧ s'.rows.load = .ok s') ∨
    (∃ e, s.apply effects = (.error e, s) ∧ effects.foldlM step s.books = .error e)) := by
  refine ⟨h.validateChangedAggregates effects, ?_⟩
  rcases happly : s.apply effects with ⟨e | changes, s'⟩
  · right
    obtain ⟨hsame, hbooks⟩ := h.apply_error happly
    exact ⟨e, by rw [hsame], hbooks⟩
  · left
    obtain ⟨hconsistent, hbooks, hrows⟩ := h.apply_ok happly
    exact ⟨changes, s', rfl, hconsistent, hbooks, hconsistent.validateAggregates, hrows,
      hconsistent.load_rows⟩

def State.empty : State := ⟨∅, ∅⟩

theorem State.empty_consistent : empty.Consistent where
  known := fun key v h => by rw [empty, get_empty] at h; cases h
  nonzero := fun key v h => by rw [empty, get_empty] at h; cases h
  total := fun token t h => by rw [empty, get_empty] at h; cases h
  fits := fun token t h => by rw [empty, get_empty] at h; cases h

end TempoZones.Checker

namespace TempoZones.Example

open Checker

/-- A token is enabled, five units of it are minted to an account and two are burned. -/
def mintAndBurn : List Effect :=
  [.enableToken 1, .account ⟨1, 7⟩ (.credit 5), .account ⟨1, 7⟩ (.debit 2)]

theorem apply_mintAndBurn :
    (State.empty.apply mintAndBurn).2.account ⟨1, 7⟩ = 3 ∧
      (State.empty.apply mintAndBurn).2.Consistent := by
  refine ⟨by decide +kernel, ?_⟩
  rcases (apply_effects_atomic State.empty State.empty_consistent mintAndBurn).2 with
    ⟨changes, s', happly, hconsistent, -⟩ | ⟨e, happly, -⟩
  · rw [happly]
    exact hconsistent
  · rw [happly]
    exact State.empty_consistent

end TempoZones.Example
