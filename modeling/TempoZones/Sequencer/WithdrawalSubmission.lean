import TempoZones.Sequencer.WithdrawalPlan
import TempoZones.System.WithdrawalFifo

/-!
# Submission of planned withdrawals

`build_withdrawal_batches` cuts a list of withdrawals into consecutive ranges (`Tiles`), each as
long as the gas budget allows (`GreedyRange`). `Pipeline` is the loop of
`submit_and_confirm_batches` next to the portal: transactions are submitted, executed in nonce order
between those of other accounts, lost, and confirmed or given up in any order. The hash of the
remaining queue matches the front slot only while every range before it has been processed, so the
first failure stops all later ranges.
-/

namespace TempoZones

open Lib List Withdrawal

variable {W : Type}

/-! ## Ranges -/

def Withdrawal.itemGas (w : Withdrawal W) : ℕ :=
  processWithdrawalItemGas w.gasLimit w.fallbackNonce

def WithdrawalBatch.items (withdrawals : List (Withdrawal W)) (b : WithdrawalBatch) :
    List (Withdrawal W) :=
  (withdrawals.drop b.start).take (b.stop - b.start)

def batchGas (items : List (Withdrawal W)) : ℕ :=
  PROCESS_WITHDRAWAL_TX_OVERHEAD_GAS + (items.map itemGas).sum

/-- Consecutive non-empty ranges from `first` to `last`. -/
inductive Tiles : (first last : ℕ) → List WithdrawalBatch → Prop
  | done (n : ℕ) : Tiles n n []
  | range {b : WithdrawalBatch} {last : ℕ} {rest : List WithdrawalBatch}
      (nonempty : b.start < b.stop) (tail : Tiles b.stop last rest) : Tiles b.start last (b :: rest)

/-- What a range of the plan satisfies. Gas is added with saturation, which no budget below
`u64::MAX` and no list of up to `2 ^ 40` withdrawals reaches. -/
structure GreedyRange (withdrawals : List (Withdrawal W)) (maxBatchGas : ℕ)
    (b : WithdrawalBatch) : Prop where
  gas : b.gasLimit = min (batchGas (b.items withdrawals)) (2 ^ 64 - 1)
  gas_exact : maxBatchGas < 2 ^ 64 - 1 ∨ withdrawals.length ≤ 2 ^ 40 →
    b.gasLimit = batchGas (b.items withdrawals)
  oversized : maxBatchGas < b.gasLimit → b.stop = b.start + 1
  maximal : ∀ w, withdrawals[b.stop]? = some w →
    maxBatchGas < saturatingAdd b.gasLimit w.itemGas

theorem Withdrawal.itemGas_le (w : Withdrawal W) : w.itemGas ≤ 11750000 := by
  unfold itemGas processWithdrawalItemGas
  unfold PROCESS_DEPOSIT_BOUNCEBACK_ITEM_OVERHEAD_GAS PROCESS_SIMPLE_WITHDRAWAL_ITEM_OVERHEAD_GAS
    PROCESS_CALLBACK_WITHDRAWAL_ITEM_OVERHEAD_GAS MAX_WITHDRAWAL_GAS_LIMIT
  split_ifs <;> omega

theorem batchGas_le (items : List (Withdrawal W)) :
    batchGas items ≤ 500000 + items.length * 11750000 := by
  have hsum : (items.map itemGas).sum ≤ items.length * 11750000 := by
    induction items with
    | nil => exact Nat.zero_le _
    | cons w items ih =>
      have hitem := w.itemGas_le
      rw [map_cons, sum_cons, length_cons, Nat.succ_mul]
      omega
  unfold batchGas PROCESS_WITHDRAWAL_TX_OVERHEAD_GAS
  omega

theorem batchGas_concat (items : List (Withdrawal W)) (w : Withdrawal W) :
    batchGas (items ++ [w]) = batchGas items + w.itemGas := by
  rw [batchGas, map_append, sum_append, map_singleton, sum_singleton, batchGas, Nat.add_assoc]

theorem items_append_drop (withdrawals : List (Withdrawal W)) {b : WithdrawalBatch}
    (hle : b.start ≤ b.stop) :
    b.items withdrawals ++ withdrawals.drop b.stop = withdrawals.drop b.start := by
  have hdrop : withdrawals.drop b.stop = (withdrawals.drop b.start).drop (b.stop - b.start) := by
    rw [drop_drop, Nat.add_sub_cancel' hle]
  rw [hdrop]
  exact take_append_drop _ _

variable {withdrawals : List (Withdrawal W)}

theorem items_succ {start stop : ℕ} (hle : start ≤ stop) (h : stop < withdrawals.length) :
    (withdrawals.drop start).take (stop + 1 - start) =
      (withdrawals.drop start).take (stop - start) ++ [withdrawals.get ⟨stop, h⟩] := by
  have hlength : stop - start < (withdrawals.drop start).length := by
    rw [length_drop]
    omega
  rw [Nat.sub_add_comm hle, ← take_append_getElem hlength, getElem_drop]
  simp only [Nat.add_sub_cancel' hle, get_eq_getElem]

/-- The inner loop keeps the gas of the range it has filled, goes over the budget only with the first
withdrawal, and stops where the next one does not fit. -/
theorem fillBatch_greedy (withdrawals : List (Withdrawal W)) (maxBatchGas start stop gasLimit : ℕ)
    (hle : start ≤ stop)
    (hgas : gasLimit = min (batchGas ((withdrawals.drop start).take (stop - start))) (2 ^ 64 - 1))
    (hfits : maxBatchGas < gasLimit → stop ≤ start + 1)
    (filled : ℕ × ℕ) (hfilled : fillBatch withdrawals maxBatchGas start stop gasLimit = filled) :
    filled.2 = min (batchGas ((withdrawals.drop start).take (filled.1 - start))) (2 ^ 64 - 1) ∧
      (maxBatchGas < filled.2 → filled.1 ≤ start + 1) ∧
      ∀ w, withdrawals[filled.1]? = some w → maxBatchGas < saturatingAdd filled.2 w.itemGas := by
  -- along the loop `stop` and `gasLimit`: the range filled so far and its gas, saturated
  fun_induction fillBatch withdrawals maxBatchGas start stop gasLimit with
  | case1 stop gasLimit h nextGas hfull =>
    subst hfilled
    refine ⟨hgas, hfits, ?_⟩
    intro w hw
    rw [getElem?_eq_getElem h, Option.some.injEq] at hw
    subst hw
    exact hfull.2
  | case2 stop gasLimit h nextGas hroom ih =>
    refine ih (by omega) ?_ ?_ hfilled
    · rw [items_succ hle h, batchGas_concat]
      change min (gasLimit + (withdrawals.get ⟨stop, h⟩).itemGas) _ = _
      omega
    intro hover
    have hfirst : ¬ stop > start := fun hlt => hroom ⟨hlt, hover⟩
    omega
  | case3 stop gasLimit h =>
    subst hfilled
    refine ⟨hgas, hfits, ?_⟩
    intro w hw
    rw [getElem?_eq_none (Nat.le_of_not_lt h)] at hw
    cases hw

theorem fillBatch_range {start : ℕ} (maxBatchGas : ℕ) (h : start < withdrawals.length) :
    let filled := fillBatch withdrawals maxBatchGas start start PROCESS_WITHDRAWAL_TX_OVERHEAD_GAS
    GreedyRange withdrawals maxBatchGas ⟨start, filled.1, filled.2⟩ := by
  intro filled
  have hlt : start < filled.1 := lt_fillBatch maxBatchGas PROCESS_WITHDRAWAL_TX_OVERHEAD_GAS h
  have hempty : PROCESS_WITHDRAWAL_TX_OVERHEAD_GAS =
      min (batchGas ((withdrawals.drop start).take (start - start))) (2 ^ 64 - 1) := by
    rw [Nat.sub_self, take_zero]
    rfl
  obtain ⟨hgas, hover, hmaximal⟩ := fillBatch_greedy withdrawals maxBatchGas start start _ le_rfl
    hempty (fun _ => Nat.le_succ start) filled rfl
  refine ⟨hgas, ?_, ?_, hmaximal⟩
  · intro hbound
    have hle := batchGas_le ((withdrawals.drop start).take (filled.1 - start))
    have htake : ((withdrawals.drop start).take (filled.1 - start)).length ≤ filled.1 - start :=
      length_take_le _ _
    have hdrop : ((withdrawals.drop start).take (filled.1 - start)).length ≤ withdrawals.length := by
      rw [length_take, length_drop]
      omega
    change filled.2 = batchGas ((withdrawals.drop start).take (filled.1 - start))
    -- a saturated sum is over every smaller budget, and one withdrawal does not saturate it
    rcases hbound with hbudget | hlength
    · by_cases hsingle : filled.1 ≤ start + 1
      · omega
      · have hunder : ¬ maxBatchGas < filled.2 := fun h => hsingle (hover h)
        omega
    · omega
  intro h
  have hstop : filled.1 ≤ start + 1 := hover h
  exact Nat.le_antisymm hstop hlt

theorem buildBatchesFrom_tiles (withdrawals : List (Withdrawal W)) (maxBatchGas start : ℕ)
    (hle : start ≤ withdrawals.length) :
    Tiles start withdrawals.length (buildBatchesFrom withdrawals maxBatchGas start) := by
  fun_induction buildBatchesFrom withdrawals maxBatchGas start with
  | case1 start h filled ih =>
    have hstop := (fillBatch_bounds withdrawals maxBatchGas start start
      PROCESS_WITHDRAWAL_TX_OVERHEAD_GAS hle).2
    have hlt : start < filled.1 := lt_fillBatch maxBatchGas PROCESS_WITHDRAWAL_TX_OVERHEAD_GAS h
    exact .range (b := ⟨start, filled.1, filled.2⟩) hlt (ih hstop)
  | case2 start h =>
    have hend : start = withdrawals.length := by omega
    subst hend
    exact .done _

theorem buildBatchesFrom_greedy (withdrawals : List (Withdrawal W)) (maxBatchGas start : ℕ) :
    ∀ b ∈ buildBatchesFrom withdrawals maxBatchGas start,
      GreedyRange withdrawals maxBatchGas b := by
  fun_induction buildBatchesFrom withdrawals maxBatchGas start with
  | case1 start h filled ih =>
    intro b hb
    rcases mem_cons.1 hb with rfl | hb
    · exact fillBatch_range maxBatchGas h
    · exact ih b hb
  | case2 start h => rintro b ⟨⟩

namespace Tiles

variable {first last : ℕ} {batches : List WithdrawalBatch}

section

variable (h : Tiles first last batches)
include h

theorem first_le : first ≤ last := by
  induction h with
  | done => exact le_rfl
  | range nonempty _ ih => exact nonempty.le.trans ih

theorem bounds {b : WithdrawalBatch} (hb : b ∈ batches) :
    first ≤ b.start ∧ b.start < b.stop ∧ b.stop ≤ last := by
  induction h with
  | done => cases hb
  | range nonempty tail ih =>
    rcases mem_cons.1 hb with rfl | hb
    · exact ⟨le_rfl, nonempty, tail.first_le⟩
    · obtain ⟨hfirst, hrest⟩ := ih hb
      exact ⟨nonempty.le.trans hfirst, hrest⟩

theorem start_eq {b : WithdrawalBatch} (hb : batches[0]? = some b) : b.start = first := by
  cases h with
  | done => cases hb
  | range =>
    cases hb
    rfl

theorem next {i : ℕ} {a b : WithdrawalBatch} (ha : batches[i]? = some a)
    (hb : batches[i + 1]? = some b) : a.stop = b.start := by
  induction h generalizing i with
  | done => cases ha
  | range _ tail ih =>
    cases i with
    | zero =>
      cases ha
      exact (tail.start_eq hb).symm
    | succ i => exact ih ha hb

theorem starts_lt {i j : ℕ} {a b : WithdrawalBatch} (hij : i < j) (ha : batches[i]? = some a)
    (hb : batches[j]? = some b) : a.start < b.start := by
  induction h generalizing i j with
  | done => cases ha
  | range nonempty tail ih =>
    cases j with
    | zero => exact absurd hij (Nat.not_lt_zero i)
    | succ j =>
      cases i with
      | zero =>
        cases ha
        exact nonempty.trans_le (tail.bounds (mem_of_getElem? hb)).1
      | succ i => exact ih (Nat.lt_of_succ_lt_succ hij) ha hb

theorem flatten_items {withdrawals : List (Withdrawal W)} (hlast : last = withdrawals.length) :
    (batches.map (·.items withdrawals)).flatten = withdrawals.drop first := by
  induction h with
  | done n => exact (drop_eq_nil_of_le (le_of_eq hlast.symm)).symm
  | @range b last rest nonempty tail ih =>
    rw [map_cons, flatten_cons, ih hlast, items_append_drop withdrawals nonempty.le]

end

end Tiles

/-! ## The submission loop -/

variable [EvmWord W] [DecidableEq W]

inductive Fate
  | confirmed
  | reverted
  | lost
  deriving DecidableEq

inductive SubmitOutcome
  | confirmed
  | retry
  | cancelled
  deriving DecidableEq

/-- The loop of `submit_and_confirm_batches` and the portal. `fates` lists the transactions whose
nonce is used, `inFlight` the submitted ones without a receipt. -/
structure Pipeline (W : Type) where
  l1 : L1 W
  fates : List Fate
  submitted : ℕ
  inFlight : List ℕ
  retry : Bool
  cancelled : Bool

def Pipeline.start (m₀ : L1 W) : Pipeline W := ⟨m₀, [], 0, [], false, false⟩

/-- Result of the loop once nothing is in flight and nothing more is submitted. -/
def Pipeline.outcome (plan : List (PlannedCall W)) (σ : Pipeline W) : Option SubmitOutcome :=
  if ¬ σ.inFlight.isEmpty then none
  else if σ.retry then some .retry
  else if σ.submitted < plan.length then if σ.cancelled then some .cancelled else none
  else some .confirmed

theorem Pipeline.outcome_confirmed {plan : List (PlannedCall W)} (σ : Pipeline W)
    (h : σ.outcome plan = some .confirmed) :
    σ.inFlight = [] ∧ σ.retry = false ∧ plan.length ≤ σ.submitted := by
  unfold Pipeline.outcome at h
  by_cases hdrained : σ.inFlight.isEmpty
  · rw [if_neg (not_not.2 hdrained)] at h
    cases hretry : σ.retry with
    | true =>
      rw [hretry] at h
      cases h
    | false =>
      refine ⟨isEmpty_iff.1 hdrained, rfl, ?_⟩
      by_contra hmore
      rw [hretry, if_neg Bool.false_ne_true, if_pos (Nat.lt_of_not_le hmore)] at h
      split at h <;> cases h
  · rw [if_pos hdrained] at h
    cases h

inductive Pipeline.Step (plan : List (PlannedCall W)) (maxInFlight : ℕ) (σ : Pipeline W) :
    Pipeline W → Prop
  | submit (going : σ.retry = false) (running : σ.cancelled = false)
      (room : σ.inFlight.length < maxInFlight) (more : σ.submitted < plan.length) :
      Step plan maxInFlight σ
        { σ with submitted := σ.submitted + 1, inFlight := σ.inFlight ++ [σ.submitted] }
  | cancel : Step plan maxInFlight σ { σ with cancelled := true }
  -- transactions of other accounts, which do not process withdrawals
  | call {m' : L1 W} {ctx : CallCtx W} {sender : Address} {c : Call W}
      (outside : sender ≠ ctx.ext.self) (run : exec ctx sender σ.l1 c = .ok m') :
      Step plan maxInFlight σ { σ with l1 := m' }
  | outside {m' : L1 W} {ctx : CallCtx W} (move : Outside ctx σ.l1 m') :
      Step plan maxInFlight σ { σ with l1 := m' }
  -- the planned transaction with the next nonce
  | confirmed {planned : PlannedCall W} {m' : L1 W} {ctx : CallCtx W} {sender : Address}
      {replies : ℕ → Reply W} (sent : σ.fates.length < σ.submitted)
      (next : plan[σ.fates.length]? = some planned) (confined : ∀ i, Confined ctx (replies i))
      (run : σ.l1.processWithdrawals ctx sender planned.withdrawals planned.remainingQueue
        replies = .ok m') :
      Step plan maxInFlight σ { σ with l1 := m', fates := σ.fates ++ [.confirmed] }
  | failed {fate : Fate} (sent : σ.fates.length < σ.submitted) (failure : fate ≠ .confirmed) :
      Step plan maxInFlight σ { σ with fates := σ.fates ++ [fate] }
  -- receipts, in any order; an error says nothing about the fate of the transaction
  | receipt {i : ℕ} (waiting : i ∈ σ.inFlight) (success : σ.fates[i]? = some .confirmed) :
      Step plan maxInFlight σ { σ with inFlight := σ.inFlight.erase i }
  | failure {i : ℕ} (waiting : i ∈ σ.inFlight) :
      Step plan maxInFlight σ { σ with inFlight := σ.inFlight.erase i, retry := true }

/-- States of a cycle that starts at the portal state `m₀`. -/
inductive Pipeline.Run (plan : List (PlannedCall W)) (maxInFlight : ℕ) (m₀ : L1 W) :
    Pipeline W → Prop
  | start : Run plan maxInFlight m₀ (.start m₀)
  | step {σ σ' : Pipeline W} (before : Run plan maxInFlight m₀ σ)
      (next : Pipeline.Step plan maxInFlight σ σ') : Run plan maxInFlight m₀ σ'

def succeeded (fates : List Fate) : ℕ :=
  (fates.takeWhile (· = .confirmed)).length

/-- The transaction fails. If it gets past the checks on entry, it fails at the hash check of the
queue. -/
def RejectedByHash (m : L1 W) (planned : PlannedCall W) : Prop :=
  ∀ (ctx : CallCtx W) (sender : Address) (replies : ℕ → Reply W),
    ∃ error, m.processWithdrawals ctx sender planned.withdrawals planned.remainingQueue replies =
        .error error ∧
      ∀ e, m.enterProcessing ctx sender planned.withdrawals.length = .ok e →
        error = .invalidWithdrawalProof

theorem succeeded_failed (fates : List Fate) {fate : Fate} (h : fate ≠ .confirmed) :
    succeeded (fates ++ [fate]) = succeeded fates := by
  unfold succeeded
  rw [takeWhile_append]
  split
  · next hall => rw [takeWhile_cons_of_neg (by simpa using h), append_nil, hall]
  · rfl

theorem succeeded_confirmed {fates : List Fate} (h : succeeded fates = fates.length) :
    succeeded (fates ++ [.confirmed]) = fates.length + 1 := by
  unfold succeeded at h ⊢
  rw [takeWhile_append, if_pos h]
  exact length_append

/-! ## One transaction against the front slot -/

section Front

variable {m m' : L1 W} {ctx : CallCtx W} {sender : Address} {ws rest : List (Withdrawal W)}
  {remainingQueue : W} {replies : ℕ → Reply W}

theorem processWithdrawals_rejected (hws : ws ≠ [])
    (hslot : suffixChain hashWithTail remainingQueue ws ≠
      m.portal.withdrawalQueue.slots m.portal.withdrawalQueue.head) :
    ∃ error, m.processWithdrawals ctx sender ws remainingQueue replies = .error error ∧
      ∀ e, m.enterProcessing ctx sender ws.length = .ok e → error = .invalidWithdrawalProof := by
  cases henter : m.enterProcessing ctx sender ws.length with
  | error error =>
    refine ⟨error, ?_, nofun⟩
    rw [L1.processWithdrawals, henter]
    rfl
  | ok e =>
    obtain ⟨-, -, -, -, -, rfl⟩ := enterProcessing_ok henter
    refine ⟨.invalidWithdrawalProof, ?_, fun _ _ => rfl⟩
    cases ws with
    | nil => exact absurd rfl hws
    | cons w ws =>
      have hdequeue : (m.setStatus .processing).portal.withdrawalQueue.dequeue w
          (suffixChain hashWithTail remainingQueue ws) = .error .invalidWithdrawalProof :=
        require_bind_error_iff.2 (.inl ⟨hslot, rfl⟩)
      have hfirst : (m.setStatus .processing).processWithdrawal ctx (replies 0) w
          (suffixChain hashWithTail remainingQueue ws) = .error .invalidWithdrawalProof := by
        rw [L1.processWithdrawal, L1.dequeueWithdrawal, hdequeue]
        rfl
      rw [L1.processWithdrawals, henter, remainingQueues_cons]
      change ((L1.processWithdrawal _ _ _ _ _ >>= _) >>= _) = _
      rw [hfirst]
      rfl

/-- A transaction that succeeds lists the front of the first batch and gives the hash of the rest,
which is then at the front. -/
theorem processWithdrawals_front (hc : CollisionFree W) (confined : ∀ i, Confined ctx (replies i))
    (init : m.portal.gov.initialized = true) (hws : ws ≠ [])
    (front : m.portal.withdrawalQueue.Front (queueHash rest))
    (h : m.processWithdrawals ctx sender ws remainingQueue replies = .ok m') :
    ∃ later, rest = ws ++ later ∧ remainingQueue = queueHash later ∧
      (later ≠ [] → m'.portal.withdrawalQueue.Front (queueHash later)) := by
  have hslot : suffixChain hashWithTail remainingQueue ws = queueHash rest := by
    by_contra hne
    rw [← front.2] at hne
    have hrejected := @processWithdrawals_rejected W _ _ m ctx sender ws remainingQueue replies hws hne
    obtain ⟨error, herror, -⟩ := hrejected
    rw [herror] at h
    cases h
  obtain ⟨later, hrest, hremaining⟩ := ((withdrawal_binding hc).suffixChain_eq_iff hws).1 hslot
  refine ⟨later, hrest, hremaining, ?_⟩
  intro hlater
  simp only [L1.processWithdrawals, ok_iff] at h
  obtain ⟨e, henter, p, hloop, rfl⟩ := h
  obtain ⟨-, -, -, -, -, rfl⟩ := enterProcessing_ok henter
  have hne : remainingQueue ≠ 0 := by
    rw [hremaining]
    exact fun h => hlater ((withdrawal_binding hc).suffixChain_eq_sentinel.1 h)
  have hsplit : (remainingQueues ws remainingQueue).1 = (remainingQueues ws remainingQueue).1 ++ [] :=
    (append_nil _).symm
  rw [← hslot] at front
  have hfront := processLoop_front (s := m.setStatus .processing) hc confined (fun _ => hne) init rfl
    hsplit front hloop
  rw [hremaining] at hfront
  exact hfront

variable {b : WithdrawalBatch}

theorem call_chain (remaining : List (Withdrawal W)) (hle : b.start ≤ b.stop) :
    suffixChain hashWithTail (b.call remaining).remainingQueue
      (b.call remaining).withdrawals = queueHash (remaining.drop b.start) := by
  unfold queueHash
  rw [← items_append_drop remaining hle, suffixChain_append]
  rfl

theorem items_ne_nil {remaining : List (Withdrawal W)} (hlt : b.start < b.stop)
    (hstop : b.stop ≤ remaining.length) : (b.call remaining).withdrawals ≠ [] := by
  intro hnil
  have hlength := congrArg length hnil
  change ((remaining.drop b.start).take (b.stop - b.start)).length = 0 at hlength
  rw [length_take, length_drop] at hlength
  omega

theorem call_rejected (hc : CollisionFree W) {remaining : List (Withdrawal W)} {n : ℕ}
    (front : m.portal.withdrawalQueue.Front (queueHash (remaining.drop n)))
    (hn : n < remaining.length) (hlt : b.start < b.stop) (hstop : b.stop ≤ remaining.length)
    (hne : n ≠ b.start) : RejectedByHash m (b.call remaining) := by
  intro ctx sender replies
  apply processWithdrawals_rejected (items_ne_nil hlt hstop)
  rw [call_chain remaining hlt.le, front.2]
  intro heq
  have hdrop := congrArg length ((withdrawal_binding hc).suffixChain_injective heq)
  rw [length_drop, length_drop] at hdrop
  omega

end Front

/-! ## Cycles -/

section Cycles

variable {remaining : List (Withdrawal W)} {batches : List WithdrawalBatch} {m₀ : L1 W}
  {σ σ' : Pipeline W} {last maxInFlight : ℕ}

/-- What every state of a cycle satisfies: exactly the first transactions were confirmed, their ranges
were dequeued, and the next range is at the front of the queue. -/
structure Pipeline.Invariant (remaining : List (Withdrawal W)) (batches : List WithdrawalBatch)
    (m₀ : L1 W) (σ : Pipeline W) : Prop where
  initialized : σ.l1.portal.gov.initialized = true
  sent : σ.fates.length ≤ σ.submitted
  within : σ.submitted ≤ batches.length
  stopped : ∀ i, succeeded σ.fates ≤ i → σ.fates[i]? ≠ some .confirmed
  dequeued : σ.l1.history.dequeued =
    m₀.history.dequeued ++ (batches.take (succeeded σ.fates)).flatMap (·.items remaining)
  front : ∀ b, batches[succeeded σ.fates]? = some b →
    σ.l1.portal.withdrawalQueue.Front (queueHash (remaining.drop b.start))
  receipts : σ.retry = false → ∀ i, i < σ.submitted → i ∉ σ.inFlight →
    σ.fates[i]? = some .confirmed

theorem Pipeline.Invariant.rejected (hc : CollisionFree W) (tiles : Tiles 0 last batches)
    (hlast : last ≤ remaining.length) (inv : Pipeline.Invariant remaining batches m₀ σ) {j : ℕ}
    (hj : succeeded σ.fates < j) {b : WithdrawalBatch} (hb : batches[j]? = some b) :
    RejectedByHash σ.l1 (b.call remaining) := by
  have hbounds := tiles.bounds (mem_of_getElem? hb)
  have hindex : succeeded σ.fates < batches.length := by
    have hlength := (List.getElem?_eq_some_iff.1 hb).1
    omega
  have hfirst := List.getElem?_eq_getElem hindex
  have hlt := tiles.starts_lt hj hfirst hb
  exact call_rejected hc (inv.front _ hfirst) (by omega) hbounds.2.1 (by omega) (Nat.ne_of_lt hlt)

theorem Pipeline.Step.invariant (hc : CollisionFree W) (tiles : Tiles 0 last batches)
    (hlast : last ≤ remaining.length) (inv : Pipeline.Invariant remaining batches m₀ σ)
    (h : Pipeline.Step (batches.map (·.call remaining)) maxInFlight σ σ') :
    Pipeline.Invariant remaining batches m₀ σ' := by
  obtain ⟨hinit, hsent, hwithin, hstopped, hdequeued, hfront, hreceipts⟩ := inv
  cases h with
  | submit _ _ _ more =>
    rw [length_map] at more
    refine ⟨hinit, Nat.le_succ_of_le hsent, more, hstopped, hdequeued, hfront, ?_⟩
    intro hretry i hi hwaiting
    rw [mem_append, mem_singleton, not_or] at hwaiting
    exact hreceipts hretry i (by change i < σ.submitted + 1 at hi; omega) hwaiting.1
  | cancel => exact ⟨hinit, hsent, hwithin, hstopped, hdequeued, hfront, hreceipts⟩
  | call outside run =>
    have hstep := exec_step hinit outside run
    have hpath : MicroPath _ _ _ := .single (.call hstep)
    obtain ⟨hext, hsame⟩ := hstep.queue_extends
    exact ⟨hpath.initialized_eq.trans hinit, hsent, hwithin, hstopped, hsame.trans hdequeued,
      fun b hb => (hfront b hb).extends hext, hreceipts⟩
  | outside move =>
    refine ⟨?_, hsent, hwithin, hstopped, move.dequeued_eq.trans hdequeued, ?_, hreceipts⟩
    · rw [move.portal_eq]
      exact hinit
    intro b hb
    rw [move.portal_eq]
    exact hfront b hb
  | confirmed sent next confined run =>
    rw [getElem?_map, Option.map_eq_some_iff] at next
    obtain ⟨b, hb, rfl⟩ := next
    have hbounds := tiles.bounds (mem_of_getElem? hb)
    -- the transaction passed the hash check, so none before it failed
    have hall : succeeded σ.fates = σ.fates.length := by
      by_contra hne
      have hfailed := Nat.lt_of_le_of_ne (takeWhile_sublist _).length_le hne
      have inv : Pipeline.Invariant remaining batches m₀ σ :=
        ⟨hinit, hsent, hwithin, hstopped, hdequeued, hfront, hreceipts⟩
      obtain ⟨error, herror, -⟩ := inv.rejected hc tiles hlast hfailed hb _ _ _
      rw [herror] at run
      cases run
    rw [hall] at hdequeued hfront
    obtain ⟨later, hlater, -, hnext⟩ := processWithdrawals_front hc confined hinit
      (items_ne_nil hbounds.2.1 (by omega)) (hfront b hb) run
    obtain ⟨hpath, -⟩ := processWithdrawals_micro (fun h => (confined _ h).traced) hinit run
    refine ⟨hpath.initialized_eq.trans hinit, ?_, hwithin, ?_, ?_, ?_, ?_⟩
    · rw [length_append]
      exact sent
    · intro i hi
      rw [succeeded_confirmed hall] at hi
      rw [getElem?_eq_none (by rw [length_append]; exact hi)]
      exact nofun
    · rw [succeeded_confirmed hall, processWithdrawals_dequeued confined hinit run, hdequeued,
        take_add_one, hb, flatMap_append, append_assoc]
      change _ ++ (_ ++ _) = _ ++ (_ ++ [b].flatMap _)
      rw [flatMap_singleton]
      rfl
    · intro b' hb'
      rw [succeeded_confirmed hall] at hb'
      have hstart := tiles.next hb hb'
      have hbounds' := tiles.bounds (mem_of_getElem? hb')
      have hrest : later = remaining.drop b'.start := by
        rw [← hstart]
        rw [← items_append_drop remaining hbounds.2.1.le] at hlater
        exact (append_cancel_left hlater).symm
      rw [← hrest]
      refine hnext ?_
      rw [hrest]
      intro hnil
      have hlength := congrArg length hnil
      rw [length_drop, length_nil] at hlength
      omega
    intro hretry i hi hwaiting
    have hsome := hreceipts hretry i hi hwaiting
    rw [List.getElem?_append_left (List.getElem?_eq_some_iff.1 hsome).1]
    exact hsome
  | @failed fate sent failure =>
    rw [← succeeded_failed σ.fates failure] at hstopped hdequeued hfront
    refine ⟨hinit, ?_, hwithin, ?_, hdequeued, hfront, ?_⟩
    · rw [length_append]
      exact sent
    · intro i hi hconfirmed
      rcases lt_trichotomy i σ.fates.length with hlt | rfl | hgt
      · rw [getElem?_append_left hlt] at hconfirmed
        exact hstopped i hi hconfirmed
      · rw [getElem?_concat_length, Option.some.injEq] at hconfirmed
        exact failure hconfirmed
      · rw [getElem?_eq_none (by rw [length_append]; exact hgt)] at hconfirmed
        cases hconfirmed
    intro hretry i hi hwaiting
    have hsome := hreceipts hretry i hi hwaiting
    rw [List.getElem?_append_left (List.getElem?_eq_some_iff.1 hsome).1]
    exact hsome
  | @receipt j waiting success =>
    refine ⟨hinit, hsent, hwithin, hstopped, hdequeued, hfront, ?_⟩
    intro hretry i hi hwaiting
    by_cases hij : i = j
    · subst hij
      exact success
    · exact hreceipts hretry i hi fun h => hwaiting ((mem_erase_of_ne hij).2 h)
  | failure waiting => exact ⟨hinit, hsent, hwithin, hstopped, hdequeued, hfront, nofun⟩

theorem Pipeline.Run.invariant (hc : CollisionFree W) (tiles : Tiles 0 last batches)
    (hlast : last ≤ remaining.length) (init : m₀.portal.gov.initialized = true)
    (front : m₀.portal.withdrawalQueue.Front (queueHash remaining))
    (h : Pipeline.Run (batches.map (·.call remaining)) maxInFlight m₀ σ) :
    Pipeline.Invariant remaining batches m₀ σ := by
  induction h with
  | start =>
    refine ⟨init, le_rfl, Nat.zero_le _, ?_, ?_, ?_, ?_⟩
    · exact nofun
    · exact (append_nil _).symm
    · intro b hb
      rw [tiles.start_eq hb, drop_zero]
      exact front
    · exact fun _ i hi => absurd hi (Nat.not_lt_zero i)
  | step _ next ih => exact next.invariant hc tiles hlast ih

end Cycles

/-- **Planning and submission keep the FIFO.** The planned ranges are consecutive, non-empty and
cover the list in order. A range is over the budget only with a single withdrawal, and has no room
for the next one. Let the rest of the head batch be at the front of the queue, and a prefix of it be
admitted. Whatever happens to the transactions, the withdrawals dequeued are those of the ranges
before the first failure. Each later transaction is rejected by the hash check. When the loop ends
with `SubmitOutcome::Confirmed`, exactly the admitted withdrawals were dequeued. -/
theorem withdrawal_submission_keeps_fifo (hc : CollisionFree W) :
    (∀ (withdrawals : List (Withdrawal W)) (maxBatchGas : ℕ),
      let batches := buildWithdrawalBatches withdrawals maxBatchGas
      Tiles 0 withdrawals.length batches ∧
        (batches.map (·.items withdrawals)).flatten = withdrawals ∧
        ∀ b ∈ batches, GreedyRange withdrawals maxBatchGas b) ∧
    ∀ (batch : List (Withdrawal W)) (offset admitted maxBatchGas maxInFlight : ℕ) (m₀ : L1 W)
      (σ : Pipeline W),
      let remaining := batch.drop offset
      let batches := buildWithdrawalBatches (remaining.take admitted) maxBatchGas
      let plan := batches.map (·.call remaining)
      let paid := (plan.take (succeeded σ.fates)).flatMap (·.withdrawals)
      m₀.portal.gov.initialized = true →
      m₀.portal.withdrawalQueue.Front (queueHash remaining) →
      Pipeline.Run plan maxInFlight m₀ σ →
        σ.l1.history.dequeued = m₀.history.dequeued ++ paid ∧
        paid <+: remaining.take admitted ∧
        (∀ i, succeeded σ.fates ≤ i → σ.fates[i]? ≠ some .confirmed) ∧
        (∀ j planned, succeeded σ.fates < j → plan[j]? = some planned →
          RejectedByHash σ.l1 planned) ∧
        ((∀ i < plan.length, σ.fates[i]? = some .confirmed) → paid = remaining.take admitted) ∧
        (σ.outcome plan = some .confirmed → paid = remaining.take admitted) := by
  constructor
  · intro withdrawals maxBatchGas batches
    have htiles := buildBatchesFrom_tiles withdrawals maxBatchGas 0 (Nat.zero_le _)
    exact ⟨htiles, htiles.flatten_items rfl, buildBatchesFrom_greedy withdrawals maxBatchGas 0⟩
  · intro batch offset admitted maxBatchGas maxInFlight m₀ σ remaining batches plan paid hinit hfront
      hrun
    have htiles : Tiles 0 (remaining.take admitted).length batches :=
      buildBatchesFrom_tiles (remaining.take admitted) maxBatchGas 0 (Nat.zero_le _)
    have hlast : (remaining.take admitted).length ≤ remaining.length := by
      rw [length_take]
      exact Nat.min_le_right _ _
    have inv := hrun.invariant hc htiles hlast hinit hfront
    have hpaid : paid = (batches.take (succeeded σ.fates)).flatMap (·.items remaining) := by
      change (plan.take _).flatMap _ = _
      rw [← map_take, flatMap_map]
      rfl
    have hplanned : plan.flatMap (·.withdrawals) = remaining.take admitted :=
      buildBatchesFrom_withdrawals remaining admitted maxBatchGas 0
    have hfull : (∀ i < plan.length, σ.fates[i]? = some .confirmed) →
        paid = remaining.take admitted := by
      intro hall
      -- a confirmed call beyond the successful prefix would contradict `inv.stopped`
      have hle : plan.length ≤ succeeded σ.fates := by
        by_contra hlt
        exact inv.stopped _ le_rfl (hall _ (Nat.lt_of_not_le hlt))
      rw [← hplanned, ← take_of_length_le hle]
    refine ⟨?_, ?_, inv.stopped, ?_, hfull, ?_⟩
    · rw [hpaid]
      exact inv.dequeued
    · refine ⟨(plan.drop (succeeded σ.fates)).flatMap (·.withdrawals), ?_⟩
      rw [← flatMap_append, take_append_drop, hplanned]
    · intro j planned hj hget
      rw [getElem?_map, Option.map_eq_some_iff] at hget
      obtain ⟨b, hb, rfl⟩ := hget
      exact inv.rejected hc htiles hlast hj hb
    · intro houtcome
      obtain ⟨hdrained, hretry, hall⟩ := σ.outcome_confirmed houtcome
      apply hfull
      intro i hi
      refine inv.receipts hretry i (hi.trans_le hall) ?_
      rw [hdrained]
      exact not_mem_nil

namespace Example

def drained (m : L1 Sym) : Pipeline Sym := ⟨m, [.confirmed], 1, [], false, false⟩

theorem submission_runs : ∃ m, Pipeline.Run plan 1 funded (drained m) := by
  have hconfined : Confined settleCtx reverting := nofun
  have hrun : ∃ m, funded.processWithdrawals settleCtx 1 [payout] (queueHash [])
      (fun _ => reverting) = .ok m := ⟨_, rfl⟩
  obtain ⟨m, hm⟩ := hrun
  have hsubmitted : Pipeline.Run plan 1 funded ⟨funded, [], 1, [0], false, false⟩ :=
    .step .start (.submit rfl rfl Nat.one_pos Nat.one_pos)
  have hmined : Pipeline.Run plan 1 funded ⟨m, [.confirmed], 1, [0], false, false⟩ :=
    .step hsubmitted (.confirmed Nat.one_pos rfl (fun _ => hconfined) hm)
  have hreceived : (0 : ℕ) ∈ [0] := mem_singleton.2 rfl
  have hreceipt : Pipeline.Step plan 1 ⟨m, [.confirmed], 1, [0], false, false⟩ (drained m) :=
    @Pipeline.Step.receipt Sym _ _ plan 1 ⟨m, [.confirmed], 1, [0], false, false⟩ 0 hreceived rfl
  exact ⟨m, .step hmined hreceipt⟩

end Example

open Example

/-- The example cycle dequeues the admitted withdrawal. -/
theorem withdrawal_submission_keeps_fifo_example :
    ∃ m, (drained m).outcome plan = some .confirmed ∧
      m.history.dequeued = [payout] := by
  obtain ⟨m, hrun⟩ := submission_runs
  have hplan : plan = (buildWithdrawalBatches (([payout].drop 0).take 1)
      10000000).map (·.call [payout]) := by
    have htake : ([payout].drop 0).take 1 = [payout] := rfl
    rw [htake, batches_built]
    rfl
  have hfront : funded.portal.withdrawalQueue.Front
      (queueHash ([payout].drop 0)) := ⟨Nat.one_pos, rfl⟩
  have houtcome : (drained m).outcome plan = some .confirmed := rfl
  refine ⟨m, houtcome, ?_⟩
  rw [hplan] at hrun houtcome
  obtain ⟨hdequeued, -, -, -, -, hpaid⟩ := (withdrawal_submission_keeps_fifo Sym.collisionFree).2
    [payout] 0 1 10000000 1 funded (drained m) rfl hfront hrun
  rw [hpaid houtcome] at hdequeued
  exact hdequeued

end TempoZones
