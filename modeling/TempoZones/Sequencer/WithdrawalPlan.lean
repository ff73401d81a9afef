import TempoZones.Portal.Reserve

/-!
# The withdrawal processor's plan

The withdrawal processor admits at most as many withdrawals as fit under the cap and at most
`WITHDRAWAL_BOUNCEBACK_RESERVE`, splits them by gas into `processWithdrawals` transactions
(`planCycle`), and submits these with consecutive nonces. Until they are mined, anyone may deposit
and batches may settle (`Cycle`). The outstanding entries stay within the larger of the snapshot and
the public limit, plus one per withdrawal processed.
-/

namespace TempoZones

open Lib List

variable {W : Type} {lastProcessedDepositNumber : ℕ}

/-! ## Gas batching -/

def PROCESS_WITHDRAWAL_TX_OVERHEAD_GAS : ℕ := 500000
def PROCESS_SIMPLE_WITHDRAWAL_ITEM_OVERHEAD_GAS : ℕ := 1000000
def PROCESS_CALLBACK_WITHDRAWAL_ITEM_OVERHEAD_GAS : ℕ := 1750000
def PROCESS_DEPOSIT_BOUNCEBACK_ITEM_OVERHEAD_GAS : ℕ := 1250000
def WITHDRAWAL_BOUNCEBACK_RESERVE : ℕ := 20

def processWithdrawalItemGas (callbackGasLimit fallbackNonce : ℕ) : ℕ :=
  if fallbackNonce = 0 then PROCESS_DEPOSIT_BOUNCEBACK_ITEM_OVERHEAD_GAS
  else if callbackGasLimit = 0 then PROCESS_SIMPLE_WITHDRAWAL_ITEM_OVERHEAD_GAS
  else PROCESS_CALLBACK_WITHDRAWAL_ITEM_OVERHEAD_GAS +
    if callbackGasLimit > MAX_WITHDRAWAL_GAS_LIMIT then MAX_WITHDRAWAL_GAS_LIMIT
    else callbackGasLimit

/-- One transaction of the plan: the withdrawals from `start` up to `stop`, the source's `end`. -/
structure WithdrawalBatch where
  start : ℕ
  stop : ℕ
  gasLimit : ℕ
  deriving DecidableEq

/-- Inner loop of `build_withdrawal_batches`: extend the batch from `start` while it is empty or the
next withdrawal fits into the budget. -/
def fillBatch (withdrawals : List (Withdrawal W)) (maxBatchGas start stop gasLimit : ℕ) : ℕ × ℕ :=
  if h : stop < withdrawals.length then
    let nextGas := saturatingAdd gasLimit (processWithdrawalItemGas
      (withdrawals.get ⟨stop, h⟩).gasLimit (withdrawals.get ⟨stop, h⟩).fallbackNonce)
    if stop > start ∧ nextGas > maxBatchGas then (stop, gasLimit)
    else fillBatch withdrawals maxBatchGas start (stop + 1) nextGas
  else (stop, gasLimit)
  termination_by withdrawals.length - stop

theorem fillBatch_bounds (withdrawals : List (Withdrawal W)) (maxBatchGas start stop gasLimit : ℕ)
    (hle : stop ≤ withdrawals.length) :
    stop ≤ (fillBatch withdrawals maxBatchGas start stop gasLimit).1 ∧
      (fillBatch withdrawals maxBatchGas start stop gasLimit).1 ≤ withdrawals.length := by
  fun_induction fillBatch withdrawals maxBatchGas start stop gasLimit with
  | case1 => exact ⟨le_rfl, hle⟩
  | case2 stop _ h _ _ ih =>
    obtain ⟨hstop, hlength⟩ := ih h
    exact ⟨(Nat.le_succ stop).trans hstop, hlength⟩
  | case3 => exact ⟨le_rfl, hle⟩

theorem lt_fillBatch {withdrawals : List (Withdrawal W)} {start : ℕ} (maxBatchGas gasLimit : ℕ)
    (h : start < withdrawals.length) :
    start < (fillBatch withdrawals maxBatchGas start start gasLimit).1 := by
  rw [fillBatch, dif_pos h, if_neg (fun hfull => absurd hfull.1 (lt_irrefl start))]
  exact (fillBatch_bounds withdrawals maxBatchGas start (start + 1) _ h).1

/-- Outer loop of `build_withdrawal_batches`, from `start` on. -/
def buildBatchesFrom (withdrawals : List (Withdrawal W)) (maxBatchGas start : ℕ) :
    List WithdrawalBatch :=
  if start < withdrawals.length then
    let filled := fillBatch withdrawals maxBatchGas start start PROCESS_WITHDRAWAL_TX_OVERHEAD_GAS
    ⟨start, filled.1, filled.2⟩ :: buildBatchesFrom withdrawals maxBatchGas filled.1
  else []
  termination_by withdrawals.length - start
  decreasing_by
    have := lt_fillBatch maxBatchGas PROCESS_WITHDRAWAL_TX_OVERHEAD_GAS ‹start < withdrawals.length›
    omega

def buildWithdrawalBatches (withdrawals : List (Withdrawal W)) (maxBatchGas : ℕ) :
    List WithdrawalBatch :=
  buildBatchesFrom withdrawals maxBatchGas 0

/-! ## Planning -/

variable [EvmWord W] [DecidableEq W]

/-- `withdrawal_deposit_headroom`; `none` is the error for a cursor out of order. -/
def withdrawalDepositHeadroom (depositCount lastProcessedDepositNumber : ℕ) : Option ℕ :=
  if lastProcessedDepositNumber ≤ depositCount then
    some (MAX_UNPROCESSED_DEPOSITS - (depositCount - lastProcessedDepositNumber))
  else none

/-- Arguments and gas of a planned `processWithdrawals` transaction. -/
structure PlannedCall (W : Type) where
  withdrawals : List (Withdrawal W)
  remainingQueue : W
  gasLimit : ℕ

/-- Call that `submit_and_confirm_batches` makes for a batch. -/
def WithdrawalBatch.call (remaining : List (Withdrawal W)) (batch : WithdrawalBatch) :
    PlannedCall W where
  withdrawals := (remaining.drop batch.start).take (batch.stop - batch.start)
  remainingQueue := Withdrawal.queueHash (remaining.drop batch.stop)
  gasLimit := batch.gasLimit

def admittedCount (remaining : List (Withdrawal W)) (headroom : ℕ) : ℕ :=
  min (min remaining.length headroom) WITHDRAWAL_BOUNCEBACK_RESERVE

/-- Planning part of `process_queue`, from the deposit cursor it reads and the withdrawals that
remain in the head slot. -/
def planCycle (depositCount lastProcessedDepositNumber : ℕ) (remaining : List (Withdrawal W))
    (maxBatchGas : ℕ) : Option (List (PlannedCall W)) := do
  let headroom ← withdrawalDepositHeadroom depositCount lastProcessedDepositNumber
  if headroom = 0 then pure []
  else
    let admitted := admittedCount remaining headroom
    let batches := buildWithdrawalBatches (remaining.take admitted) maxBatchGas
    pure (batches.map (·.call remaining))

theorem buildBatchesFrom_withdrawals (remaining : List (Withdrawal W))
    (admitted maxBatchGas start : ℕ) :
    ((buildBatchesFrom (remaining.take admitted) maxBatchGas start).map
      (·.call remaining)).flatMap (·.withdrawals) = (remaining.take admitted).drop start := by
  fun_induction buildBatchesFrom (remaining.take admitted) maxBatchGas start with
  | case1 start h filled ih =>
    obtain ⟨hstart, hstop⟩ := fillBatch_bounds (remaining.take admitted) maxBatchGas start start
      PROCESS_WITHDRAWAL_TX_OVERHEAD_GAS h.le
    have hadmitted : filled.1 ≤ admitted := by
      have := length_take_le admitted remaining
      exact hstop.trans this
    -- the batch is a slice of the admitted prefix, followed by what the later batches cover
    have hslice : (remaining.drop start).take (filled.1 - start) =
        ((remaining.take admitted).drop start).take (filled.1 - start) := by
      rw [drop_take, take_take, Nat.min_eq_left (by omega)]
    rw [map_cons, flatMap_cons, ih]
    change (remaining.drop start).take (filled.1 - start) ++ _ = _
    have hdrop : (remaining.take admitted).drop filled.1 =
        ((remaining.take admitted).drop start).drop (filled.1 - start) := by
      rw [drop_drop, Nat.add_sub_cancel' hstart]
    rw [hslice, hdrop, take_append_drop]
  | case2 start h => exact (drop_eq_nil_of_le (Nat.le_of_not_lt h)).symm

theorem planCycle_withdrawals {depositCount maxBatchGas : ℕ} {remaining : List (Withdrawal W)}
    {plan : List (PlannedCall W)}
    (h : planCycle depositCount lastProcessedDepositNumber remaining maxBatchGas = some plan) :
    plan.flatMap (·.withdrawals) = remaining.take (admittedCount remaining
      (MAX_UNPROCESSED_DEPOSITS - (depositCount - lastProcessedDepositNumber))) := by
  simp only [planCycle, withdrawalDepositHeadroom, Option.bind_eq_bind, Option.bind_eq_some_iff,
    Option.ite_none_right_eq_some] at h
  obtain ⟨headroom, ⟨-, hheadroom⟩, h⟩ := h
  cases hheadroom
  split at h
  · next hzero =>
    cases h
    rw [hzero, admittedCount, Nat.min_zero, Nat.zero_min]
    rfl
  · cases h
    exact buildBatchesFrom_withdrawals _ _ _ 0

/-! ## Cycles -/

/-- Transactions from the snapshot `m₀` to `m`: calls of outside accounts, token movements, and the
planned calls in nonce order, which succeed or revert. `rest` lists those not mined yet. -/
inductive Cycle (plan : List (PlannedCall W)) (m₀ : L1 W) : List (PlannedCall W) → L1 W → Prop
  | start : Cycle plan m₀ plan m₀
  | call {rest : List (PlannedCall W)} {m m' : L1 W} {ctx : CallCtx W} {sender : Address}
      {c : Call W} (before : Cycle plan m₀ rest m) (outside : sender ≠ ctx.ext.self)
      (run : exec ctx sender m c = .ok m') : Cycle plan m₀ rest m'
  | outside {rest : List (PlannedCall W)} {m m' : L1 W} {ctx : CallCtx W}
      (before : Cycle plan m₀ rest m) (move : Outside ctx m m') : Cycle plan m₀ rest m'
  | confirmed {planned : PlannedCall W} {rest : List (PlannedCall W)} {m m' : L1 W}
      {ctx : CallCtx W} {sender : Address} {replies : ℕ → Reply W}
      (before : Cycle plan m₀ (planned :: rest) m) (confined : ∀ i, Confined ctx (replies i))
      (run : m.processWithdrawals ctx sender planned.withdrawals planned.remainingQueue replies =
        .ok m') : Cycle plan m₀ rest m'
  | reverted {planned : PlannedCall W} {rest : List (PlannedCall W)} {m : L1 W}
      {ctx : CallCtx W} {sender : Address} {replies : ℕ → Reply W} {error : Revert}
      (before : Cycle plan m₀ (planned :: rest) m)
      (run : m.processWithdrawals ctx sender planned.withdrawals planned.remainingQueue replies =
        .error error) : Cycle plan m₀ rest m

def processedSince (m₀ m : L1 W) : ℕ :=
  m.history.dequeued.length - m₀.history.dequeued.length

/-- `seen` is observed by outside code during a callback of the given `processWithdrawals` call. -/
def DuringCall (ctx : CallCtx W) (sender : Address) (planned : PlannedCall W)
    (replies : ℕ → Reply W) (m seen : L1 W) : Prop :=
  ∃ e done w after later p a, m.enterProcessing ctx sender planned.withdrawals.length = .ok e ∧
    (remainingQueues planned.withdrawals planned.remainingQueue).1 = done ++ (w, after) :: later ∧
    L1.processLoop ctx replies 0 done e = .ok p ∧
    CallbackEntry ctx (replies done.length) w after p a ∧ Sees ctx a seen

def plannedCount (calls : List (PlannedCall W)) : ℕ :=
  (calls.flatMap (·.withdrawals)).length

/-- What every state of a cycle satisfies. -/
structure Cycle.Invariant (plan : List (PlannedCall W)) (base start : ℕ)
    (rest : List (PlannedCall W)) (m : L1 W) : Prop where
  initialized : m.portal.gov.initialized = true
  reserve : Reserve base start m
  budget : m.history.dequeued.length + plannedCount rest ≤ start + plannedCount plan

theorem plannedCount_cons (planned : PlannedCall W) (rest : List (PlannedCall W)) :
    plannedCount (planned :: rest) = planned.withdrawals.length + plannedCount rest := by
  rw [plannedCount, flatMap_cons, length_append]
  rfl

theorem Cycle.invariant {plan rest : List (PlannedCall W)} {m₀ m : L1 W} {base start : ℕ}
    (hbase : publicLimit ≤ base) (h₀ : Cycle.Invariant plan base start plan m₀)
    (h : Cycle plan m₀ rest m) : Cycle.Invariant plan base start rest m := by
  induction h with
  | start => exact h₀
  | call _ outside run ih =>
    obtain ⟨hinit, hreserve, hbudget⟩ := ih
    have hstep := exec_step hinit outside run
    have hpath : MicroPath _ _ _ := .single (.call hstep)
    refine ⟨hpath.initialized_eq.trans hinit, hreserve.path hbase hpath, ?_⟩
    rw [hstep.queue_extends.2]
    exact hbudget
  | outside _ move ih =>
    obtain ⟨hinit, hreserve, hbudget⟩ := ih
    have hpath : MicroPath _ _ _ := .single (.outside move)
    refine ⟨hpath.initialized_eq.trans hinit, hreserve.path hbase hpath, ?_⟩
    rw [move.dequeued_eq]
    exact hbudget
  | @confirmed planned rest _ _ _ _ _ _ confined run ih =>
    obtain ⟨hinit, hreserve, hbudget⟩ := ih
    obtain ⟨hpath, -⟩ := processWithdrawals_micro (fun h => (confined _ h).traced) hinit run
    refine ⟨hpath.initialized_eq.trans hinit, hreserve.path hbase hpath, ?_⟩
    rw [processWithdrawals_dequeued confined hinit run, length_append]
    rw [plannedCount_cons] at hbudget
    omega
  | @reverted planned rest _ _ _ _ _ _ _ ih =>
    obtain ⟨hinit, hreserve, hbudget⟩ := ih
    refine ⟨hinit, hreserve, ?_⟩
    rw [plannedCount_cons] at hbudget
    omega

/-- States inside a callback of a planned call: the bound holds, and the withdrawals dequeued are
among those of the call. -/
theorem DuringCall.reserve {ctx : CallCtx W} {sender : Address} {planned : PlannedCall W}
    {replies : ℕ → Reply W} {m seen : L1 W} {base start : ℕ} (hbase : publicLimit ≤ base)
    (confined : ∀ i, Confined ctx (replies i)) (init : m.portal.gov.initialized = true)
    (hs : Reserve base start m) (h : DuringCall ctx sender planned replies m seen) :
    Reserve base start seen ∧
      seen.history.dequeued.length ≤ m.history.dequeued.length + planned.withdrawals.length := by
  obtain ⟨e, done, w, after, later, p, a, he, hsplit, hp, hentry, hsees⟩ := h
  obtain ⟨-, -, hstatus, -, -, rfl⟩ := enterProcessing_ok he
  obtain ⟨hloop, hend⟩ := processLoop_micro (s := m.setStatus .processing)
    (fun h => (confined _ h).traced) init rfl hp
  obtain ⟨hopen, havailable⟩ := hentry.opens hend
  have hpath : MicroPath ctx m a := (Relation.ReflTransGen.head (.enter hstatus) hloop).tail hopen
  have hinit := hpath.initialized_eq.trans init
  have hentered : a.status ≠ .notEntered := by
    rw [havailable]
    exact nofun
  have hcontrol := hsees.control hinit hentered
  refine ⟨(hs.path hbase hpath).path hbase (hcontrol.traced hinit).1, ?_⟩
  have hseen := (hcontrol.queue_extends hinit hentered).2
  have hopened : a.history.dequeued = p.history.dequeued ++ [w] := hentry.dequeued
  have hdone := processLoop_dequeued (s := m.setStatus .processing) confined init rfl hp
  have hdone' : p.history.dequeued.length = m.history.dequeued.length + done.length := by
    rw [hdone, length_append, length_map]
    rfl
  have hcount : planned.withdrawals.length = done.length + (later.length + 1) := by
    rw [← remainingQueues_fst planned.withdrawals planned.remainingQueue, hsplit, length_map,
      length_append, length_cons]
  have hone : [w].length = 1 := rfl
  rw [hseen, hopened, length_append]
  omega

section Run

variable {P : CallCtx W → Prop} {e : BlockEnv} {m₀ m : L1 W} {remaining : List (Withdrawal W)}
  {maxBatchGas : ℕ} {plan rest : List (PlannedCall W)}

theorem planCycle_count {depositCount : ℕ}
    (h : planCycle depositCount lastProcessedDepositNumber remaining maxBatchGas = some plan) :
    max (depositCount - lastProcessedDepositNumber) publicLimit + plannedCount plan ≤
      max (depositCount - lastProcessedDepositNumber) MAX_UNPROCESSED_DEPOSITS := by
  rw [plannedCount, planCycle_withdrawals h, length_take, admittedCount, publicLimit,
    show WITHDRAWAL_PROCESSING_DEPOSIT_RESERVE = WITHDRAWAL_BOUNCEBACK_RESERVE from rfl]
  have hreserve : WITHDRAWAL_BOUNCEBACK_RESERVE ≤ MAX_UNPROCESSED_DEPOSITS := by decide
  omega

/-- **A planned withdrawal cycle never runs out of deposit capacity.** Let the plan be built from a
snapshot `m₀` between transactions. After any interleaving of other calls with planned calls in
nonce order, the outstanding entries stay within the larger of the snapshot and the public limit,
plus one per withdrawal processed so far. Neither the next planned call nor a bounce-back or
reserved deposit in it stops for capacity, whatever its callbacks do. -/
theorem planned_cycle_within_capacity (snapshot : Reached P e m₀) (idle : m₀.status = .notEntered)
    (hplan : planCycle m₀.portal.deposits.depositCount
      m₀.portal.deposits.lastProcessedDepositNumber remaining maxBatchGas = some plan)
    (cycle : Cycle plan m₀ rest m) :
    m.portal.deposits.outstanding ≤
      max m₀.portal.deposits.outstanding publicLimit + processedSince m₀ m ∧
    ∀ planned later, rest = planned :: later →
      ∀ ctx sender replies, (∀ i, Confined ctx (replies i)) →
        m.portal.deposits.outstanding + planned.withdrawals.length ≤ MAX_UNPROCESSED_DEPOSITS ∧
        NeverFull (m.processWithdrawals ctx sender planned.withdrawals planned.remainingQueue
          replies) ∧
        ∀ seen, DuringCall ctx sender planned replies m seen →
          seen.portal.deposits.outstanding ≤
            max m₀.portal.deposits.outstanding publicLimit + processedSince m₀ seen ∧
          (seen.status = .callbackDepositAvailable → ∀ ts depositor args,
            NeverFull (seen.deposit ctx ts depositor args)) := by
  have hwithin := snapshot.withinCapacity
  have hout : m₀.portal.deposits.outstanding = m₀.portal.deposits.depositCount -
      m₀.portal.deposits.lastProcessedDepositNumber := rfl
  have hle := hwithin.le
  have hcap := hwithin.outstanding_le
  have hbase : publicLimit ≤ max m₀.portal.deposits.outstanding publicLimit := le_max_right _ _
  have hstart : Reserve (max m₀.portal.deposits.outstanding publicLimit)
      m₀.history.dequeued.length m₀ := by
    refine ⟨hle, le_rfl, ?_⟩
    rw [idle]
    change _ + 0 + _ ≤ _
    omega
  obtain ⟨hinit, hreserve, hbudget⟩ :=
    cycle.invariant hbase ⟨snapshot.initialized, hstart, le_rfl⟩
  have hcount := planCycle_count hplan
  -- the bound of a state in terms of the withdrawals processed since the snapshot
  have hbounded : ∀ {s : L1 W}, Reserve (max m₀.portal.deposits.outstanding publicLimit)
      m₀.history.dequeued.length s → s.portal.deposits.outstanding ≤
        max m₀.portal.deposits.outstanding publicLimit + processedSince m₀ s := by
    rintro s ⟨hle, hstarted, hbound⟩
    rw [processedSince, DepositCursor.outstanding]
    omega
  refine ⟨hbounded hreserve, ?_⟩
  rintro planned later rfl ctx sender replies confined
  rw [plannedCount_cons] at hbudget
  have hroom : max m₀.portal.deposits.outstanding publicLimit + m.history.dequeued.length +
      planned.withdrawals.length ≤ MAX_UNPROCESSED_DEPOSITS + m₀.history.dequeued.length := by
    omega
  refine ⟨?_, processWithdrawals_neverFull confined hbase hinit hreserve hroom, ?_⟩
  · have hm := hbounded hreserve
    have hstarted := hreserve.started
    rw [processedSince] at hm
    omega
  · intro seen hseen
    obtain ⟨hseen_reserve, hdequeued⟩ := hseen.reserve hbase confined hinit hreserve
    refine ⟨hbounded hseen_reserve, fun hstatus ts depositor args => ?_⟩
    refine deposit_neverFull args hstatus (hseen_reserve.outstanding_lt 0 ?_ ?_)
    · rw [hstatus]
      decide
    · omega

end Run

namespace Example

def plan : List (PlannedCall Sym) := [⟨[payout], Withdrawal.queueHash [], 1500000⟩]

theorem fillBatch_payout : fillBatch [payout] 10000000 0 0 500000 = (1, 1500000) := by
  have hlength : 0 < [payout].length := Nat.one_pos
  have hend : ¬ 0 + 1 < [payout].length := lt_irrefl 1
  have hgas : saturatingAdd 500000 (processWithdrawalItemGas 0 1) = 1500000 := by
    simp [saturatingAdd, processWithdrawalItemGas, PROCESS_SIMPLE_WITHDRAWAL_ITEM_OVERHEAD_GAS]
  rw [fillBatch, dif_pos hlength, if_neg (fun h => absurd h.1 (lt_irrefl 0)), fillBatch,
    dif_neg hend]
  exact congrArg (Prod.mk 1) hgas

theorem batches_built : buildWithdrawalBatches [payout] 10000000 = [⟨0, 1, 1500000⟩] := by
  have hlength : 0 < [payout].length := Nat.one_pos
  have hend : ¬ 1 < [payout].length := lt_irrefl 1
  have hnone : buildBatchesFrom [payout] 10000000 1 = [] := by rw [buildBatchesFrom, if_neg hend]
  rw [buildWithdrawalBatches, buildBatchesFrom, if_pos hlength, PROCESS_WITHDRAWAL_TX_OVERHEAD_GAS,
    fillBatch_payout]
  exact congrArg (WithdrawalBatch.mk 0 1 1500000 :: ·) hnone

theorem plan_built : planCycle settled.portal.deposits.depositCount
    settled.portal.deposits.lastProcessedDepositNumber [payout] 10000000 = some plan := by
  have htake : [payout].take (admittedCount [payout] 230) = [payout] := rfl
  change some ((buildWithdrawalBatches ([payout].take (admittedCount [payout] 230)) 10000000).map
    (·.call [payout])) = some plan
  rw [htake, batches_built]
  rfl

end Example

open Example

theorem planned_cycle_within_capacity_example :
    NeverFull (settled.processWithdrawals settleCtx 1 [payout]
      (Withdrawal.queueHash []) fun _ => reverting) := by
  have hconfined : Confined settleCtx reverting := nofun
  have hreached : Reached (fun _ => True) env settled :=
    settled_reached trivial trivial
  exact ((planned_cycle_within_capacity hreached rfl plan_built .start).2 _ _ rfl
    settleCtx 1 (fun _ => reverting) fun _ => hconfined).2.1

end TempoZones
