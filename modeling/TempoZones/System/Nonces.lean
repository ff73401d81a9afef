import TempoZones.Portal.Delivery
import TempoZones.System.Settlement

/-!
# Nonces of withdrawal requests

The zone numbers withdrawal requests from one and stores the fallback recipient of each under its
number (`Allocated`). A bounce-back entry of the portal carries token, amount and number of a
withdrawal that left the queue, hence of a request, and no two entries carry the same number
(`bounceBacks_sublist`).
-/

namespace TempoZones

open Lib List Function WithdrawalBounceBackDeposit

variable {W : Type} [EvmWord W] [DecidableEq W] {requests : List (RequestWithdrawal W)}
  {entries : List (QueueEntry W)}

/-! ## Requests and their withdrawals -/

def Withdrawal.key (w : Withdrawal W) : Address × ℕ × ℕ := (w.token, w.amount, w.fallbackNonce)

def PendingWithdrawal.key (p : PendingWithdrawal W) : Address × ℕ × ℕ :=
  (p.token, p.amount, p.fallbackNonce)

/-- Token, amount and nonce of a bounce-back entry, as the zone decodes it. -/
def WithdrawalBounceBackDeposit.key (d : WithdrawalBounceBackDeposit) : Address × ℕ × ℕ :=
  (d.token, d.amount, d.fallbackNonce)

/-- Keys that belong to user withdrawals: nonce zero marks the refund of a failed deposit. -/
def userKeys (keys : List (Address × ℕ × ℕ)) : List (Address × ℕ × ℕ) :=
  keys.filter fun key => key.2.2 ≠ 0

/-- Keys of the user withdrawals that the zone has finalized or holds pending, oldest first. -/
def Zone.userKeys (z : Zone W) : List (Address × ℕ × ℕ) :=
  TempoZones.userKeys ((z.history.batches.flatMap (·.withdrawals)).map Withdrawal.key ++
    z.outbox.pendingWithdrawals.map PendingWithdrawal.key)

def requestKeys (requests : List (RequestWithdrawal W)) : List (Address × ℕ × ℕ) :=
  requests.mapIdx fun i call => (call.token, call.amount, i + 1)

/-- Fallback recipient of the request with the given nonce, zero if there is none. -/
def recipientOf (requests : List (RequestWithdrawal W)) : ℕ → Address
  | 0 => 0
  | n + 1 => (requests[n]?).elim 0 (·.zoneFallbackRecipient)

def bounceBacks (entries : List (QueueEntry W)) : List WithdrawalBounceBackDeposit :=
  entries.filterMap fun
    | .bounceBack d => some d
    | .deposit _ => none

/-- Every request has its withdrawal, with its number as nonce, and its fallback recipient is stored
until the nonce is consumed. -/
structure Allocated (z : Zone W) : Prop where
  keys_eq : z.userKeys = requestKeys z.history.requests
  last_eq : z.outbox.lastFallbackNonce = z.history.requests.length
  last_lt : z.outbox.lastFallbackNonce < 2 ^ 64
  recipient_ne : ∀ call ∈ z.history.requests, call.zoneFallbackRecipient ≠ 0
  stored : ∀ n, z.outbox.fallbackRecipients n =
    if n ∈ z.history.consumed then 0 else recipientOf z.history.requests n
  consumed_eq : z.history.consumed = (bounceBacks z.history.processed).map (·.fallbackNonce)
  consumed_le : ∀ n ∈ z.history.consumed, n ≤ z.history.requests.length
  nodup : z.history.consumed.Nodup

theorem mem_requestKeys {key : Address × ℕ × ℕ} :
    key ∈ requestKeys requests ↔ ∃ i call, requests[i]? = some call ∧
      key = (call.token, call.amount, i + 1) := by
  rw [mem_iff_getElem?]
  simp only [requestKeys, List.getElem?_mapIdx, Option.map_eq_some_iff]
  exact ⟨fun ⟨i, call, h, heq⟩ => ⟨i, call, h, heq.symm⟩, fun ⟨i, call, h, heq⟩ =>
    ⟨i, call, h, heq.symm⟩⟩

theorem requestKeys_nonces (requests : List (RequestWithdrawal W)) :
    (requestKeys requests).map (·.2.2) = List.range' 1 requests.length := by
  induction requests using List.reverseRecOn with
  | nil => rfl
  | append_singleton requests call ih =>
    rw [requestKeys, mapIdx_concat, map_append, length_append,
      length_singleton, List.range'_1_concat, ← ih, Nat.add_comm 1]
    rfl

theorem recipientOf_ne_zero {n : ℕ} (h : recipientOf requests n ≠ 0) :
    n ≠ 0 ∧ n ≤ requests.length := by
  cases n with
  | zero => exact absurd rfl h
  | succ n =>
    refine ⟨Nat.succ_ne_zero n, ?_⟩
    by_contra hlt
    have hnone : requests[n]? = none := List.getElem?_eq_none (by omega)
    exact h (by rw [recipientOf, hnone]; rfl)

theorem recipientOf_concat (requests : List (RequestWithdrawal W)) (call : RequestWithdrawal W)
    (n : ℕ) : recipientOf (requests ++ [call]) n =
      if n = requests.length + 1 then call.zoneFallbackRecipient else recipientOf requests n := by
  cases n with
  | zero => rw [if_neg (by omega)]; rfl
  | succ n =>
    rw [recipientOf, recipientOf, List.getElem?_append]
    rcases lt_trichotomy n requests.length with hlt | rfl | hgt
    · rw [if_pos hlt, if_neg (by omega)]
    · rw [if_neg (by omega), if_pos rfl, Nat.sub_self]
      rfl
    · rw [if_neg (by omega), if_neg (by omega), List.getElem?_eq_none (by simp; omega),
        List.getElem?_eq_none hgt.le]

theorem bounceBacks_append (a b : List (QueueEntry W)) :
    bounceBacks (a ++ b) = bounceBacks a ++ bounceBacks b :=
  filterMap_append

theorem userKeys_append (a b : List (Address × ℕ × ℕ)) :
    userKeys (a ++ b) = userKeys a ++ userKeys b :=
  filter_append ..

/-! ## Zone steps -/

section Zone

variable {zctx : ZoneCtx W} {z z' : Zone W} {e : QueueEntry W}

section

variable (hz : Allocated z)
include hz

theorem Allocated.of_eq (pending : z'.outbox.pendingWithdrawals = z.outbox.pendingWithdrawals)
    (last : z'.outbox.lastFallbackNonce = z.outbox.lastFallbackNonce)
    (recipients : z'.outbox.fallbackRecipients = z.outbox.fallbackRecipients)
    (batches : z'.history.batches = z.history.batches)
    (requests : z'.history.requests = z.history.requests)
    (consumed : z'.history.consumed = z.history.consumed)
    (processed : bounceBacks z'.history.processed = bounceBacks z.history.processed) :
    Allocated z' := by
  have hkeys : z'.userKeys = z.userKeys := by rw [Zone.userKeys, batches, pending]; rfl
  constructor
  · rw [hkeys, requests, hz.keys_eq]
  · rw [last, requests, hz.last_eq]
  · rw [last]
    exact hz.last_lt
  · rw [requests]
    exact hz.recipient_ne
  · rw [recipients, consumed, requests]
    exact hz.stored
  · rw [consumed, processed, hz.consumed_eq]
  · rw [consumed, requests]
    exact hz.consumed_le
  · rw [consumed]
    exact hz.nodup

theorem Allocated.of_stored {n : ℕ} (h : z.outbox.fallbackRecipients n ≠ 0) :
    n ∉ z.history.consumed ∧ n ≤ z.history.requests.length := by
  have hstored := hz.stored n
  by_cases hn : n ∈ z.history.consumed
  · rw [if_pos hn] at hstored
    exact absurd hstored h
  rw [if_neg hn] at hstored
  rw [hstored] at h
  exact ⟨hn, (recipientOf_ne_zero h).2⟩

theorem Allocated.consumed {d : WithdrawalBounceBackDeposit}
    (recipient : z.outbox.fallbackRecipients d.fallbackNonce ≠ 0) :
    Allocated ((z.consumed d.fallbackNonce).record (.bounceBack d)) := by
  obtain ⟨hfresh, hle⟩ := hz.of_stored recipient
  refine ⟨hz.keys_eq, hz.last_eq, hz.last_lt, hz.recipient_ne, ?_, ?_, ?_, ?_⟩
  · intro n
    show update z.outbox.fallbackRecipients d.fallbackNonce 0 n =
      if n ∈ z.history.consumed ++ [d.fallbackNonce] then 0 else recipientOf z.history.requests n
    by_cases hn : n = d.fallbackNonce
    · subst hn
      rw [update_self, if_pos (by simp)]
    · rw [update_of_ne hn, hz.stored n]
      simp only [mem_append, mem_singleton, hn, or_false]
  · show z.history.consumed ++ [_] = (bounceBacks (z.history.processed ++ [_])).map _
    rw [bounceBacks_append, map_append, hz.consumed_eq]
    rfl
  · intro n hn
    rcases mem_append.1 hn with hn | hn
    · exact hz.consumed_le n hn
    · rw [mem_singleton.1 hn]
      exact hle
  · exact nodup_append.2 ⟨hz.nodup, nodup_singleton _, fun a ha b hb => by
      rw [mem_singleton.1 hb]
      rintro rfl
      exact hfresh ha⟩

theorem Allocated.refunding (d : Deposit W) : Allocated ((z.refunding d).record (.deposit d)) := by
  have hkeys : ((z.refunding d).record (.deposit d)).userKeys = z.userKeys := by
    show TempoZones.userKeys (_ ++ (z.outbox.pendingWithdrawals ++ [_]).map _) = _
    rw [map_append, ← append_assoc, userKeys_append]
    exact append_nil _
  refine { hz with keys_eq := hkeys.trans hz.keys_eq, consumed_eq := ?_ }
  show z.history.consumed = (bounceBacks (z.history.processed ++ [_])).map _
  rw [bounceBacks_append, hz.consumed_eq]
  exact congrArg _ (append_nil _).symm

end

theorem EntryStep.allocated (h : EntryStep z e z') (hz : Allocated z) : Allocated z' := by
  cases h with
  | @minted d log =>
    refine hz.of_eq rfl rfl rfl rfl rfl rfl ?_
    exact (bounceBacks_append _ _).trans (append_nil _)
  | @failed d log => exact (hz.refunding d).of_eq rfl rfl rfl rfl rfl rfl rfl
  | @returned d log recipient
  | @parked d log recipient => exact (hz.consumed recipient).of_eq rfl rfl rfl rfl rfl rfl rfl

theorem EntryPath.allocated (h : EntryPath entries z z') (hz : Allocated z) : Allocated z' := by
  induction h with
  | nil => exact hz
  | cons step _ ih => exact ih (step.allocated hz)

theorem Advanced.allocated {tokens : List EnabledToken} (h : Advanced zctx z entries tokens z')
    (hz : Allocated z) : Allocated z' := by
  cases h with
  | mk _ _ _ _ path _ _ =>
    have hpath := path.allocated (hz.of_eq rfl rfl rfl rfl rfl rfl rfl)
    exact hpath.of_eq rfl rfl rfl rfl rfl rfl rfl

theorem Allocated.requested (hz : Allocated z) {n m fee : ℕ} {caller : Address} {txHash : W}
    {call : RequestWithdrawal W} (recipient : call.zoneFallbackRecipient ≠ 0)
    (nonce_lt : z.outbox.lastFallbackNonce + 1 < 2 ^ 64) :
    Allocated (z.withRequest n m
      (.fromRequest caller txHash (z.outbox.lastFallbackNonce + 1) call) call fee) := by
  have hlast := hz.last_eq
  constructor
  · show TempoZones.userKeys (_ ++ (z.outbox.pendingWithdrawals ++ [_]).map _) =
      requestKeys (z.history.requests ++ [call])
    rw [map_append, ← append_assoc, userKeys_append, requestKeys, mapIdx_concat, ← hlast]
    exact congrArg (· ++ _) hz.keys_eq
  · show z.outbox.lastFallbackNonce + 1 = (z.history.requests ++ [call]).length
    rw [length_append, hlast]
    rfl
  · exact nonce_lt
  · intro c hc
    rcases mem_append.1 hc with hc | hc
    · exact hz.recipient_ne c hc
    · rw [mem_singleton.1 hc]
      exact recipient
  · intro k
    show update z.outbox.fallbackRecipients (z.outbox.lastFallbackNonce + 1)
      call.zoneFallbackRecipient k = if k ∈ z.history.consumed then 0 else
        recipientOf (z.history.requests ++ [call]) k
    rw [recipientOf_concat, hlast]
    by_cases hk : k = z.history.requests.length + 1
    · -- the new nonce is larger than every consumed one
      have hfresh : k ∉ z.history.consumed := fun hmem => by
        have := hz.consumed_le k hmem
        omega
      rw [if_neg hfresh, if_pos hk, hk, update_self]
    · rw [update_of_ne hk, hz.stored k, if_neg hk]
  · exact hz.consumed_eq
  · intro k hk
    show k ≤ (z.history.requests ++ [call]).length
    rw [length_append]
    exact (hz.consumed_le k hk).trans (Nat.le_add_right _ _)
  · exact hz.nodup

theorem forall₂_key {pending : List (PendingWithdrawal W)} {withdrawals : List (Withdrawal W)}
    (h : List.Forall₂ (fun p w => w.token = p.token ∧ w.amount = p.amount ∧
      w.fallbackNonce = p.fallbackNonce) pending withdrawals) :
    withdrawals.map Withdrawal.key = pending.map PendingWithdrawal.key := by
  rw [← forall₂_eq_eq_eq, forall₂_map_left_iff, forall₂_map_right_iff]
  refine h.flip.imp fun w p hkey => ?_
  rw [Withdrawal.key, hkey.1, hkey.2.1, hkey.2.2]
  rfl

theorem ZoneStep.allocated (h : ZoneStep zctx z z') (hz : Allocated z) : Allocated z' := by
  cases h with
  | advanced step => exact step.allocated hz
  | requested recipient nonce_lt _ => exact hz.requested recipient nonce_lt
  | @finalized block withdrawals _ listed =>
    refine { hz with keys_eq := ?_ }
    -- the batch holds the withdrawals that were pending
    refine Eq.trans ?_ hz.keys_eq
    rw [Zone.userKeys, Zone.userKeys, withBatch_withdrawals, map_append, forall₂_key listed]
    exact congrArg TempoZones.userKeys (append_nil _)
  | checkpoint | claimed | configured => exact hz.of_eq rfl rfl rfl rfl rfl rfl rfl

theorem allocated_genesis (tempo : TempoState W) (initialized : Address → Bool) :
    Allocated (.genesis tempo initialized) where
  keys_eq := rfl
  last_eq := rfl
  last_lt := Nat.two_pow_pos 64
  recipient_ne := nofun
  stored := by
    intro n
    cases n <;> rfl
  consumed_eq := rfl
  consumed_le := nofun
  nodup := nodup_nil

theorem Trace.allocated {π : Platform W} {σ : Sys W} (h : Trace π σ) : Allocated σ.zone :=
  h.zonewise allocated_genesis fun hz hstep => hstep.allocated hz

end Zone

/-! ## Bounce-backs of the portal -/

section Portal

variable {ctx : CallCtx W} {s s' : L1 W}

/-- Effects of a step on the bounce-back entries and on the withdrawals that left the queue. -/
inductive BounceStep (s s' : L1 W) : Prop
  | kept (entries : bounceBacks (queueEntries s'.logs) = bounceBacks (queueEntries s.logs))
      (dequeued : s.history.dequeued <+: s'.history.dequeued)
  | bounced {w : Withdrawal W} (nonce : w.fallbackNonce ≠ 0)
      (entries : bounceBacks (queueEntries s'.logs) =
        bounceBacks (queueEntries s.logs) ++ [w.bounceBack])
      (dequeued : s'.history.dequeued = s.history.dequeued ++ [w])

theorem CallStep.bounceBacks_eq (h : CallStep ctx s s') :
    bounceBacks (queueEntries s'.logs) = bounceBacks (queueEntries s.logs) := by
  cases h with
  | govern step
  | configure step =>
    refine congrArg bounceBacks ((queueEntries_append _ _).trans ?_)
    rw [step.quiet, append_nil]
  | deposit _ collected _ =>
    rw [← collected.frame.2.1]
    refine (congrArg bounceBacks (queueEntries_append _ _)).trans ?_
    exact (bounceBacks_append _ _).trans (append_nil _)
  | claimRefund _
  | submitBatch _ => exact congrArg bounceBacks (queueEntries_concat rfl _)

theorem CallStep.dequeued_eq (h : CallStep ctx s s') :
    s'.history.dequeued = s.history.dequeued := by
  cases h with
  | deposit _ collected _ => exact collected.frame.2.2.1
  | _ => rfl

theorem Micro.bounceStep (h : Micro ctx s s') : BounceStep s s' := by
  cases h with
  | call step => exact .kept step.bounceBacks_eq (step.dequeued_eq ▸ prefix_rfl)
  | withdraw _ _ disposed =>
    cases disposed with
    | refunded _ refund =>
      obtain ⟨-, ⟨log, hlogs, hquiet⟩, hdequeued, -⟩ := refund.frame
      refine .kept ?_ (hdequeued ▸ prefix_append _ _)
      rw [hlogs]
      exact congrArg bounceBacks (queueEntries_concat hquiet.entry _)
    | bounced nonce _ =>
      refine .bounced nonce ?_ rfl
      refine (congrArg bounceBacks (queueEntries_concat rfl _)).trans ?_
      refine (congrArg bounceBacks (queueEntries_append _ _)).trans ?_
      exact bounceBacks_append _ _
    | paid _ _ => exact .kept (congrArg bounceBacks (queueEntries_concat rfl _)) (prefix_append _ _)
    | opened _ _ _ => exact .kept rfl (prefix_append _ _)
  | closeCallback _ => exact .kept (congrArg bounceBacks (queueEntries_concat rfl _)) prefix_rfl
  | outside move =>
    exact .kept (congrArg (bounceBacks ∘ queueEntries) move.logs_eq) (move.dequeued_eq ▸ prefix_rfl)
  | _ => exact .kept rfl prefix_rfl

def userBounceBacks (ws : List (Withdrawal W)) : List WithdrawalBounceBackDeposit :=
  (ws.filter fun w => w.fallbackNonce ≠ 0).map Withdrawal.bounceBack

theorem userBounceBacks_sublist {a b : List (Withdrawal W)} (h : a <+: b) :
    (userBounceBacks a).Sublist (userBounceBacks b) :=
  (h.sublist.filter _).map _

/-- The bounce-back entries are made, in order, by user withdrawals that left the queue. -/
def Bounced (s : L1 W) : Prop :=
  (bounceBacks (queueEntries s.logs)).Sublist (userBounceBacks s.history.dequeued)

theorem Bounced.step (hs : Bounced s) (h : BounceStep s s') : Bounced s' := by
  cases h with
  | kept entries dequeued =>
    rw [Bounced, entries]
    exact List.Sublist.trans hs (userBounceBacks_sublist dequeued)
  | @bounced w nonce entries dequeued =>
    have hw : userBounceBacks s'.history.dequeued =
        userBounceBacks s.history.dequeued ++ [w.bounceBack] := by
      rw [dequeued, userBounceBacks, filter_append, map_append]
      simp [userBounceBacks, nonce]
    rw [Bounced, entries, hw]
    exact List.Sublist.append hs (List.Sublist.refl _)

theorem Trace.bounced {π : Platform W} {σ : Sys W} (h : Trace π σ) :
    Bounced σ.l1 ∧ ∀ s ∈ σ.blocks, Bounced s := by
  refine h.blockwise (fun ledger => nil_sublist _) ?_ fun _ hs hstep => hs.step hstep.bounceStep
  intro e args s hinit
  rw [Bounced, hinit.entries]
  exact nil_sublist _

theorem Withdrawal.bounceBack_key {w : Withdrawal W} (h : w.fallbackNonce < 2 ^ 64) :
    w.bounceBack.key = w.key := by
  have hnonce : w.bounceBack.fallbackNonce = w.fallbackNonce := by
    show uint64 (w.fallbackNonce % 2 ^ 160) = w.fallbackNonce
    rw [Nat.mod_eq_of_lt (h.trans (by decide)), uint64, Nat.mod_eq_of_lt h]
  rw [WithdrawalBounceBackDeposit.key, hnonce]
  rfl

theorem userBounceBacks_keys {ws : List (Withdrawal W)}
    (h : ∀ key ∈ userKeys (ws.map Withdrawal.key), key.2.2 < 2 ^ 64) :
    (userBounceBacks ws).map key = userKeys (ws.map Withdrawal.key) := by
  have hkeys : userKeys (ws.map Withdrawal.key) =
      (ws.filter fun w => w.fallbackNonce ≠ 0).map Withdrawal.key := filter_map
  rw [hkeys] at h ⊢
  rw [userBounceBacks, map_map]
  refine map_congr_left fun w hw => ?_
  exact Withdrawal.bounceBack_key (h w.key (mem_map_of_mem hw))

theorem bounceBacks_sublist {z : Zone W} (hz : Allocated z) (hs : Settles z.history.batches s)
    (hb : Bounced s) :
    ((bounceBacks (queueEntries s.logs)).map key).Sublist (requestKeys z.history.requests) := by
  obtain ⟨content, hrun, -⟩ := hs.queue
  have hsettled : (settledBatches z.history.batches s).flatten <+:
      z.history.batches.flatMap (·.withdrawals) := by
    obtain ⟨rest, hrest⟩ := take_prefix s.portal.batches.withdrawalBatchIndex z.history.batches
    refine ⟨rest.flatMap (·.withdrawals), ?_⟩
    conv_rhs => rw [← hrest]
    rw [flatMap_append]
    rfl
  have hfinalized : userKeys ((z.history.batches.flatMap (·.withdrawals)).map Withdrawal.key) <+:
      requestKeys z.history.requests := by
    rw [← hz.keys_eq, Zone.userKeys, userKeys_append]
    exact prefix_append _ _
  have hlt : ∀ key ∈ userKeys ((z.history.batches.flatMap (·.withdrawals)).map Withdrawal.key),
      key.2.2 < 2 ^ 64 := by
    intro key hkey
    obtain ⟨i, call, hcall, rfl⟩ := mem_requestKeys.1 (hfinalized.subset hkey)
    have hi := (List.getElem?_eq_some_iff.1 hcall).1
    have hlast := hz.last_lt
    rw [hz.last_eq] at hlast
    show i + 1 < 2 ^ 64
    omega
  have hdequeued := userBounceBacks_sublist (hrun.popped_prefix.trans hsettled)
  have hkeys := (List.Sublist.trans hb hdequeued).map key
  rw [userBounceBacks_keys hlt] at hkeys
  exact hkeys.trans hfinalized.sublist

theorem requestKeys_nodup (requests : List (RequestWithdrawal W)) :
    ((requestKeys requests).map (·.2.2)).Nodup := by
  rw [requestKeys_nonces]
  exact nodup_range'

end Portal

end TempoZones
