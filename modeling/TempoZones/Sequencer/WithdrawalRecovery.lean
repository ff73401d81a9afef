import TempoZones.Sequencer.PendingWithdrawals

/-!
# Pending withdrawals of a queue history

`QueueHistory` is a queue with the batches settled into it, their events and the withdrawals taken
from it; the portal's queue has one in every run (`Trace.queueHistory`). The reads of
`fetchPendingWithdrawals` happen at four moments of it. The events searched cover the slots below
the first tail, and the slot hash belongs to the head batch if the head is the same at the fourth
moment.
-/

namespace TempoZones

open Lib List Withdrawal Prod WithdrawalQueue

variable {W : Type} [EvmWord W] [DecidableEq W] {chunks : List (List (BatchSubmitted W))}

/-! ## Histories of the queue -/

/-- A queue with the batches settled into it, each with its event, and the withdrawals taken from it,
oldest first. -/
structure QueueHistory (W : Type) where
  submissions : List (List (Withdrawal W) × BatchSubmitted W)
  dequeued : List (Withdrawal W)
  queue : WithdrawalQueue W

namespace QueueHistory

def start : QueueHistory W := ⟨[], [], ⟨0, 0, fun _ => 0⟩⟩

/-- Settlement of a batch that ends at the zone block `nextBlockHash`. -/
def settle (h : QueueHistory W) (batch : List (Withdrawal W)) (nextBlockHash : W) :
    QueueHistory W :=
  let enqueued := h.queue.enqueue (queueHash batch)
  { submissions := h.submissions ++
      [(batch, ⟨enqueued.2, nextBlockHash, queueHash batch⟩)]
    dequeued := h.dequeued
    queue := enqueued.1 }

inductive Step (h : QueueHistory W) : QueueHistory W → Prop
  | settled (batch : List (Withdrawal W)) (nextBlockHash : W) : Step h (h.settle batch nextBlockHash)
  | dequeued {w : Withdrawal W} {remainingQueue : W} {queue : WithdrawalQueue W}
      (run : h.queue.dequeue w remainingQueue = .ok queue) :
      Step h { h with dequeued := h.dequeued ++ [w], queue := queue }

abbrev Later : QueueHistory W → QueueHistory W → Prop := Relation.ReflTransGen Step

def slots (h : QueueHistory W) : List (List (Withdrawal W) × BatchSubmitted W) :=
  h.submissions.filter fun p => !p.1.isEmpty

def events (h : QueueHistory W) : List (BatchSubmitted W) := h.submissions.map snd

/-- What every moment of a history satisfies. -/
structure Consistent (h : QueueHistory W) : Prop where
  content : ∃ content, FifoRun (h.submissions.map fst) h.dequeued content ∧
    h.queue.Holds content
  tail_eq : h.queue.tail = h.slots.length
  slot : ∀ (i : ℕ) (p : List (Withdrawal W) × BatchSubmitted W), h.slots[i]? = some p →
    p.2.withdrawalQueueIndex = i ∧ p.2.withdrawalQueueHash = queueHash p.1
  empty : ∀ p ∈ h.submissions, p.1 = [] → p.2.withdrawalQueueIndex = NO_QUEUE_INDEX

theorem start_consistent : Consistent (start : QueueHistory W) where
  content := ⟨[], .empty, .empty _ _ 0⟩
  tail_eq := rfl
  slot := nofun
  empty := nofun

theorem slots_settle (h : QueueHistory W) (batch : List (Withdrawal W)) (nextBlockHash : W) :
    (h.settle batch nextBlockHash).slots = h.slots ++ if batch = [] then [] else
      [(batch, ⟨(h.queue.enqueue (queueHash batch)).2, nextBlockHash, queueHash batch⟩)] := by
  unfold settle slots
  rw [filter_append]
  cases batch <;> rfl

theorem Step.consistent (hc : CollisionFree W) {h h' : QueueHistory W} (hh : Consistent h)
    (step : Step h h') : Consistent h' := by
  obtain ⟨⟨content, hrun, hholds⟩, htail, hslot, hempty⟩ := hh
  cases step with
  | settled batch nextBlockHash =>
    have hzero : queueHash batch = 0 ↔ batch = [] := (withdrawal_binding hc).suffixChain_eq_sentinel
    refine ⟨⟨pushBatch content batch, ?_, hholds.enqueue hc batch⟩, ?_, ?_, ?_⟩
    · change FifoRun ((h.submissions ++ [_]).map fst) h.dequeued _
      rw [map_append]
      exact hrun.push batch
    · rw [slots_settle]
      change (h.queue.enqueue (queueHash batch)).1.tail = _
      unfold enqueue
      by_cases hbatch : batch = []
      · rw [if_pos (hzero.2 hbatch), if_pos hbatch, append_nil]
        exact htail
      · rw [if_neg (mt hzero.1 hbatch), if_neg hbatch, length_append]
        exact congrArg (· + 1) htail
    · intro i p hp
      rw [slots_settle] at hp
      split at hp
      · rw [append_nil] at hp
        exact hslot i p hp
      · next hbatch =>
        rcases getElem?_concat_eq_some hp with hp | ⟨hi, rfl⟩
        · exact hslot i p hp
        refine ⟨?_, rfl⟩
        simp only [enqueue, if_neg (mt hzero.1 hbatch)]
        rw [htail, hi]
    intro p hp hnil
    rcases mem_append.1 hp with hp | hp
    · exact hempty p hp hnil
    · rw [mem_singleton.1 hp] at hnil ⊢
      simp only [enqueue, if_pos (hzero.2 hnil)]
  | dequeued run =>
    obtain ⟨rest, others, rfl, hholds'⟩ := hholds.dequeue hc run
    refine ⟨⟨popFront rest others, hrun.pop, hholds'⟩, ?_, hslot, hempty⟩
    simp only [dequeue, ok_iff] at run
    obtain ⟨-, -, rfl⟩ := run
    exact htail

theorem Later.consistent (hc : CollisionFree W) {h h' : QueueHistory W} (hh : Consistent h)
    (later : Later h h') : Consistent h' := by
  induction later with
  | refl => exact hh
  | tail _ step ih => exact step.consistent hc ih

theorem Later.mono {h h' : QueueHistory W} (later : Later h h') :
    h.queue.head ≤ h'.queue.head ∧ h.queue.tail ≤ h'.queue.tail ∧
      h.submissions <+: h'.submissions := by
  induction later with
  | refl => exact ⟨le_rfl, le_rfl, prefix_rfl⟩
  | tail _ step ih =>
    obtain ⟨hhead, htail, hsubmissions⟩ := ih
    cases step with
    | settled batch nextBlockHash =>
      refine ⟨?_, ?_, hsubmissions.trans (prefix_append _ _)⟩
      · refine hhead.trans (le_of_eq ?_)
        simp only [settle, enqueue]
        split <;> rfl
      refine htail.trans ?_
      simp only [settle, enqueue]
      split
      · exact le_rfl
      · exact Nat.le_succ _
    | dequeued run =>
      simp only [dequeue, ok_iff] at run
      obtain ⟨-, -, rfl⟩ := run
      refine ⟨hhead.trans ?_, htail, hsubmissions⟩
      simp only
      split
      · exact Nat.le_succ _
      · exact le_rfl

/-- Slots before the head were taken completely. Of a pending head slot some withdrawals were taken,
and it holds the hash of the others. -/
theorem Consistent.head_slot {h : QueueHistory W} (hh : Consistent h)
    (hpending : h.queue.head < h.queue.tail) :
    ∃ p k, h.slots[h.queue.head]? = some p ∧ k < p.1.length ∧
      h.dequeued = ((h.slots.take h.queue.head).map fst).flatten ++ p.1.take k ∧
      h.queue.slots h.queue.head = queueHash (p.1.drop k) := by
  obtain ⟨⟨content, hrun, hholds⟩, htail, -, -⟩ := hh
  obtain ⟨done, rest, k, hbatches, hcontent, hpopped, hk⟩ := hrun.shape
  have hslots : nonemptyBatches (h.submissions.map fst) = h.slots.map fst := by
    unfold nonemptyBatches slots
    rw [filter_map]
    rfl
  rw [hslots] at hbatches
  have hlength : h.slots.length = done.length + rest.length := by
    rw [← length_append, ← hbatches, length_map]
  have hcount : content.length = rest.length := by rw [hcontent, length_dropFront]
  have htail' := hholds.tail_eq
  have hhead : h.queue.head = done.length := by omega
  have hfirst := hholds.slot 0
  cases rest with
  | nil =>
    change content.length = 0 at hcount
    omega
  | cons batch others =>
    have hget : (h.slots.map fst)[h.queue.head]? = some batch := by
      rw [hbatches, hhead, getElem?_append_right le_rfl, Nat.sub_self]
      rfl
    rw [getElem?_map, Option.map_eq_some_iff] at hget
    obtain ⟨p, hp, rfl⟩ := hget
    refine ⟨p, k, hp, hk p.1 rfl, ?_, ?_⟩
    · rw [hpopped, map_take, hbatches, hhead, take_left]
      rfl
    · rw [hcontent] at hfirst
      exact hfirst

end QueueHistory

open QueueHistory

/-! ## Events of a history -/

theorem mem_of_length_ge {l : List ℕ} {first tail i : ℕ} (hnodup : l.Nodup)
    (hrange : ∀ n ∈ l, first ≤ n ∧ n < tail) (hlength : tail - first ≤ l.length)
    (hi : first ≤ i ∧ i < tail) : i ∈ l := by
  have hsubset : l.toFinset ⊆ Finset.Ico first tail := fun n hn =>
    Finset.mem_Ico.2 (hrange n (mem_toFinset.1 hn))
  have hcard : (Finset.Ico first tail).card ≤ l.toFinset.card := by
    rw [toFinset_card_of_nodup hnodup, Nat.card_Ico]
    exact hlength
  rw [← mem_toFinset, Finset.eq_of_subset_of_card_le hsubset hcard]
  exact Finset.mem_Ico.2 hi

theorem insertEvents_ok {events : List (BatchSubmitted W)} : ∀ {found : List (BatchSubmitted W)},
      ((found ++ events).map (·.withdrawalQueueIndex)).Nodup →
      insertEvents found events = .ok (found ++ events) := by
  induction events with
  | nil =>
    intro found _
    rw [append_nil]
    rfl
  | cons event rest ih =>
    intro found hnodup
    have hfresh : event.withdrawalQueueIndex ∉ found.map (·.withdrawalQueueIndex) := by
      rw [map_append, map_cons] at hnodup
      intro hmem
      exact disjoint_of_nodup_append hnodup hmem mem_cons_self
    rw [insertEvents, if_neg hfresh, ih]
    · rw [append_assoc]
      rfl
    · rw [append_assoc]
      exact hnodup

theorem findBatchEvents_ok {first tail : ℕ} :
    ∀ {found : List (BatchSubmitted W)}, (∀ e ∈ found, e.inRange first tail) →
      ((found ++ chunks.flatten.filter (·.inRange first tail)).map (·.withdrawalQueueIndex)).Nodup →
      ∃ result, findBatchEvents first tail found chunks = .ok result ∧
        (∀ e ∈ result, e ∈ found ∨ e ∈ chunks.flatten ∧ e.inRange first tail) ∧
        ∀ e ∈ found ++ chunks.flatten.filter (·.inRange first tail),
          e.withdrawalQueueIndex ∈ result.map (·.withdrawalQueueIndex) := by
  induction chunks with
  | nil =>
    intro found _ _
    refine ⟨found, rfl, fun e he => .inl he, ?_⟩
    intro e he
    rw [flatten_nil, filter_nil, append_nil] at he
    exact mem_map_of_mem he
  | cons chunk rest ih =>
    intro found hfound hnodup
    rw [findBatchEvents]
    split
    · next hfull =>
      refine ⟨found, rfl, fun e he => .inl he, ?_⟩
      intro e he
      -- the range is exhausted, so nothing is missed in the older chunks
      have hrange : ∀ n ∈ found.map (·.withdrawalQueueIndex), first ≤ n ∧ n < tail := by
        intro n hn
        obtain ⟨x, hx, rfl⟩ := mem_map.1 hn
        exact of_decide_eq_true (hfound x hx)
      have hunique : (found.map (·.withdrawalQueueIndex)).Nodup := by
        rw [map_append] at hnodup
        exact hnodup.of_append_left
      refine mem_of_length_ge hunique hrange (by rw [length_map]; exact hfull) ?_
      rcases mem_append.1 he with he | he
      · exact of_decide_eq_true (hfound e he)
      · exact of_decide_eq_true (mem_filter.1 he).2
    rw [flatten_cons, filter_append, ← append_assoc] at hnodup ⊢
    have hinsert : insertEvents found (chunk.filter (·.inRange first tail)) =
        .ok (found ++ chunk.filter (·.inRange first tail)) := by
      apply insertEvents_ok
      rw [map_append] at hnodup
      exact hnodup.of_append_left
    have hfound' : ∀ e ∈ found ++ chunk.filter (·.inRange first tail), e.inRange first tail := by
      intro e he
      rcases mem_append.1 he with he | he
      · exact hfound e he
      · exact (mem_filter.1 he).2
    obtain ⟨result, hresult, hsub, hall⟩ := ih hfound' hnodup
    refine ⟨result, ?_, ?_, hall⟩
    · rw [hinsert]
      exact hresult
    intro e he
    rcases hsub e he with he | ⟨he, hin⟩
    · rcases mem_append.1 he with he | he
      · exact .inl he
      · obtain ⟨hmem, hin⟩ := mem_filter.1 he
        exact .inr ⟨mem_append_left _ hmem, hin⟩
    · exact .inr ⟨mem_append_right _ he, hin⟩

namespace QueueHistory

variable {h : QueueHistory W}

theorem Consistent.slot_of_event (hh : Consistent h) {e : BatchSubmitted W} (he : e ∈ h.events)
    (hindex : e.withdrawalQueueIndex < 2 ^ 64) :
    ∃ p, h.slots[e.withdrawalQueueIndex]? = some p ∧ p.2 = e := by
  obtain ⟨p, hp, rfl⟩ := mem_map.1 he
  have hne : p.1 ≠ [] := by
    intro hnil
    rw [hh.empty p hp hnil] at hindex
    exact absurd hindex (by decide)
  have hslot : p ∈ h.slots := by
    refine mem_filter.2 ⟨hp, ?_⟩
    cases hfst : p.1 with
    | nil => exact absurd hfst hne
    | cons x xs => rfl
  obtain ⟨i, hi⟩ := mem_iff_getElem?.1 hslot
  refine ⟨p, ?_, rfl⟩
  rw [(hh.slot i p hi).1]
  exact hi

theorem Consistent.index_nodup (hh : Consistent h) {first tail : ℕ} (htail : tail ≤ 2 ^ 64) :
    ((h.events.filter (·.inRange first tail)).map (·.withdrawalQueueIndex)).Nodup := by
  -- events without a slot are outside of the range
  have hslots : h.events.filter (·.inRange first tail) =
      (h.slots.map snd).filter (·.inRange first tail) := by
    unfold events slots
    rw [filter_map, filter_map, filter_filter]
    congr 1
    apply filter_congr
    intro p hp
    cases hfst : p.1 with
    | cons x xs => simp only [Function.comp_apply, isEmpty_cons, Bool.not_false, Bool.and_true]
    | nil =>
      have hout : p.2.inRange first tail = false := by
        unfold BatchSubmitted.inRange
        rw [hh.empty p hp hfst]
        apply decide_eq_false
        have hno : (2 : ℕ) ^ 64 ≤ NO_QUEUE_INDEX := by decide
        omega
      simp only [Function.comp_apply, hout, Bool.false_and]
  have hindices : (h.slots.map snd).map (·.withdrawalQueueIndex) = range h.slots.length := by
    apply ext_getElem?
    intro i
    rw [getElem?_map, getElem?_map]
    cases hp : h.slots[i]? with
    | none =>
      rw [List.getElem?_eq_none (by rw [length_range]; exact List.getElem?_eq_none_iff.1 hp)]
      rfl
    | some p =>
      have hi := (List.getElem?_eq_some_iff.1 hp).1
      rw [List.getElem?_range hi]
      exact congrArg some (hh.slot i p hp).1
  rw [hslots]
  refine List.Nodup.sublist (filter_sublist.map _) ?_
  rw [hindices]
  exact nodup_range

theorem Consistent.find_events (hh : Consistent h) {first tail : ℕ}
    (hchunks : chunks.reverse.flatten = h.events) (hrange : first < tail) (hbound : tail ≤ 2 ^ 64) :
    ∃ result, findBatchEventsByIndex first tail chunks = .ok result ∧
      (∀ e ∈ result, e ∈ h.events ∧ e.withdrawalQueueIndex < 2 ^ 64) ∧
      ∀ i p, first ≤ i → i < tail → h.slots[i]? = some p →
        result.find? (fun e => e.withdrawalQueueIndex = i) = some p.2 := by
  have hperm : chunks.flatten.Perm h.events := by
    rw [← hchunks]
    exact (reverse_perm chunks).symm.flatten
  have hnodup : ((chunks.flatten.filter (·.inRange first tail)).map
      (·.withdrawalQueueIndex)).Nodup :=
    (((hperm.filter _).map _).nodup_iff).2 (hh.index_nodup hbound)
  rw [← nil_append (chunks.flatten.filter _)] at hnodup
  obtain ⟨result, hresult, hsub, hall⟩ :=
    findBatchEvents_ok (fun e he => absurd he not_mem_nil) hnodup
  have hevents : ∀ e ∈ result, e ∈ h.events ∧ e.withdrawalQueueIndex < 2 ^ 64 := by
    intro e he
    rcases hsub e he with he | ⟨he, hin⟩
    · exact absurd he not_mem_nil
    · have hindex := of_decide_eq_true hin
      exact ⟨hperm.mem_iff.1 he, by omega⟩
  refine ⟨result, ?_, hevents, ?_⟩
  · rw [findBatchEventsByIndex, if_neg (Nat.not_le_of_lt hrange)]
    exact hresult
  intro i p hfirst hlast hp
  have hindex := (hh.slot i p hp).1
  have hmem : p.2 ∈ chunks.flatten.filter (·.inRange first tail) := by
    have hevent : p.2 ∈ h.events := mem_map_of_mem (mem_filter.1 (mem_of_getElem? hp)).1
    refine mem_filter.2 ⟨hperm.mem_iff.2 hevent, decide_eq_true ?_⟩
    rw [hindex]
    exact ⟨hfirst, hlast⟩
  have hfound := hall p.2 hmem
  rw [hindex] at hfound
  obtain ⟨e, he, hei⟩ := mem_map.1 hfound
  -- whatever is found under this index is the event of the slot
  cases hget : result.find? (fun e => e.withdrawalQueueIndex = i) with
  | none => exact absurd (decide_eq_true hei) (find?_eq_none.1 hget e he)
  | some e' =>
    have hmatches := find?_some hget
    have hindex' : e'.withdrawalQueueIndex = i := of_decide_eq_true hmatches
    obtain ⟨hevent, hbound'⟩ := hevents e' (mem_of_find?_eq_some hget)
    obtain ⟨p', hp', rfl⟩ := hh.slot_of_event hevent hbound'
    rw [hindex', hp] at hp'
    cases hp'
    rfl

end QueueHistory

/-! ## Slots of a history -/

theorem fetchSlots_ok {zone : ZoneBatches W} {events : List (BatchSubmitted W)}
    (hzone : ∀ e ∈ events, ∃ ws, zone.fetch e = .ok ws) :
    ∃ slots, fetchSlots zone events = .ok slots ∧ ∀ i e ws,
      events.find? (fun e => e.withdrawalQueueIndex = i) = some e → zone.fetch e = .ok ws →
        (slots.find? fun entry => entry.1 = i).map snd = some ws := by
  induction events with
  | nil => exact ⟨[], rfl, nofun⟩
  | cons event rest ih =>
    obtain ⟨slots, hslots, hfind⟩ := ih fun e he => hzone e (mem_cons_of_mem _ he)
    obtain ⟨withdrawals, hfetch⟩ := hzone event mem_cons_self
    obtain ⟨number, hnumber, hwithdrawals⟩ := bind_ok_iff.1 hfetch
    obtain ⟨blocks, hblocks, hslots⟩ := bind_ok_iff.1 hslots
    refine ⟨(event.withdrawalQueueIndex, withdrawals) :: slots,
      bind_ok_iff.2 ⟨(event.withdrawalQueueIndex, number) :: blocks, ?_, ?_⟩, ?_⟩
    · rw [mapM_cons, hnumber, hblocks]
      rfl
    · rw [mapM_cons, hwithdrawals, hslots]
      rfl
    intro i e ws he hws
    by_cases hi : event.withdrawalQueueIndex = i
    · rw [find?_cons_of_pos (by exact decide_eq_true hi)] at he ⊢
      cases he
      rw [hfetch] at hws
      cases hws
      rfl
    · rw [find?_cons_of_neg (by simpa using hi)] at he ⊢
      exact hfind i e ws he hws

/-! ## Main result -/

/-- Withdrawals that are pending in a slot once `k` of the head batch were taken. -/
def QueueHistory.pending (h : QueueHistory W) (head k slot : ℕ) : List (Withdrawal W) :=
  let batch := (h.slots[slot]?.map fst).getD []
  if slot = head then batch.drop k else batch

theorem flatMap_range'_getElem? {α β : Type} (l : List α) (f : Option α → List β) (a : ℕ) :
    (range' a (l.length - a)).flatMap (fun i => f l[i]?) =
      (l.drop a).flatMap fun x => f (some x) := by
  have hmap : (range' a (l.length - a)).map (fun i => l[i]?) = (l.drop a).map some := by
    apply ext_getElem?
    intro i
    rw [getElem?_map, getElem?_map, getElem?_drop]
    by_cases hi : i < l.length - a
    · have hget : l[a + i]? = some _ := getElem?_eq_getElem (by omega)
      rw [getElem?_range' hi, Nat.one_mul, hget, Option.map_some, hget]
      rfl
    · rw [getElem?_eq_none (by rw [length_range']; omega), getElem?_eq_none (by omega)]
      rfl
  have hflat := congrArg (flatMap f) hmap
  rw [flatMap_map, flatMap_map] at hflat
  exact hflat

theorem QueueHistory.Consistent.pending_rest {h : QueueHistory W} (hh : h.Consistent)
    {p : List (Withdrawal W) × BatchSubmitted W} {k : ℕ}
    (hp : h.slots[h.queue.head]? = some p)
    (hdequeued : h.dequeued = ((h.slots.take h.queue.head).map fst).flatten ++ p.1.take k) :
    h.dequeued ++ (List.range' h.queue.head (h.queue.tail - h.queue.head)).flatMap
      (h.pending h.queue.head k) = (h.submissions.map fst).flatten := by
  obtain ⟨hlt, hget⟩ := List.getElem?_eq_some_iff.1 hp
  -- batches without a slot are empty
  have hslots : (h.submissions.map fst).flatten = (h.slots.map fst).flatten := by
    unfold slots
    induction h.submissions with
    | nil => rfl
    | cons q rest ih =>
      cases hq : q.1 with
      | nil => simp only [map_cons, flatten_cons, hq, nil_append, ih,
          filter_cons, isEmpty_nil, Bool.not_true, Bool.false_eq_true, if_false]
      | cons x xs => simp only [map_cons, flatten_cons, ih, filter_cons, hq,
          isEmpty_cons, Bool.not_false, if_true]
  have hcount : h.queue.tail - h.queue.head = h.slots.length - (h.queue.head + 1) + 1 := by
    rw [hh.tail_eq]
    omega
  have hfirst : h.pending h.queue.head k h.queue.head = p.1.drop k := by
    unfold pending
    rw [hp, if_pos rfl]
    rfl
  have hothers : (range' (h.queue.head + 1) (h.slots.length - (h.queue.head + 1))).flatMap
      (h.pending h.queue.head k) = ((h.slots.drop (h.queue.head + 1)).map fst).flatten := by
    have hpast := flatMap_range'_getElem? h.slots (fun q => (q.map fst).getD []) (h.queue.head + 1)
    rw [← flatMap_def]
    refine Eq.trans ?_ hpast
    apply flatMap_congr
    intro slot hslot
    rw [mem_range'_1] at hslot
    unfold pending
    rw [if_neg (by omega)]
  rw [hcount, range'_succ, flatMap_cons, hfirst, hothers, hdequeued, hslots,
    append_assoc, ← append_assoc (p.1.take k), take_append_drop]
  have hsplit : h.slots = h.slots.take h.queue.head ++ p :: h.slots.drop (h.queue.head + 1) := by
    rw [← hget, getElem_cons_drop, take_append_drop]
  conv_rhs => rw [hsplit, map_append, flatten_append]
  rfl

/-- Recovery from reads at four moments `h₁`, `h₂`, `h₃` and `h₄` of a history, of which `h₂` provides
the events. The zone node knows the batches it finalized. -/
theorem fetchPendingWithdrawals_eq (hc : CollisionFree W) {h₁ h₂ h₃ h₄ : QueueHistory W}
    (hh : QueueHistory.Later .start h₁) (h₁₂ : QueueHistory.Later h₁ h₂)
    (h₂₃ : QueueHistory.Later h₂ h₃) (h₃₄ : QueueHistory.Later h₃ h₄) {zone : ZoneBatches W}
    (hzone : ∀ p ∈ h₂.submissions, zone.fetch p.2 = .ok p.1)
    (hchunks : chunks.reverse.flatten = h₂.events) (hpending : h₁.queue.head < h₁.queue.tail)
    (hbounds : h₄.queue.tail < 2 ^ 64) (hhead : h₄.queue.head = h₁.queue.head) :
    let head := h₁.queue.head
    let pageTail := min h₁.queue.tail (saturatingAdd head WITHDRAWAL_RECOVERY_PAGE_SIZE)
    ∃ p k, h₃.slots[head]? = some p ∧ k < p.1.length ∧
      h₃.dequeued = ((h₃.slots.take head).map fst).flatten ++ p.1.take k ∧
      h₃.dequeued ++ (range' head (h₃.queue.tail - head)).flatMap (h₃.pending head k) =
        (h₃.submissions.map fst).flatten ∧
      fetchPendingWithdrawals zone h₁.queue chunks h₃.queue h₄.queue =
        .ok ⟨head, h₄.queue.tail, (range' head (pageTail - head)).map fun slot =>
          (slot, h₃.pending head k slot)⟩ := by
  intro head pageTail
  have hc₂ : h₂.Consistent := QueueHistory.Later.consistent hc start_consistent (hh.trans h₁₂)
  have hc₃ : h₃.Consistent := h₂₃.consistent hc hc₂
  obtain ⟨hhead₁₂, htail₁₂, -⟩ := h₁₂.mono
  obtain ⟨hhead₂₃, htail₂₃, hsubmissions⟩ := h₂₃.mono
  obtain ⟨hhead₃₄, htail₃₄, -⟩ := h₃₄.mono
  have hhead₃ : h₃.queue.head = head := by omega
  have hpending₃ : h₃.queue.head < h₃.queue.tail := by omega
  obtain ⟨p, k, hp, hk, hdequeued, hslot⟩ := hc₃.head_slot hpending₃
  have hrest := hc₃.pending_rest hp hdequeued
  rw [hhead₃] at hp hdequeued hslot hrest
  refine ⟨p, k, hp, hk, hdequeued, hrest, ?_⟩
  have hpage : head < pageTail := by
    have hsize : 0 < WITHDRAWAL_RECOVERY_PAGE_SIZE := by decide
    unfold pageTail saturatingAdd
    rw [lt_min_iff, lt_min_iff]
    omega
  have hpageTail : pageTail ≤ h₁.queue.tail := Nat.min_le_left _ _
  obtain ⟨events, hevents, hknown, hfind⟩ := hc₂.find_events hchunks hpage (by omega)
  have hfetched : ∀ e ∈ events, ∃ ws, zone.fetch e = .ok ws := by
    intro e he
    obtain ⟨q, hq, rfl⟩ := mem_map.1 (hknown e he).1
    exact ⟨q.1, hzone q hq⟩
  obtain ⟨slots, hslots, hwithdrawals⟩ := fetchSlots_ok hfetched
  -- a pending slot of the page, with its batch and its event
  have hresolve : ∀ slot ∈ range' head (pageTail - head),
      resolveSlot head (fun index => events.find? fun event => event.withdrawalQueueIndex = index)
        (fun index => (slots.find? fun entry => entry.1 = index).map snd)
        (h₃.queue.slots head) slot = .ok (h₃.pending head k slot) ∧
      h₃.pending head k slot ≠ [] := by
    intro slot hmem
    rw [mem_range'_1] at hmem
    have hlt : slot < h₂.slots.length := by
      have htail := hc₂.tail_eq
      omega
    obtain ⟨q, hq⟩ : ∃ q, h₂.slots[slot]? = some q := ⟨_, getElem?_eq_getElem hlt⟩
    have hq₃ : h₃.slots[slot]? = some q := by
      obtain ⟨more, hmore⟩ := hsubmissions
      unfold QueueHistory.slots at hq ⊢
      rw [← hmore, filter_append]
      rw [List.getElem?_append_left (List.getElem?_eq_some_iff.1 hq).1]
      exact hq
    have hevent := hfind slot q hmem.1 (by omega) hq
    have hq₂ := mem_filter.1 (mem_of_getElem? hq)
    have hws := hwithdrawals slot q.2 q.1 hevent (hzone q hq₂.1)
    have hne : q.1 ≠ [] := by
      intro hnil
      rw [hnil] at hq₂
      cases hq₂.2
    have hbatch : h₃.pending head k slot = if slot = head then q.1.drop k else q.1 := by
      unfold pending
      rw [hq₃]
      rfl
    have hchecked : ¬ (q.1 = [] ∨ queueHash q.1 ≠ q.2.withdrawalQueueHash) := by
      rw [not_or, not_not]
      exact ⟨hne, (hc₂.slot slot q hq).2.symm⟩
    rw [hbatch]
    simp only [resolveSlot, hevent, hws, if_neg hchecked]
    by_cases hslothead : slot = head
    · subst hslothead
      rw [hp] at hq₃
      cases hq₃
      rw [if_pos rfl, if_pos rfl, (findProcessedOffset_eq_some hc).2 ⟨hk.le, hslot.symm⟩]
      refine ⟨rfl, ?_⟩
      intro hnil
      rw [drop_eq_nil_iff] at hnil
      omega
    · rw [if_neg hslothead, if_neg hslothead]
      exact ⟨rfl, hne⟩
  have hzero : h₃.queue.slots head ≠ 0 := by
    rw [hslot]
    intro hzero
    have hnil := (withdrawal_binding hc).suffixChain_eq_sentinel.1 hzero
    rw [drop_eq_nil_iff] at hnil
    omega
  have hread₁ : readBounds h₁.queue = .ok (head, h₁.queue.tail) := by
    rw [readBounds, if_pos (by constructor <;> omega)]
  have hread₄ : readBounds h₄.queue = .ok (head, h₄.queue.tail) := by
    rw [readBounds, if_pos (by constructor <;> omega), hhead]
  have hresolved := resolveSlots_eq hresolve
  unfold fetchPendingWithdrawals
  rw [hread₁]
  change (if h₁.queue.tail ≤ head then _ else _) = _
  rw [if_neg (Nat.not_le_of_lt hpending)]
  change (findBatchEventsByIndex head pageTail chunks >>= _) = _
  rw [hevents]
  change (fetchSlots zone events >>= _) = _
  rw [hslots]
  change (readBounds h₄.queue >>= _) = _
  rw [hread₄]
  have hguard : head = head ∧ pageTail ≤ h₄.queue.tail := ⟨rfl, by omega⟩
  change (require (head = head ∧ pageTail ≤ h₄.queue.tail) _ >>= _) = _
  rw [require, if_pos hguard]
  change (resolvePendingSlots head pageTail _ _ (h₃.queue.slots head) >>= _) = _
  rw [resolvePendingSlots, if_neg (fun h => hzero h.2), hresolved]
  rfl

/-! ## Histories of the portal -/

/-- `hist` is the history of the queue of `s`: its batches are the settled ones of the zone, and each
event names the block that the accepted batch ends with. -/
structure QueueHistory.Records (batches : List (FinalizedBatch W)) (s : L1 W)
    (hist : QueueHistory W) : Prop where
  later : Later .start hist
  queue : hist.queue = s.portal.withdrawalQueue
  dequeued : hist.dequeued = s.history.dequeued
  settled : hist.submissions.map fst = settledBatches batches s
  blocks : hist.events.map (·.nextBlockHash) =
    s.history.accepted.map (·.call.blockTransition.nextBlockHash)

theorem QueueHistory.Records.step {ctx : CallCtx W} {s s' : L1 W} {z : Zone W} (hz : Batched z)
    (sound : VerifierSound z ctx.ext) {hist : QueueHistory W}
    (h : Records z.history.batches s hist) (step : QueueStep ctx s s') :
    ∃ hist', Later hist hist' ∧ Records z.history.batches s' hist' := by
  cases step with
  | kept queue index dequeued accepted =>
    have hsettled : settledBatches z.history.batches s' = settledBatches z.history.batches s := by
      rw [settledBatches, index]
      rfl
    exact ⟨hist, .refl, h.later, h.queue.trans queue.symm, h.dequeued.trans dequeued.symm,
      h.settled.trans hsettled.symm, accepted ▸ h.blocks⟩
  | @settled sender call n hash accepted result =>
    subst result
    obtain ⟨b, hb, hhash, -⟩ := accepted.next_batch hz sound
    have hstep : Step hist (hist.settle b.withdrawals call.blockTransition.nextBlockHash) :=
      .settled _ _
    refine ⟨_, .single hstep, h.later.tail hstep, ?_, h.dequeued, ?_, ?_⟩
    · change (hist.queue.enqueue (queueHash b.withdrawals)).1 =
        (s.portal.withdrawalQueue.enqueue call.withdrawalQueueHash).1
      rw [h.queue, hhash]
    · change (hist.submissions ++ [_]).map fst =
        (z.history.batches.take (s.portal.batches.withdrawalBatchIndex + 1)).map _
      rw [take_add_one, hb, map_append, map_append, h.settled]
      rfl
    change ((hist.submissions ++ [_]).map snd).map _ = (s.history.accepted ++ [_]).map _
    rw [map_append, map_append, map_append]
    exact congrArg (· ++ _) h.blocks
  | @dequeued w remainingQueue dequeue index dequeued accepted =>
    have hsettled : settledBatches z.history.batches s' = settledBatches z.history.batches s := by
      rw [settledBatches, index]
      rfl
    have hstep := Step.dequeued (h.queue ▸ dequeue)
    refine ⟨_, .single hstep, h.later.tail hstep, rfl, ?_, h.settled.trans hsettled.symm,
      accepted ▸ h.blocks⟩
    rw [dequeued, ← h.dequeued]

theorem Trace.queueHistory (hc : CollisionFree W) {π : Platform W} {σ : Sys W} (hsound : π.Sound)
    (h : Trace π σ) : ∃ hist, QueueHistory.Records σ.zone.history.batches σ.l1 hist := by
  induction h with
  | start h =>
    obtain ⟨e, hstarted⟩ := h.started
    obtain ⟨ctx, args, -, -, hinit⟩ := hstarted.initial
    refine ⟨.start, .refl, hinit.withdrawalQueue.symm, hinit.dequeued.symm, ?_, ?_⟩
    · rw [settledBatches, hinit.batches]
      rfl
    · rw [hinit.accepted]
      rfl
  | micro before admissible step ih =>
    obtain ⟨hist, hrecorded⟩ := ih
    obtain ⟨hist', -, hrecords⟩ :=
      hrecorded.step before.batched (hsound admissible.proofs) step.queueStep
    exact ⟨hist', hrecords⟩
  | nextBlock _ ih => exact ih
  | zone before _ _ step ih =>
    -- Batches the zone finalizes later are not settled yet.
    obtain ⟨hist, hlater, hqueue, hdequeued, hsettled, hblocks⟩ := ih
    obtain ⟨more, hmore⟩ := step.batches_prefix
    refine ⟨hist, hlater, hqueue, hdequeued, ?_, hblocks⟩
    rw [hsettled, settledBatches, settledBatches, ← hmore,
      take_append_of_le_length (before.settles hc hsound).1.index_le]

/-- **Recovery in a system run.** Whatever the portal, its users and the zone have done, what the
portal has paid, then the page recovered from its events and the zone's batches, then a rest are what
the zone has settled, and nothing is left if the page reaches the tail. -/
theorem recovery_resumes_settled_withdrawals (hc : CollisionFree W) {π : Platform W} {σ : Sys W}
    (hsound : π.Sound) (h : Trace π σ) :
    ∃ hist, QueueHistory.Records σ.zone.history.batches σ.l1 hist ∧
      ∀ zone : ZoneBatches W, (∀ p ∈ hist.submissions, zone.fetch p.2 = .ok p.1) →
        ∀ chunks, chunks.reverse.flatten = hist.events →
        let queue := σ.l1.portal.withdrawalQueue
        queue.head < queue.tail → queue.tail < 2 ^ 64 →
        ∃ page rest, fetchPendingWithdrawals zone queue chunks queue queue = .ok page ∧
          σ.l1.history.dequeued ++ page.batches.flatMap snd ++ rest =
            (settledBatches σ.zone.history.batches σ.l1).flatten ∧
          (queue.tail ≤ queue.head + WITHDRAWAL_RECOVERY_PAGE_SIZE → rest = []) := by
  obtain ⟨hist, hrecords⟩ := h.queueHistory hc hsound
  refine ⟨hist, hrecords, fun zone hzone chunks hchunks => ?_⟩
  rw [← hrecords.queue, ← hrecords.dequeued, ← hrecords.settled]
  dsimp only
  intro hpending hbounds
  obtain ⟨p, k, -, -, -, htotal, hpage⟩ := fetchPendingWithdrawals_eq hc hrecords.later .refl .refl
    .refl hzone hchunks hpending hbounds rfl
  -- the slots of the page are the first ones between head and tail
  generalize hpageTail : min hist.queue.tail _ = pageTail at hpage
  unfold saturatingAdd at hpageTail
  have hcut : pageTail - hist.queue.head + (hist.queue.tail - pageTail) =
      hist.queue.tail - hist.queue.head := by omega
  rw [← hcut, ← range'_append_1, flatMap_append, ← append_assoc] at htotal
  refine ⟨_, _, hpage, by rw [flatMap_map]; exact htotal, fun hreaches => ?_⟩
  have hnone : hist.queue.tail - pageTail = 0 := by omega
  rw [hnone]
  rfl

theorem fetchPendingWithdrawals_head {zone : ZoneBatches W} {before slot after : WithdrawalQueue W}
    {page : WithdrawalPage W} (hpending : before.head < before.tail)
    (h : fetchPendingWithdrawals zone before chunks slot after = .ok page) :
    after.head = before.head := by
  unfold fetchPendingWithdrawals at h
  obtain ⟨⟨head, tail⟩, hread, h⟩ := bind_ok_iff.1 h
  unfold readBounds at hread
  split at hread
  · cases hread
    simp only [if_neg (Nat.not_le_of_lt hpending)] at h
    obtain ⟨events, -, h⟩ := bind_ok_iff.1 h
    obtain ⟨slots, -, h⟩ := bind_ok_iff.1 h
    obtain ⟨⟨head2, tail2⟩, hread2, h⟩ := bind_ok_iff.1 h
    unfold readBounds at hread2
    split at hread2
    · cases hread2
      obtain ⟨_, hguard, _⟩ := bind_ok_iff.1 h
      exact (require_ok_iff.1 hguard).1
    · cases hread2
  · cases hread

/-- **Pending withdrawals are recovered exactly.** Let the hash be collision free.

* The processed offset is the one number of withdrawals without which the list has the slot hash,
  and there is none exactly when no suffix has it.
* For reads at any four moments with the same head, recovery returns for the head slot the suffix of
  its batch that was not dequeued at the read of the slot hash, and for every other slot of the page
  its whole batch. What was dequeued and what is pending are together what was settled. If the head
  moved in between, recovery fails.
* A missing event, batch or slot hash is reported, and so are an event or batch that differs from
  the true one while the other is right, and a slot hash that is not that of a suffix. -/
theorem pending_withdrawals_recovered (hc : CollisionFree W) :
    (∀ (ws : List (Withdrawal W)) (hash : W),
      (∀ n, findProcessedOffset ws hash = some n ↔
        n ≤ ws.length ∧ queueHash (ws.drop n) = hash) ∧
      (findProcessedOffset ws hash = none ↔
        ∀ suffix, suffix <:+ ws → queueHash suffix ≠ hash)) ∧
    (∀ (h₁ h₂ h₃ h₄ : QueueHistory W) (zone : ZoneBatches W)
      (chunks : List (List (BatchSubmitted W))),
      QueueHistory.Later .start h₁ → QueueHistory.Later h₁ h₂ → QueueHistory.Later h₂ h₃ →
      QueueHistory.Later h₃ h₄ → (∀ p ∈ h₂.submissions, zone.fetch p.2 = .ok p.1) →
      chunks.reverse.flatten = h₂.events → h₁.queue.head < h₁.queue.tail →
      h₄.queue.tail < 2 ^ 64 →
        let head := h₁.queue.head
        let pageTail := min h₁.queue.tail (saturatingAdd head WITHDRAWAL_RECOVERY_PAGE_SIZE)
        let result := fetchPendingWithdrawals zone h₁.queue chunks h₃.queue h₄.queue
        (h₄.queue.head = head → ∃ p k, h₃.slots[head]? = some p ∧ k < p.1.length ∧
          h₃.dequeued = ((h₃.slots.take head).map fst).flatten ++ p.1.take k ∧
          h₃.dequeued ++ (range' head (h₃.queue.tail - head)).flatMap (h₃.pending head k) =
            (h₃.submissions.map fst).flatten ∧
          result = .ok ⟨head, h₄.queue.tail, (range' head (pageTail - head)).map fun slot =>
            (slot, h₃.pending head k slot)⟩) ∧
        (h₄.queue.head ≠ head → ∃ error, result = .error error)) ∧
    ∀ (truth : ℕ → List (Withdrawal W)) (head tail : ℕ) (events : ℕ → Option (BatchSubmitted W))
      (slotWithdrawals : ℕ → Option (List (Withdrawal W))) (headSlotHash : W),
      Fault truth head tail events slotWithdrawals headSlotHash →
        ∃ error, resolvePendingSlots head tail events slotWithdrawals headSlotHash =
          .error error := by
  refine ⟨?_, ?_, ?_⟩
  · exact fun ws hash =>
      ⟨fun n => findProcessedOffset_eq_some hc, findProcessedOffset_eq_none hc⟩
  · intro h₁ h₂ h₃ h₄ zone chunks hstart h₁₂ h₂₃ h₃₄ hzone hchunks hpending hbounds head pageTail
      result
    constructor
    · intro hhead
      exact fetchPendingWithdrawals_eq hc hstart h₁₂ h₂₃ h₃₄ hzone hchunks hpending hbounds hhead
    · intro hmoved
      -- the last read of the queue notices a head that moved
      cases hresult : result with
      | error error => exact ⟨error, rfl⟩
      | ok page => exact absurd (fetchPendingWithdrawals_head hpending hresult) hmoved
  · exact fun truth head tail events slotWithdrawals headSlotHash hfault => hfault.error hc

namespace Example

def secondPayout : Withdrawal Sym := { payout with recipient := 72 }

def oneBatch : QueueHistory Sym := QueueHistory.start.settle [payout, secondPayout] (.num 5)

theorem oneBatch_later : QueueHistory.Later QueueHistory.start oneBatch := .single (.settled _ _)

def oneBatchZone : ZoneBatches Sym where
  blockNumber := fun _ => some 3
  slotWithdrawals := fun _ => some [payout, secondPayout]

end Example

open Example

/-- The settled batch of the example is recovered as a page with its one withdrawal. -/
theorem sysSettled_recovered :
    ∃ hist, QueueHistory.Records sysSettled.zone.history.batches sysSettled.l1 hist ∧
      ∃ page, fetchPendingWithdrawals ⟨fun _ => some 1, fun _ => some [sent]⟩
          settled8.portal.withdrawalQueue [hist.events] settled8.portal.withdrawalQueue
          settled8.portal.withdrawalQueue = .ok page ∧ page.batches.flatMap snd = [sent] := by
  obtain ⟨hist, hrecords, hrecovers⟩ := recovery_resumes_settled_withdrawals Sym.collisionFree
    platform_sound sysSettled_reachable.trace
  have hzone : ∀ p ∈ hist.submissions, (⟨fun _ => some 1, fun _ => some [sent]⟩ :
      ZoneBatches Sym).fetch p.2 = .ok p.1 := by
    intro p hp
    have hbatch := mem_map_of_mem (f := fst) hp
    rw [hrecords.settled, sysSettled_settled, mem_singleton] at hbatch
    rw [hbatch]
    rfl
  obtain ⟨page, rest, hpage, htotal, hrest⟩ :=
    hrecovers _ hzone [hist.events] (append_nil _) (by decide) (by decide)
  rw [sysSettled_settled, hrest (by decide), append_nil] at htotal
  exact ⟨hist, hrecords, page, hpage, htotal⟩

theorem pending_withdrawals_recovered_example :
    fetchPendingWithdrawals oneBatchZone oneBatch.queue [oneBatch.events]
        oneBatch.queue oneBatch.queue =
      .ok ⟨0, 1, [(0, [payout, secondPayout])]⟩ := by
  have hzone : ∀ p ∈ oneBatch.submissions, oneBatchZone.fetch p.2 = .ok p.1 := by
    intro p hp
    rw [mem_singleton.1 hp]
    rfl
  have hchunks : [oneBatch.events].reverse.flatten = oneBatch.events := rfl
  have hbounds : oneBatch.queue.tail < 2 ^ 64 := by decide
  obtain ⟨p, k, hp, -, hdequeued, -, hresult⟩ :=
    ((pending_withdrawals_recovered Sym.collisionFree).2.1 _ _ _ _ _ _ oneBatch_later .refl
      .refl .refl hzone hchunks Nat.one_pos hbounds).1 rfl
  cases hp
  have hk : k = 0 := by
    cases k with
    | zero => rfl
    | succ k => cases hdequeued
  subst hk
  exact hresult

/-- A slot hash that is altered to the hash of another suffix is not noticed: both withdrawals are
unpaid, and only the second is returned. -/
theorem altered_slot_hash_unnoticed :
    oneBatch.dequeued = [] ∧
      oneBatch.queue.slots 0 =
        queueHash [payout, secondPayout] ∧
      queueHash [secondPayout] ≠ oneBatch.queue.slots 0 ∧
      resolvePendingSlots 0 1 (fun index => oneBatch.events[index]?)
          (fun index => (oneBatch.submissions.map fst)[index]?)
          (queueHash [secondPayout]) =
        .ok [(0, [secondPayout])] := by
  have hbinding := withdrawal_binding Sym.collisionFree
  have hslot : oneBatch.queue.slots 0 =
      queueHash [payout, secondPayout] := rfl
  have hoffset : findProcessedOffset [payout, secondPayout]
      (queueHash [secondPayout]) = some 1 :=
    (findProcessedOffset_eq_some Sym.collisionFree).2 ⟨by decide, rfl⟩
  refine ⟨rfl, hslot, ?_, ?_⟩
  · rw [hslot]
    intro heq
    have hlists := hbinding.suffixChain_injective heq
    cases hlists
  · have hresolve : ∀ slot ∈ range' 0 1, resolveSlot 0
        (fun index => oneBatch.events[index]?)
        (fun index => (oneBatch.submissions.map fst)[index]?)
        (queueHash [secondPayout]) slot = .ok [secondPayout] ∧
          [secondPayout] ≠ [] := by
      intro slot hslot
      rw [mem_range'_1] at hslot
      have hzero : slot = 0 := by omega
      subst hzero
      refine ⟨?_, cons_ne_nil _ _⟩
      have hchecked : ¬ ([payout, secondPayout] = [] ∨
          queueHash [payout, secondPayout] ≠
            queueHash [payout, secondPayout]) := by
        rw [not_or, not_not]
        exact ⟨cons_ne_nil _ _, rfl⟩
      have hbatch : (oneBatch.submissions.map fst)[0]? =
        some [payout, secondPayout] := rfl
      have hevent : oneBatch.events[0]? = some ⟨0, .num 5,
        queueHash [payout, secondPayout]⟩ := rfl
      simp only [resolveSlot, hevent, hbatch, if_neg hchecked, if_true, hoffset]
      rfl
    have hnonzero : ¬ ((0 : ℕ) < 1 ∧ queueHash [secondPayout] = 0) := by
      rintro ⟨-, hzero⟩
      cases hbinding.suffixChain_eq_sentinel.1 hzero
    rw [resolvePendingSlots, if_neg hnonzero]
    exact resolveSlots_eq hresolve

end TempoZones
