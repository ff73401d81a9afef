import TempoZones.System.WithdrawalFifo

/-!
# Recovery of pending withdrawals

After a restart the sequencer reads the bounds of the queue, finds the `BatchSubmitted` event of
every pending slot, fetches the withdrawals of that batch from the zone block it names, and reads
the hash of the head slot (`fetchPendingWithdrawals`). The withdrawals of a slot must hash to its
event; those of the head slot are trimmed to the suffix that hashes to the slot, which determines
how many were taken (`findProcessedOffset_eq_some`). Inputs that do not match are reported
(`Fault.error`).
-/

namespace TempoZones

open Lib List Withdrawal Nat

variable {W : Type} [EvmWord W] [DecidableEq W]

/-! ## Processed offset -/

/-- Loop of `find_processed_offset`, from the last withdrawal to the first: the hash of the
withdrawals passed, and the offset at which it was `currentSlotHash`. -/
def scanOffsets (currentSlotHash : W) : List (Withdrawal W) → W × Option ℕ
  | [] => (0, none)
  | w :: ws =>
    let (hash, found) := scanOffsets currentSlotHash ws
    match found with
    | some offset => (hash, some (offset + 1))
    | none =>
      let hash := w.hashWithTail hash
      (hash, if hash = currentSlotHash then some 0 else none)

def findProcessedOffset (withdrawals : List (Withdrawal W)) (currentSlotHash : W) : Option ℕ :=
  if currentSlotHash = 0 then some withdrawals.length
  else (scanOffsets currentSlotHash withdrawals).2

/-- An offset that is found leads to a non-empty suffix with the hash. Without one, the whole list
was hashed and no non-empty suffix has it. -/
theorem scanOffsets_spec (currentSlotHash : W) (ws : List (Withdrawal W)) :
    (∀ n, (scanOffsets currentSlotHash ws).2 = some n →
      n < ws.length ∧ queueHash (ws.drop n) = currentSlotHash) ∧
    ((scanOffsets currentSlotHash ws).2 = none → (scanOffsets currentSlotHash ws).1 = queueHash ws ∧
        ∀ n < ws.length, queueHash (ws.drop n) ≠ currentSlotHash) := by
  induction ws with
  | nil =>
    refine ⟨nofun, fun _ => ⟨rfl, ?_⟩⟩
    exact fun n hn => absurd hn (not_lt_zero n)
  | cons w ws ih =>
    obtain ⟨hsome, hnone⟩ := ih
    rw [scanOffsets]
    cases hfound : (scanOffsets currentSlotHash ws).2 with
    | some offset =>
      obtain ⟨hlt, hhash⟩ := hsome offset hfound
      simp only [hfound]
      refine ⟨?_, nofun⟩
      intro n hn
      cases hn
      exact ⟨succ_lt_succ hlt, hhash⟩
    | none =>
      obtain ⟨hchain, hother⟩ := hnone hfound
      simp only [hfound]
      rw [hchain]
      refine ⟨?_, ?_⟩
      · intro n hn
        split at hn
        · next heq =>
          cases hn
          exact ⟨succ_pos _, heq⟩
        · cases hn
      intro hn
      split at hn
      · cases hn
      · next hne =>
        refine ⟨rfl, ?_⟩
        intro n hlt
        cases n with
        | zero => exact hne
        | succ n => exact hother n (lt_of_succ_lt_succ hlt)

theorem findProcessedOffset_eq_some (hc : CollisionFree W) {ws : List (Withdrawal W)} {hash : W}
    {n : ℕ} : findProcessedOffset ws hash = some n ↔
      n ≤ ws.length ∧ queueHash (ws.drop n) = hash := by
  have hb := withdrawal_binding hc
  have hzero : ∀ {xs : List (Withdrawal W)}, queueHash xs = 0 ↔ xs = [] :=
    hb.suffixChain_eq_sentinel
  unfold findProcessedOffset
  by_cases h : hash = 0
  · subst h
    rw [if_pos rfl, Option.some.injEq, hzero, drop_eq_nil_iff]
    omega
  rw [if_neg h]
  obtain ⟨hsome, hnone⟩ := scanOffsets_spec hash ws
  constructor
  · intro hn
    obtain ⟨hlt, hhash⟩ := hsome n hn
    exact ⟨hlt.le, hhash⟩
  · rintro ⟨hle, hhash⟩
    have hlt : n < ws.length := by
      rcases lt_or_eq_of_le hle with hlt | rfl
      · exact hlt
      · rw [drop_length] at hhash
        exact absurd hhash.symm h
    cases hfound : (scanOffsets hash ws).2 with
    | none => exact absurd hhash ((hnone hfound).2 n hlt)
    | some m =>
      -- two suffixes with one hash have the same length
      obtain ⟨hm, hhash'⟩ := hsome m hfound
      have hdrop := congrArg List.length (hb.suffixChain_injective (hhash'.trans hhash.symm))
      rw [length_drop, length_drop] at hdrop
      have hnm : m = n := by omega
      rw [hnm]

theorem findProcessedOffset_eq_none (hc : CollisionFree W) {ws : List (Withdrawal W)} {hash : W} :
    findProcessedOffset ws hash = none ↔ ∀ suffix, suffix <:+ ws → queueHash suffix ≠ hash := by
  constructor
  · intro hnone suffix hsuffix hhash
    have hdrop := suffix_iff_eq_drop.1 hsuffix
    rw [hdrop] at hhash
    rw [(findProcessedOffset_eq_some hc).2 ⟨sub_le _ _, hhash⟩] at hnone
    cases hnone
  · intro hother
    cases hfound : findProcessedOffset ws hash with
    | none => rfl
    | some n =>
      obtain ⟨-, hhash⟩ := (findProcessedOffset_eq_some hc).1 hfound
      exact absurd hhash (hother _ (drop_suffix n ws))

/-! ## Resolving slots -/

/-- `BatchSubmitted`, as far as recovery reads it. -/
structure BatchSubmitted (W : Type) where
  withdrawalQueueIndex : ℕ
  nextBlockHash : W
  withdrawalQueueHash : W
  deriving DecidableEq

inductive RecoveryError (W : Type) where
  | boundsOverflow
  | duplicateEvent (index : ℕ)
  | zoneBlockNotFound (hash : W)
  | noFinalizedBatch (blockNumber : ℕ)
  | queueChanged (head tail head2 tail2 : ℕ)
  | zeroHeadSlot (head : ℕ)
  | noEvent (portalSlot : ℕ)
  | noWithdrawals (portalSlot : ℕ)
  | hashMismatch (portalSlot : ℕ)
  | unknownOffset (portalSlot : ℕ)
  deriving DecidableEq

/-- Body of the loop of `resolve_pending_slots`: the withdrawals to store for a slot. -/
def resolveSlot (head : ℕ) (events : ℕ → Option (BatchSubmitted W))
    (slotWithdrawals : ℕ → Option (List (Withdrawal W))) (headSlotHash : W) (portalSlot : ℕ) :
    Except (RecoveryError W) (List (Withdrawal W)) :=
  match events portalSlot with
  | none => .error (.noEvent portalSlot)
  | some event =>
    match slotWithdrawals portalSlot with
    | none => .error (.noWithdrawals portalSlot)
    | some withdrawals =>
      if withdrawals = [] ∨ queueHash withdrawals ≠ event.withdrawalQueueHash then
        .error (.hashMismatch portalSlot)
      else if portalSlot = head then
        match findProcessedOffset withdrawals headSlotHash with
        | some offset => .ok (withdrawals.drop offset)
        | none => .error (.unknownOffset portalSlot)
      else .ok withdrawals

/-- Loop of `resolve_pending_slots`. A slot without remaining withdrawals is left out. -/
def resolveSlots (head : ℕ) (events : ℕ → Option (BatchSubmitted W))
    (slotWithdrawals : ℕ → Option (List (Withdrawal W))) (headSlotHash : W) :
    List ℕ → Except (RecoveryError W) (List (ℕ × List (Withdrawal W)))
  | [] => .ok []
  | portalSlot :: rest => do
      let withdrawals ← resolveSlot head events slotWithdrawals headSlotHash portalSlot
      let result ← resolveSlots head events slotWithdrawals headSlotHash rest
      pure (if withdrawals = [] then result else (portalSlot, withdrawals) :: result)

def resolvePendingSlots (head tail : ℕ) (events : ℕ → Option (BatchSubmitted W))
    (slotWithdrawals : ℕ → Option (List (Withdrawal W))) (headSlotHash : W) :
    Except (RecoveryError W) (List (ℕ × List (Withdrawal W))) :=
  if head < tail ∧ headSlotHash = 0 then .error (.zeroHeadSlot head)
  else resolveSlots head events slotWithdrawals headSlotHash (List.range' head (tail - head))

/-! ## Fetching a page -/

def WITHDRAWAL_RECOVERY_PAGE_SIZE : ℕ := 100

/-- `read_portal_withdrawal_queue_bounds`. -/
def readBounds (q : WithdrawalQueue W) : Except (RecoveryError W) (ℕ × ℕ) :=
  if q.head < 2 ^ 64 ∧ q.tail < 2 ^ 64 then .ok (q.head, q.tail) else .error .boundsOverflow

/-- Insertion of the events of one query into the map; an index may occur once. -/
def insertEvents (found : List (BatchSubmitted W)) :
    List (BatchSubmitted W) → Except (RecoveryError W) (List (BatchSubmitted W))
  | [] => .ok found
  | event :: rest =>
    if event.withdrawalQueueIndex ∈ found.map (·.withdrawalQueueIndex) then
      .error (.duplicateEvent event.withdrawalQueueIndex)
    else insertEvents (found ++ [event]) rest

def BatchSubmitted.inRange (first tail : ℕ) (event : BatchSubmitted W) : Bool :=
  decide (first ≤ event.withdrawalQueueIndex ∧ event.withdrawalQueueIndex < tail)

/-- Loop of `find_batch_events_by_index`: the chunks of the chain from the newest to the oldest, until
every index is found. -/
def findBatchEvents (first tail : ℕ) (found : List (BatchSubmitted W)) :
    List (List (BatchSubmitted W)) → Except (RecoveryError W) (List (BatchSubmitted W))
  | [] => .ok found
  | chunk :: rest =>
    if tail - first ≤ found.length then .ok found
    else do
      let found ← insertEvents found (chunk.filter (·.inRange first tail))
      findBatchEvents first tail found rest

def findBatchEventsByIndex (first tail : ℕ) (chunks : List (List (BatchSubmitted W))) :
    Except (RecoveryError W) (List (BatchSubmitted W)) :=
  if tail ≤ first then .ok [] else findBatchEvents first tail [] chunks

/-- Zone blocks, as recovery reads them: the number of a block, and the withdrawals of the batch it
finalizes. -/
structure ZoneBatches (W : Type) where
  blockNumber : W → Option ℕ
  slotWithdrawals : ℕ → Option (List (Withdrawal W))

def ZoneBatches.findBlock (zone : ZoneBatches W) (event : BatchSubmitted W) :
    Except (RecoveryError W) ℕ :=
  (zone.blockNumber event.nextBlockHash).elim (.error (.zoneBlockNotFound event.nextBlockHash)) .ok

/-- `fetch_slot_withdrawals`. -/
def ZoneBatches.fetchSlotWithdrawals (zone : ZoneBatches W) (number : ℕ) :
    Except (RecoveryError W) (List (Withdrawal W)) :=
  (zone.slotWithdrawals number).elim (.error (.noFinalizedBatch number)) .ok

def ZoneBatches.fetch (zone : ZoneBatches W) (event : BatchSubmitted W) :
    Except (RecoveryError W) (List (Withdrawal W)) := do
  let number ← zone.findBlock event
  zone.fetchSlotWithdrawals number

/-- First the block of every slot, then the withdrawals of every block. -/
def fetchSlots (zone : ZoneBatches W) (events : List (BatchSubmitted W)) :
    Except (RecoveryError W) (List (ℕ × List (Withdrawal W))) := do
  let blocks ← events.mapM fun event => do
    let number ← zone.findBlock event
    pure (event.withdrawalQueueIndex, number)
  blocks.mapM fun block => do
    let withdrawals ← zone.fetchSlotWithdrawals block.2
    pure (block.1, withdrawals)

structure WithdrawalPage (W : Type) where
  head : ℕ
  tail : ℕ
  batches : List (ℕ × List (Withdrawal W))

/-- `fetch_pending_withdrawals`: the queue at the first read of its bounds, the events by chunk, the
queue at the read of the head slot, and at the second read of the bounds. -/
def fetchPendingWithdrawals (zone : ZoneBatches W) (before : WithdrawalQueue W)
    (chunks : List (List (BatchSubmitted W))) (slot after : WithdrawalQueue W) :
    Except (RecoveryError W) (WithdrawalPage W) := do
  let (head, tail) ← readBounds before
  let pageTail := min tail (saturatingAdd head WITHDRAWAL_RECOVERY_PAGE_SIZE)
  if tail ≤ head then pure ⟨head, head, []⟩
  else
    let events ← findBatchEventsByIndex head pageTail chunks
    let slots ← fetchSlots zone events
    let headSlotHash := slot.slots head
    let (head2, tail2) ← readBounds after
    require (head2 = head ∧ pageTail ≤ tail2) (RecoveryError.queueChanged head tail head2 tail2)
    let batches ← resolvePendingSlots head pageTail
      (fun index => events.find? fun event => event.withdrawalQueueIndex = index)
      (fun index => (slots.find? fun entry => entry.1 = index).map Prod.snd) headSlotHash
    pure ⟨head, tail2, batches⟩

/-! ## Checked slots -/

section Resolve

variable {head tail : ℕ} {events : ℕ → Option (BatchSubmitted W)}
  {slotWithdrawals : ℕ → Option (List (Withdrawal W))} {headSlotHash : W}

/-- What a slot that resolves was checked for. -/
structure SlotVerified (head : ℕ) (events : ℕ → Option (BatchSubmitted W))
    (slotWithdrawals : ℕ → Option (List (Withdrawal W))) (headSlotHash : W) (slot : ℕ)
    (result : List (Withdrawal W)) : Prop where
  matched : ∃ event ws, events slot = some event ∧ slotWithdrawals slot = some ws ∧ ws ≠ [] ∧
    queueHash ws = event.withdrawalQueueHash ∧
    (slot = head → result <:+ ws ∧ queueHash result = headSlotHash) ∧
    (slot ≠ head → result = ws)

theorem resolveSlot_ok (hc : CollisionFree W) {slot : ℕ} {result : List (Withdrawal W)}
    (h : resolveSlot head events slotWithdrawals headSlotHash slot = .ok result) :
    SlotVerified head events slotWithdrawals headSlotHash slot result := by
  unfold resolveSlot at h
  split at h
  · cases h
  · next event hevent =>
    split at h
    · cases h
    · next ws hws =>
      split at h
      · cases h
      · next hmatch =>
        rw [not_or, not_not] at hmatch
        split at h
        · next hhead =>
          split at h
          · next offset hoffset =>
            cases h
            obtain ⟨-, hhash⟩ := (findProcessedOffset_eq_some hc).1 hoffset
            exact ⟨event, ws, hevent, hws, hmatch.1, hmatch.2,
              fun _ => ⟨drop_suffix _ _, hhash⟩, fun hne => absurd hhead hne⟩
          · cases h
        · next hne =>
          cases h
          exact ⟨event, _, hevent, hws, hmatch.1, hmatch.2, fun hhead => absurd hhead hne,
            fun _ => rfl⟩

theorem resolveSlots_ok {slots : List ℕ} : ∀ {result : List (ℕ × List (Withdrawal W))},
      resolveSlots head events slotWithdrawals headSlotHash slots = .ok result →
      ∀ slot ∈ slots, ∃ ws, resolveSlot head events slotWithdrawals headSlotHash slot = .ok ws ∧
        (ws ≠ [] → (slot, ws) ∈ result) := by
  induction slots with
  | nil => exact nofun
  | cons first rest ih =>
    intro result h slot hslot
    rw [resolveSlots] at h
    obtain ⟨ws, hws, h⟩ := bind_ok_iff.1 h
    obtain ⟨result', hresult', h⟩ := bind_ok_iff.1 h
    cases pure_ok_iff.1 h
    rcases mem_cons.1 hslot with rfl | hslot
    · refine ⟨ws, hws, ?_⟩
      intro hne
      rw [if_neg hne]
      exact mem_cons_self
    · -- an empty slot is skipped, which keeps what the later slots returned
      obtain ⟨ws', hws', hmem⟩ := ih hresult' slot hslot
      refine ⟨ws', hws', ?_⟩
      intro hne
      split
      · exact hmem hne
      · exact mem_cons_of_mem _ (hmem hne)

theorem resolveSlots_eq {f : ℕ → List (Withdrawal W)} {slots : List ℕ}
    (h : ∀ slot ∈ slots, resolveSlot head events slotWithdrawals headSlotHash slot = .ok (f slot) ∧
      f slot ≠ []) :
    resolveSlots head events slotWithdrawals headSlotHash slots =
      .ok (slots.map fun slot => (slot, f slot)) := by
  induction slots with
  | nil => rfl
  | cons first rest ih =>
    obtain ⟨hfirst, hne⟩ := h first mem_cons_self
    rw [resolveSlots, hfirst, ih fun slot hslot => h slot (mem_cons_of_mem _ hslot)]
    change Except.ok (if f first = [] then _ else _) = _
    rw [if_neg hne]
    rfl

/-- An event, a batch or the slot hash is missing or altered: `truth` lists the batches that the
slots really hold. An altered event or batch does not match the other of the two. -/
inductive Fault (truth : ℕ → List (Withdrawal W)) (head tail : ℕ)
    (events : ℕ → Option (BatchSubmitted W))
    (slotWithdrawals : ℕ → Option (List (Withdrawal W))) (headSlotHash : W) : Prop
  | missingEvent (slot : ℕ) (pending : head ≤ slot ∧ slot < tail) (missing : events slot = none)
  | missingBatch (slot : ℕ) (pending : head ≤ slot ∧ slot < tail)
      (missing : slotWithdrawals slot = none)
  | alteredEvent (slot : ℕ) (pending : head ≤ slot ∧ slot < tail)
      (batch : slotWithdrawals slot = some (truth slot))
      (altered : ∀ event ∈ events slot,
        event.withdrawalQueueHash ≠ queueHash (truth slot))
  | alteredBatch (slot : ℕ) (pending : head ≤ slot ∧ slot < tail)
      (event : ∀ event ∈ events slot,
        event.withdrawalQueueHash = queueHash (truth slot))
      (altered : slotWithdrawals slot ≠ some (truth slot))
  | missingHash (pending : head < tail) (missing : headSlotHash = 0)
  | alteredHash (pending : head < tail) (batch : slotWithdrawals head = some (truth head))
      (altered : ∀ suffix, suffix <:+ truth head → queueHash suffix ≠ headSlotHash)

theorem Fault.error (hc : CollisionFree W) {truth : ℕ → List (Withdrawal W)}
    (h : Fault truth head tail events slotWithdrawals headSlotHash) :
    ∃ error, resolvePendingSlots head tail events slotWithdrawals headSlotHash = .error error := by
  cases hresult : resolvePendingSlots head tail events slotWithdrawals headSlotHash with
  | error error => exact ⟨error, rfl⟩
  | ok result =>
    exfalso
    unfold resolvePendingSlots at hresult
    split at hresult
    · cases hresult
    · next hnonzero =>
      -- every pending slot passed its checks
      have hverified : ∀ slot, head ≤ slot ∧ slot < tail →
          ∃ ws, SlotVerified head events slotWithdrawals headSlotHash slot ws := by
        intro slot hslot
        have hmem : slot ∈ List.range' head (tail - head) := by
          rw [mem_range'_1]
          omega
        obtain ⟨ws, hws, -⟩ := resolveSlots_ok hresult slot hmem
        exact ⟨ws, resolveSlot_ok hc hws⟩
      cases h with
      | missingEvent slot pending missing =>
        obtain ⟨-, event, -, hevent, -⟩ := hverified slot pending
        rw [missing] at hevent
        cases hevent
      | missingBatch slot pending missing =>
        obtain ⟨-, -, ws, -, hws, -⟩ := hverified slot pending
        rw [missing] at hws
        cases hws
      | alteredEvent slot pending batch altered =>
        obtain ⟨-, event, ws, hevent, hws, -, hhash, -⟩ := hverified slot pending
        rw [batch] at hws
        cases hws
        exact altered event hevent hhash.symm
      | alteredBatch slot pending event altered =>
        obtain ⟨-, e, ws, hevent, hws, -, hhash, -⟩ := hverified slot pending
        rw [event e hevent] at hhash
        rw [(withdrawal_binding hc).suffixChain_injective hhash] at hws
        exact altered hws
      | missingHash pending missing => exact hnonzero ⟨pending, missing⟩
      | alteredHash pending batch altered =>
        obtain ⟨result', -, ws, -, hws, -, -, hhead, -⟩ := hverified head ⟨le_rfl, pending⟩
        rw [batch] at hws
        cases hws
        obtain ⟨hsuffix, hhash⟩ := hhead rfl
        exact altered result' hsuffix hhash

end Resolve

end TempoZones
