import Mathlib.Algebra.BigOperators.Group.List.Basic
import Mathlib.Algebra.Order.Monoid.Unbundled.WithTop
import Mathlib.Data.Finset.Max
import Mathlib.Data.List.AList
import TempoZones.Lib.Evm
import TempoZones.Lib.SortedMap

/-!
# The block-versioned cache of Tempo storage

`L1StateCacheInner` keeps the values of storage slots at some L1 blocks, and for each address the
blocks whose receipts reported a possible mutation. A read at block `n` may return an older value
when receipts were processed without a gap through `n` and no barrier lies between. The cache is
exact against any storage history that changes a contract only in blocks that report it
(`get_exact`).
-/

namespace TempoZones.L1State

open Lib List AList Nat

def DEFAULT_VERSION_CAPACITY : ℕ := 100000

def MAX_VERSIONS_PER_SLOT : ℕ := 1000

def DEFAULT_INVALIDATION_CAPACITY : ℕ := 100000

structure Limits where
  maxVersions : ℕ
  maxVersions_pos : 0 < maxVersions
  maxVersionsPerSlot : ℕ
  maxInvalidations : ℕ

/-- The bounds `L1StateCacheInner::new` uses. -/
def Limits.default : Limits where
  maxVersions := DEFAULT_VERSION_CAPACITY
  maxVersions_pos := by decide
  maxVersionsPerSlot := MAX_VERSIONS_PER_SLOT
  maxInvalidations := DEFAULT_INVALIDATION_CAPACITY

variable {W : Type} [DecidableEq W]

abbrev Slots (W : Type) := AList fun _ : Address × W => SortedMap ℕ W

structure Eviction (W : Type) where
  keep : Slots W → Slots W
  keep_sublist : ∀ slots, (keep slots).entries.Sublist slots.entries

/-- Number of versions in all histories, the measure of `ByVersionCount`. -/
def versions (slots : Slots W) : ℕ := (slots.entries.map fun e => e.2.length).sum

def popOldest (slots : Slots W) : Slots W :=
  ⟨slots.entries.dropLast, slots.nodupKeys.sublist (dropLast_sublist _)⟩

/-- Drop the least recently used histories while more than `maxVersions` versions are held. -/
def evictOldest (maxVersions : ℕ) : ℕ → Slots W → Slots W
  | 0, slots => slots
  | fuel + 1, slots =>
    if maxVersions < versions slots then evictOldest maxVersions fuel (popOldest slots) else slots

def byVersionCount (maxVersions : ℕ) : Eviction W where
  keep slots := evictOldest maxVersions slots.entries.length slots
  keep_sublist slots := by
    have hfuel : ∀ (fuel : ℕ) (slots : Slots W),
        (evictOldest maxVersions fuel slots).entries.Sublist slots.entries := by
      intro fuel
      induction fuel with
      | zero => exact fun slots => List.Sublist.refl _
      | succ fuel ih =>
        intro slots
        unfold evictOldest
        split
        · exact (ih (popOldest slots)).trans (dropLast_sublist _)
        · exact List.Sublist.refl _
    exact hfuel _ slots

structure L1StateCacheInner (W : Type) where
  slots : Slots W
  invalidations : AList fun _ : Address => Finset ℕ
  invalidationCount : ℕ
  limits : Limits
  coverageStart : ℕ
  coverageEnd : ℕ

namespace L1StateCacheInner

/-- `with_limits`: an empty cache. -/
def withLimits (limits : Limits) : L1StateCacheInner W where
  slots := ∅
  invalidations := ∅
  invalidationCount := 0
  limits := limits
  coverageStart := 0
  coverageEnd := 0

def barriers (c : L1StateCacheInner W) (address : Address) : Finset ℕ :=
  (c.invalidations.lookup address).getD ∅

def storedBarriers (c : L1StateCacheInner W) : ℕ :=
  (c.invalidations.entries.map fun e => e.2.card).sum

def serve (c : L1StateCacheInner W) (history : SortedMap ℕ W) (address : Address)
    (blockNumber : ℕ) : Option W :=
  match history.floor blockNumber with
  | none => none
  | some (cachedBlock, value) =>
    if cachedBlock = blockNumber then some value
    else if c.coverageEnd < blockNumber then none
    -- the latest barrier at or before the block; an address without one has `⊥`
    else if (cachedBlock : WithBot ℕ) <
        ((c.barriers address).filter (· ≤ blockNumber)).max then none
    else some value

/-- `get`: the value and the cache with the history promoted. -/
def get (c : L1StateCacheInner W) (address : Address) (slot : W) (blockNumber : ℕ) :
    Option W × L1StateCacheInner W :=
  match c.slots.lookup (address, slot) with
  | none => (none, c)
  | some history =>
    (c.serve history address blockNumber,
      { c with slots := c.slots.insert (address, slot) history })

/-- The limiter refuses a history over its capacity; otherwise the history becomes the most recently
used one and older ones make room. -/
def insertHistory (limits : Limits) (eviction : Eviction W) (slots : Slots W) (key : Address × W)
    (history : SortedMap ℕ W) : Slots W :=
  if history.length ≤ limits.maxVersions then eviction.keep (slots.insert key history) else slots

def set (c : L1StateCacheInner W) (eviction : Eviction W) (address : Address) (slot : W)
    (blockNumber : ℕ) (value : W) : L1StateCacheInner W :=
  if blockNumber < c.coverageStart then c
  else
    let key := (address, slot)
    let history := ((c.slots.lookup key).getD ∅).insert blockNumber value
    let maxHistory := min c.limits.maxVersionsPerSlot c.limits.maxVersions
    { c with
      slots := insertHistory c.limits eviction (c.slots.erase key) key (history.trimTo maxHistory) }

def reset (c : L1StateCacheInner W) (floor : ℕ) : L1StateCacheInner W :=
  { c with
    slots := ∅
    invalidations := ∅
    invalidationCount := 0
    coverageStart := floor
    coverageEnd := floor }

def insertBarrier (c : L1StateCacheInner W) (anchor : ℕ) (address : Address) :
    L1StateCacheInner W :=
  { c with
    invalidations := c.invalidations.insert address (insert anchor (c.barriers address))
    invalidationCount :=
      c.invalidationCount + if anchor ∈ c.barriers address then 0 else 1 }

/-- The barrier loop of `invalidate_and_set_anchor`: over the capacity the cache is cleared and the
rest of the addresses is skipped. -/
def recordBarriers (anchor : ℕ) : List Address → L1StateCacheInner W → L1StateCacheInner W
  | [], c => { c with coverageEnd := anchor }
  | address :: rest, c =>
    let c' := c.insertBarrier anchor address
    if c'.limits.maxInvalidations < c'.invalidationCount then c'.reset anchor
    else recordBarriers anchor rest c'

def invalidateAndSetAnchor (c : L1StateCacheInner W) (anchor : ℕ)
    (invalidatedAddresses : List Address) : L1StateCacheInner W :=
  if checkedAddU64 c.coverageEnd 1 ≠ some anchor then c.reset anchor
  else recordBarriers anchor invalidatedAddresses c

/-! ## Evicted and trimmed histories -/

theorem lookup_insertHistory {limits : Limits} {eviction : Eviction W} {slots : Slots W}
    {key key' : Address × W} {history found : SortedMap ℕ W}
    (h : (insertHistory limits eviction (slots.erase key) key history).lookup key' = some found) :
    (key' = key ∧ found = history) ∨ slots.lookup key' = some found := by
  -- an evicted or refused history only removes entries
  have hkept : ((slots.erase key).insert key history).lookup key' = some found ∨
      (slots.erase key).lookup key' = some found := by
    unfold insertHistory at h
    split at h
    · exact .inl (mem_lookup_iff.2 ((eviction.keep_sublist _).subset (mem_lookup_iff.1 h)))
    · exact .inr h
  by_cases hkey : key' = key
  · subst hkey
    rcases hkept with h | h
    · rw [lookup_insert] at h
      exact .inl ⟨rfl, (Option.some.inj h).symm⟩
    · rw [lookup_erase] at h
      cases h
  rcases hkept with h | h
  · rw [lookup_insert_ne hkey, lookup_erase_ne hkey] at h
    exact .inr h
  · rw [lookup_erase_ne hkey] at h
    exact .inr h

/-! ## Counting barriers -/

theorem sum_card_kerase (a : Address) (l : List (Sigma fun _ : Address => Finset ℕ)) :
    ((l.kerase a).map fun e => e.2.card).sum + ((l.dlookup a).getD ∅).card =
      (l.map fun e => e.2.card).sum := by
  induction l with
  | nil => rfl
  | cons e l ih =>
    rcases e with ⟨a', blocks⟩
    by_cases h : a = a'
    · subst h
      simp [add_comm]
    rw [kerase_cons_ne h, dlookup_cons_ne _ _ h]
    simp only [map_cons, sum_cons]
    omega

omit [DecidableEq W] in
theorem storedBarriers_insertBarrier (c : L1StateCacheInner W) (anchor : ℕ) (address : Address) :
    (c.insertBarrier anchor address).storedBarriers =
      c.storedBarriers + if anchor ∈ c.barriers address then 0 else 1 := by
  have hrest := sum_card_kerase address c.invalidations.entries
  have hcard : (insert anchor (c.barriers address)).card =
      (c.barriers address).card + if anchor ∈ c.barriers address then 0 else 1 := by
    split
    · next h => rw [Finset.insert_eq_of_mem h, add_zero]
    · next h => rw [Finset.card_insert_of_notMem h]
  have hlookup : (c.invalidations.entries.dlookup address).getD ∅ = c.barriers address := rfl
  rw [hlookup] at hrest
  simp only [storedBarriers, insertBarrier, entries_insert, map_cons, sum_cons, hcard]
  omega

omit [DecidableEq W] in
@[simp] theorem barriers_insertBarrier_self (c : L1StateCacheInner W) (anchor : ℕ)
    (address : Address) :
    (c.insertBarrier anchor address).barriers address = insert anchor (c.barriers address) := by
  simp [barriers, insertBarrier]

omit [DecidableEq W] in
theorem barriers_subset_insertBarrier (c : L1StateCacheInner W) (anchor : ℕ)
    (address other : Address) :
    c.barriers other ⊆ (c.insertBarrier anchor address).barriers other := by
  by_cases h : other = address
  · subst h
    rw [barriers_insertBarrier_self]
    exact Finset.subset_insert _ _
  · simp [barriers, insertBarrier, lookup_insert_ne h]

end L1StateCacheInner

open L1StateCacheInner

/-! ## Exactness -/

section Exactness

variable (truth : ℕ → Address → W → W) (reported : ℕ → Set Address)

def ChangesReported : Prop :=
  ∀ (block : ℕ) (address : Address) (slot : W),
    truth (block + 1) address slot ≠ truth block address slot → address ∈ reported (block + 1)

/-- The cached versions are true and not older than the coverage, every block after the coverage
floor has its barriers, and the counter counts them. -/
structure Sound (c : L1StateCacheInner W) : Prop where
  versions : ∀ (address : Address) (slot : W) (history : SortedMap ℕ W),
    c.slots.lookup (address, slot) = some history →
      ∀ e ∈ history, c.coverageStart ≤ e.1 ∧ e.2 = truth e.1 address slot
  barriers : ∀ block, c.coverageStart < block → block ≤ c.coverageEnd →
    ∀ address ∈ reported block, block ∈ c.barriers address
  count : c.invalidationCount = c.storedBarriers

/-- The calls a cache receives: reads, true values at any block, and anchors in any order with at
least the reported addresses. -/
inductive Step : L1StateCacheInner W → L1StateCacheInner W → Prop
  | get (c : L1StateCacheInner W) (address : Address) (slot : W) (blockNumber : ℕ) :
      Step c (c.get address slot blockNumber).2
  | set (c : L1StateCacheInner W) (eviction : Eviction W) (address : Address) (slot : W)
      (blockNumber : ℕ) :
      Step c (c.set eviction address slot blockNumber (truth blockNumber address slot))
  | invalidateAndSetAnchor (c : L1StateCacheInner W) (anchor : ℕ)
      (invalidatedAddresses : List Address)
      (h : ∀ address ∈ reported anchor, address ∈ invalidatedAddresses) :
      Step c (c.invalidateAndSetAnchor anchor invalidatedAddresses)

variable {truth reported}

theorem ChangesReported.constant (hchanges : ChangesReported truth reported) {address : Address}
    (slot : W) {m n : ℕ} (hmn : m ≤ n)
    (hquiet : ∀ block, m < block → block ≤ n → address ∉ reported block) :
    truth n address slot = truth m address slot := by
  induction n, hmn using le_induction with
  | base => rfl
  | succ n hmn ih =>
    have hstep : truth (n + 1) address slot = truth n address slot := by
      by_contra hne
      exact hquiet (n + 1) (lt_succ_of_le hmn) le_rfl (hchanges n address slot hne)
    rw [hstep]
    exact ih fun block hlow hhigh => hquiet block hlow (le_succ_of_le hhigh)

namespace Sound

theorem withLimits (limits : Limits) :
    Sound truth reported (L1StateCacheInner.withLimits limits) where
  versions address slot history h := by
    rw [L1StateCacheInner.withLimits, lookup_empty] at h
    cases h
  barriers block hlow hhigh := absurd hhigh (not_le.2 hlow)
  count := rfl

theorem reset (c : L1StateCacheInner W) (floor : ℕ) : Sound truth reported (c.reset floor) where
  versions address slot history h := by
    rw [L1StateCacheInner.reset, lookup_empty] at h
    cases h
  barriers block hlow hhigh := absurd hhigh (not_le.2 hlow)
  count := rfl

variable {c : L1StateCacheInner W}

theorem get (h : Sound truth reported c) (address : Address) (slot : W) (blockNumber : ℕ) :
    Sound truth reported (c.get address slot blockNumber).2 := by
  unfold L1StateCacheInner.get
  split
  · exact h
  · next history hlookup =>
    refine ⟨?_, h.barriers, h.count⟩
    intro address' slot' history' h'
    by_cases hkey : (address', slot') = (address, slot)
    · obtain ⟨rfl, rfl⟩ := Prod.mk.injEq _ _ _ _ ▸ hkey
      rw [lookup_insert] at h'
      rw [← Option.some.inj h']
      exact h.versions _ _ history hlookup
    · rw [lookup_insert_ne hkey] at h'
      exact h.versions _ _ _ h'

theorem set (h : Sound truth reported c) (eviction : Eviction W) (address : Address) (slot : W)
    (blockNumber : ℕ) :
    Sound truth reported
      (c.set eviction address slot blockNumber (truth blockNumber address slot)) := by
  unfold L1StateCacheInner.set
  split
  · exact h
  · next hfloor =>
    refine ⟨?_, h.barriers, h.count⟩
    intro address' slot' history' h' e he
    rcases lookup_insertHistory h' with ⟨hkey, rfl⟩ | hold
    · obtain ⟨rfl, rfl⟩ := Prod.mk.injEq _ _ _ _ ▸ hkey
      rcases SortedMap.mem_insert.1 (SortedMap.mem_of_mem_trimTo he) with rfl | ⟨hmem, -⟩
      · exact ⟨not_lt.1 hfloor, rfl⟩
      · -- an older version comes from the history the slot had
        cases hlookup : c.slots.lookup (address', slot') with
        | none =>
          rw [hlookup] at hmem
          exact absurd hmem (SortedMap.notMem_empty e)
        | some history =>
          rw [hlookup] at hmem
          exact h.versions _ _ history hlookup e hmem
    · exact h.versions _ _ _ hold e he

/-- The barrier loop: the barriers of `anchor` that are still missing belong to the addresses left in
the list, so the coverage may move to `anchor` when the list is empty. -/
theorem recordBarriers {anchor : ℕ} (hanchor : anchor = c.coverageEnd + 1)
    (addresses : List Address) (h : Sound truth reported c)
    (hleft : ∀ address ∈ reported anchor, anchor ∈ c.barriers address ∨ address ∈ addresses) :
    Sound truth reported (recordBarriers anchor addresses c) := by
  induction addresses generalizing c with
  | nil =>
    refine ⟨h.versions, ?_, h.count⟩
    intro block hlow hhigh address haddress
    rcases lt_or_ge block anchor with hlt | hge
    · exact h.barriers block hlow (by omega) address haddress
    · obtain rfl : block = anchor := le_antisymm hhigh hge
      exact (hleft address haddress).resolve_right not_mem_nil
  | cons address rest ih =>
    simp only [recordBarriers]
    split
    · exact Sound.reset _ _
    apply ih (c := c.insertBarrier anchor address) hanchor
    · refine ⟨h.versions, ?_, ?_⟩
      · intro block hlow hhigh other hother
        exact barriers_subset_insertBarrier c anchor address other
          (h.barriers block hlow hhigh other hother)
      · rw [storedBarriers_insertBarrier, ← h.count]
        rfl
    intro other hother
    rcases hleft other hother with hstored | hlisted
    · exact .inl (barriers_subset_insertBarrier c anchor address other hstored)
    rcases mem_cons.1 hlisted with rfl | hrest
    · rw [barriers_insertBarrier_self]
      exact .inl (Finset.mem_insert_self _ _)
    · exact .inr hrest

section

variable (h : Sound truth reported c)
include h

theorem invalidateAndSetAnchor {anchor : ℕ} {addresses : List Address}
    (haddresses : ∀ address ∈ reported anchor, address ∈ addresses) :
    Sound truth reported (c.invalidateAndSetAnchor anchor addresses) := by
  unfold L1StateCacheInner.invalidateAndSetAnchor
  split
  · exact Sound.reset _ _
  · next hnext =>
    have hanchor : anchor = c.coverageEnd + 1 := by
      rw [not_not, checkedAddU64] at hnext
      split at hnext
      · exact (Option.some.inj hnext).symm
      · cases hnext
    exact h.recordBarriers hanchor addresses fun address haddress =>
      .inr (haddresses address haddress)

theorem step {c' : L1StateCacheInner W} (hstep : Step truth reported c c') :
    Sound truth reported c' := by
  cases hstep with
  | get address slot blockNumber => exact h.get address slot blockNumber
  | set eviction address slot blockNumber => exact h.set eviction address slot blockNumber
  | invalidateAndSetAnchor anchor addresses haddresses => exact h.invalidateAndSetAnchor haddresses

theorem run {c' : L1StateCacheInner W} (hrun : Relation.ReflTransGen (Step truth reported) c c') :
    Sound truth reported c' := by
  induction hrun with
  | refl => exact h
  | tail _ hstep ih => exact ih.step hstep

/-- A served value is the value at the requested block: either it was cached for that block, or the
blocks after it are covered and none of them reports the contract. -/
theorem serve (hchanges : ChangesReported truth reported) {address : Address} {slot : W}
    {history : SortedMap ℕ W} (hlookup : c.slots.lookup (address, slot) = some history)
    {blockNumber : ℕ} {value : W} (hserve : c.serve history address blockNumber = some value) :
    value = truth blockNumber address slot := by
  unfold L1StateCacheInner.serve at hserve
  split at hserve
  · cases hserve
  · next cachedBlock cached hfloor =>
    obtain ⟨hmem, hle, -⟩ := SortedMap.floor_eq_some_iff.1 hfloor
    obtain ⟨hstart, htrue⟩ := h.versions _ _ history hlookup _ hmem
    dsimp only at hle hstart htrue
    split at hserve
    · next hexact =>
      subst hexact
      rw [← Option.some.inj hserve, htrue]
    split at hserve
    · cases hserve
    · next hcovered =>
      split at hserve
      · cases hserve
      · next hbarrier =>
        rw [← Option.some.inj hserve, htrue]
        refine (hchanges.constant slot hle ?_).symm
        intro block hlow hhigh hreported
        -- a reporting block in between would have left a barrier above the cached version
        have hstored := h.barriers block (by omega) (by omega) address hreported
        have hwithin : block ∈ (c.barriers address).filter (· ≤ blockNumber) :=
          Finset.mem_filter.2 ⟨hstored, hhigh⟩
        exact hbarrier (lt_of_lt_of_le (WithBot.coe_lt_coe.2 hlow) (Finset.le_max hwithin))

end

end Sound

/-- Along every sequence of calls from an empty cache, a read returns the value of the requested
block or nothing, and the barrier counter counts the stored barriers. -/
theorem get_exact (hchanges : ChangesReported truth reported) (limits : Limits)
    {c : L1StateCacheInner W}
    (hrun : Relation.ReflTransGen (Step truth reported) (withLimits limits) c) :
    (∀ (address : Address) (slot : W) (blockNumber : ℕ) (value : W),
      (c.get address slot blockNumber).1 = some value → value = truth blockNumber address slot) ∧
    c.invalidationCount = c.storedBarriers := by
  have hsound : Sound truth reported c := (Sound.withLimits limits).run hrun
  refine ⟨?_, hsound.count⟩
  intro address slot blockNumber value hget
  unfold L1StateCacheInner.get at hget
  split at hget
  · cases hget
  · next history hlookup => exact hsound.serve hchanges hlookup hget

end Exactness

namespace Example

def truth (block : ℕ) (address : Address) (slot : ℕ) : ℕ :=
  if address = 1 ∧ slot = 0 then (if block < 2 then 5 else 7) else 0

def reported (block : ℕ) : Set Address := { address | block = 2 ∧ address = 1 }

def limits : Limits where
  maxVersions := 2
  maxVersions_pos := by decide
  maxVersionsPerSlot := 3
  maxInvalidations := 1

def anchored : L1StateCacheInner ℕ :=
  (((withLimits limits).set (byVersionCount 2) 1 0 1 5).invalidateAndSetAnchor
    1 []).invalidateAndSetAnchor 2 [1]

def refreshed : L1StateCacheInner ℕ :=
  (anchored.set (byVersionCount 2) 1 0 2 7).invalidateAndSetAnchor 3 []

theorem changesReported : ChangesReported truth reported := by
  intro block address slot hne
  by_cases h : address = 1 ∧ slot = 0
  · simp only [truth, h, and_self, if_true] at hne
    refine ⟨?_, h.1⟩
    by_contra hblock
    apply hne
    split <;> split <;> omega
  · simp [truth, h] at hne

theorem refreshed_run :
    Relation.ReflTransGen (Step truth reported) (withLimits limits) refreshed := by
  refine ((((Relation.ReflTransGen.single (Step.set _ (byVersionCount 2) 1 0 1)).tail
    (Step.invalidateAndSetAnchor _ 1 [] ?_)).tail
    (Step.invalidateAndSetAnchor _ 2 [1] ?_)).tail
    (Step.set _ (byVersionCount 2) 1 0 2)).tail
    (Step.invalidateAndSetAnchor _ 3 [] ?_)
  · rintro address ⟨hblock, -⟩
    exact absurd hblock (by decide)
  · rintro address ⟨-, rfl⟩
    exact mem_singleton_self _
  · rintro address ⟨hblock, -⟩
    exact absurd hblock (by decide)

/-- The barrier hides the old value, and the refreshed one is served for the later block. -/
theorem get_exact_refreshed :
    (anchored.get 1 0 2).1 = none ∧ (refreshed.get 1 0 3).1 = some 7 ∧ 7 = truth 3 1 0 ∧
      refreshed.invalidationCount = refreshed.storedBarriers := by
  obtain ⟨hget, hcount⟩ := get_exact changesReported limits refreshed_run
  exact ⟨by decide, by decide, hget 1 0 3 7 (by decide), hcount⟩

end Example

end TempoZones.L1State
