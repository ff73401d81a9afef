import Mathlib.Data.Nat.Basic
import Mathlib.Data.List.GetD
import TempoZones.Lib.HashChain

/-!
# Queues of lists behind hash chains

`FifoRun pushed popped content` is a queue of lists: batches enter at the end, empty ones leave no
trace, and elements leave from the front of the oldest batch. What was popped and what is left are
what was pushed (`FifoRun.flatten_eq`). `Represents` says that an array of digests with two counters
stores such a queue, one suffix chain per batch; an element with a remainder digest matches the
front of the array exactly when it is the front of the queue (`Represents.front_iff`).
-/

namespace TempoZones.Lib

open List Function

universe u v

variable {α : Type u} {H : Type v} {popped : List α}

/-! ## The abstract queue -/

def pushBatch (content : List (List α)) (batch : List α) : List (List α) :=
  if batch.isEmpty then content else content ++ [batch]

/-- Queue content after the first element of the oldest batch was popped, with `rest` left in
it. -/
def popFront (rest : List α) (others : List (List α)) : List (List α) :=
  if rest.isEmpty then others else rest :: others

inductive FifoRun : (pushed : List (List α)) → (popped : List α) → (content : List (List α)) → Prop
  | empty : FifoRun [] [] []
  | push {pushed content : List (List α)} {popped : List α} (run : FifoRun pushed popped content)
      (batch : List α) : FifoRun (pushed ++ [batch]) popped (pushBatch content batch)
  | pop {pushed others : List (List α)} {popped rest : List α} {x : α}
      (run : FifoRun pushed popped ((x :: rest) :: others)) :
      FifoRun pushed (popped ++ [x]) (popFront rest others)

theorem flatten_pushBatch (content : List (List α)) (batch : List α) :
    (pushBatch content batch).flatten = content.flatten ++ batch := by
  unfold pushBatch
  split
  · next h => rw [isEmpty_iff.1 h, append_nil]
  · rw [flatten_append, flatten_singleton]

theorem flatten_popFront (rest : List α) (others : List (List α)) :
    (popFront rest others).flatten = rest ++ others.flatten := by
  unfold popFront
  split
  · next h => rw [isEmpty_iff.1 h, nil_append]
  · rfl

variable {pushed content : List (List α)}

theorem FifoRun.flatten_eq (h : FifoRun pushed popped content) :
    popped ++ content.flatten = pushed.flatten := by
  induction h with
  | empty => rfl
  | push _ batch ih => rw [flatten_pushBatch, ← append_assoc, ih, flatten_append, flatten_singleton]
  | pop _ ih =>
    rw [flatten_popFront, ← ih, append_assoc]
    rfl

theorem FifoRun.popped_prefix (h : FifoRun pushed popped content) : popped <+: pushed.flatten :=
  ⟨content.flatten, h.flatten_eq⟩

/-- The batches that take a place in the queue. -/
def nonemptyBatches (batches : List (List α)) : List (List α) :=
  batches.filter fun batch => !batch.isEmpty

/-- Batches without the first `k` elements of the oldest. -/
def dropFront (k : ℕ) : List (List α) → List (List α)
  | [] => []
  | batch :: others => batch.drop k :: others

theorem length_dropFront (k : ℕ) (batches : List (List α)) :
    (dropFront k batches).length = batches.length := by
  cases batches <;> rfl

theorem nonemptyBatches_append (a b : List (List α)) :
    nonemptyBatches (a ++ b) = nonemptyBatches a ++ nonemptyBatches b :=
  filter_append a b

theorem length_pos_of_mem_nonemptyBatches {batches : List (List α)} {batch : List α}
    (h : batch ∈ nonemptyBatches batches) : 0 < batch.length := by
  have hne := (mem_filter.1 h).2
  cases batch with
  | nil => cases hne
  | cons x xs => exact Nat.succ_pos _

/-- The content is what follows the batches that were popped completely, without the elements popped
from the first of them. -/
theorem FifoRun.shape (h : FifoRun pushed popped content) :
    ∃ done rest k, nonemptyBatches pushed = done ++ rest ∧ content = dropFront k rest ∧
      popped = done.flatten ++ (rest.headD []).take k ∧ ∀ batch ∈ rest.head?, k < batch.length := by
  induction h with
  | empty => exact ⟨[], [], 0, rfl, rfl, rfl, nofun⟩
  | @push pushed content popped _ batch ih =>
    obtain ⟨done, rest, k, hpushed, hcontent, hpopped, hk⟩ := ih
    rw [nonemptyBatches_append, hpushed]
    cases batch with
    | nil => exact ⟨done, rest, k, append_nil _, hcontent, hpopped, hk⟩
    | cons x xs =>
      have hone : nonemptyBatches [x :: xs] = [x :: xs] := rfl
      rw [hone, append_assoc]
      cases rest with
      | nil =>
        refine ⟨done, [x :: xs], 0, rfl, ?_, hpopped.trans ?_, ?_⟩
        · rw [hcontent]
          rfl
        · rw [headD_nil, take_nil, take_zero]
        intro batch hbatch
        cases hbatch
        exact Nat.succ_pos _
      | cons first others =>
        refine ⟨done, first :: others ++ [x :: xs], k, rfl, ?_, hpopped, hk⟩
        rw [hcontent]
        rfl
  | @pop pushed others popped rest x _ ih =>
    obtain ⟨done, batches, k, hpushed, hcontent, hpopped, hk⟩ := ih
    cases batches with
    | nil => cases hcontent
    | cons first tail =>
      obtain ⟨hfirst, rfl⟩ := List.cons.inj hcontent
      have hlt : k < first.length := hk first rfl
      have hget : first[k]? = some x := by
        have hhead := congrArg List.head? hfirst
        rw [List.head?_drop] at hhead
        exact hhead.symm
      have hnext : first.take (k + 1) = first.take k ++ [x] := by
        rw [take_add_one, hget]
        rfl
      have hrest : rest = first.drop (k + 1) := by
        rw [← drop_drop, ← hfirst]
        rfl
      have hpopped' : popped ++ [x] = done.flatten ++ first.take (k + 1) := by
        rw [hnext, hpopped, append_assoc]
        rfl
      cases rest with
      | nil =>
        -- the batch is exhausted
        have hall : first.take (k + 1) = first := take_of_length_le (drop_eq_nil_iff.1 hrest.symm)
        refine ⟨done ++ [first], others, 0, ?_, ?_, ?_, ?_⟩
        · rw [hpushed, append_assoc]
          rfl
        · cases others <;> rfl
        · rw [hpopped', hall, flatten_append, flatten_singleton, take_zero, append_nil]
        intro batch hbatch
        have hmem : batch ∈ nonemptyBatches pushed := by
          rw [hpushed]
          exact mem_append_right _ (mem_cons_of_mem _ (mem_of_mem_head? hbatch))
        exact length_pos_of_mem_nonemptyBatches hmem
      | cons y ys =>
        refine ⟨done, first :: others, k + 1, hpushed, ?_, hpopped', ?_⟩
        · rw [dropFront, ← hrest]
          rfl
        intro batch hbatch
        cases hbatch
        by_contra hle
        rw [drop_eq_nil_of_le (Nat.le_of_not_lt hle)] at hrest
        cases hrest

/-! ## Arrays of digests -/

/-- Slots `head` to `tail` hold the chains of the batches, all others the sentinel. -/
structure Represents (link : α → H → H) (z : H) (head tail : ℕ) (slots : ℕ → H)
    (content : List (List α)) : Prop where
  nonempty : ∀ batch ∈ content, batch ≠ []
  tail_eq : tail = head + content.length
  slot : ∀ i, slots (head + i) = suffixChain link z (content.getD i [])
  before : ∀ i, i < head → slots i = z

namespace Represents

variable {link : α → H → H} {z : H} {head tail : ℕ} {slots : ℕ → H} {content : List (List α)}

theorem empty (link : α → H → H) (z : H) (n : ℕ) : Represents link z n n (fun _ => z) [] :=
  ⟨nofun, rfl, fun _ => rfl, fun _ _ => rfl⟩

theorem head_le (h : Represents link z head tail slots content) : head ≤ tail :=
  h.tail_eq ▸ Nat.le_add_right _ _

theorem slot_ne_iff (hb : Binding link z) (h : Represents link z head tail slots content)
    (i : ℕ) : slots i ≠ z ↔ head ≤ i ∧ i < tail := by
  rcases lt_or_ge i head with hi | hi
  · exact iff_of_false (not_not.2 (h.before i hi)) fun h => absurd hi (Nat.not_lt.2 h.1)
  obtain ⟨k, rfl⟩ := Nat.exists_eq_add_of_le hi
  have htail : head + k < tail ↔ k < content.length := by
    rw [h.tail_eq]
    exact Nat.add_lt_add_iff_left
  rw [h.slot k, Ne, hb.suffixChain_eq_sentinel, htail]
  constructor
  · intro hne
    refine ⟨hi, ?_⟩
    by_contra hk
    exact hne (getD_eq_default _ _ (Nat.le_of_not_lt hk))
  · rintro ⟨-, hk⟩
    rw [getD_eq_getElem _ _ hk]
    exact h.nonempty _ (getElem_mem hk)

theorem push (h : Represents link z head tail slots content) {batch : List α} (hne : batch ≠ []) :
    Represents link z head (tail + 1) (update slots tail (suffixChain link z batch))
      (content ++ [batch]) := by
  have htail := h.tail_eq
  constructor
  · intro b hmem
    rcases mem_append.1 hmem with hmem | hmem
    · exact h.nonempty b hmem
    · exact mem_singleton.1 hmem ▸ hne
  · rw [htail, length_append]
    rfl
  · intro i
    rcases lt_trichotomy i content.length with hi | rfl | hi
    · rw [update_of_ne (by omega), h.slot i, getD_append _ _ _ _ hi]
    · rw [← htail, update_self, getD_append_right _ _ _ _ le_rfl, Nat.sub_self]
      rfl
    · rw [update_of_ne (by omega), h.slot i, getD_eq_default _ _ (Nat.le_of_lt hi), getD_eq_default]
      rw [length_append]
      exact hi
  · intro i hi
    rw [update_of_ne (by omega), h.before i hi]

/-- An element list and a remainder digest match the front slot exactly when the list starts the
oldest batch and the digest is that of its rest. -/
theorem front_iff (hb : Binding link z) (h : Represents link z head tail slots content)
    {xs : List α} {r : H} (hxs : xs ≠ []) :
    suffixChain link r xs = slots head ↔
      ∃ rest others, content = (xs ++ rest) :: others ∧ r = suffixChain link z rest := by
  have hslot : slots head = suffixChain link z (content.getD 0 []) := h.slot 0
  rw [hslot, hb.suffixChain_eq_iff hxs]
  cases content with
  | nil =>
    constructor
    · rintro ⟨rest, heq, -⟩
      exact absurd (append_eq_nil_iff.1 heq.symm).1 hxs
    · rintro ⟨rest, others, heq, -⟩
      cases heq
  | cons batch others =>
    constructor
    · rintro ⟨rest, heq, hr⟩
      exact ⟨rest, others, congrArg (· :: others) heq, hr⟩
    · rintro ⟨rest, others', heq, hr⟩
      exact ⟨rest, (List.cons.inj heq).1, hr⟩

theorem pop [DecidableEq H] (hb : Binding link z) {x : α} {rest : List α}
    {others : List (List α)} (h : Represents link z head tail slots ((x :: rest) :: others)) :
    Represents link z (if suffixChain link z rest = z then head + 1 else head) tail
      (update slots head (suffixChain link z rest)) (popFront rest others) := by
  have htail := h.tail_eq
  rw [length_cons] at htail
  have hslot : ∀ i, slots (head + (i + 1)) = suffixChain link z (others.getD i []) :=
    fun i => h.slot (i + 1)
  have hothers : ∀ batch ∈ others, batch ≠ [] := fun b hmem => h.nonempty b (mem_cons_of_mem _ hmem)
  cases rest with
  | nil =>
    -- the batch is exhausted: its slot is cleared and the head moves on
    rw [suffixChain_nil, if_pos rfl]
    refine ⟨hothers, ?_, ?_, ?_⟩
    · rw [htail]
      show head + (others.length + 1) = head + 1 + others.length
      omega
    · intro i
      rw [update_of_ne (by omega), Nat.add_assoc, Nat.add_comm 1 i]
      exact hslot i
    intro i hi
    rcases Nat.lt_succ_iff_lt_or_eq.1 hi with hi | rfl
    · rw [update_of_ne (Nat.ne_of_lt hi), h.before i hi]
    · exact update_self _ _ _
  | cons y ys =>
    have hne : suffixChain link z (y :: ys) ≠ z := hb.link_ne _ _
    rw [if_neg hne]
    refine ⟨?_, htail, ?_, ?_⟩
    · rintro b (_ | ⟨_, hmem⟩)
      · exact cons_ne_nil _ _
      · exact hothers b hmem
    · intro i
      cases i with
      | zero => exact update_self _ _ _
      | succ i =>
        rw [update_of_ne (by omega)]
        exact hslot i
    · intro i hi
      rw [update_of_ne (Nat.ne_of_lt hi), h.before i hi]

end Represents

end TempoZones.Lib
