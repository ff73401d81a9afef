import TempoZones.P2p.LeadershipSchedule

/-!
# Schedule answers are exact

`Node` follows a schedule with the records of the history observed so far and those to come. Its
steps publish the next record, replay an observed one, install the recovery directive, and record
applied anchors in any order. `Window` says that the retained entries are the stored records from
some activation on; `RecoveryTracks` relates an installed recovery to the stored records. For
anchors above the applied one they determine `leader_for` (`leaderFor_exact`).
-/

namespace TempoZones.P2p

open Lib List LeadershipScheduleState LeadershipState SortedMap Option

variable {K W : Type} [DecidableEq K] [DecidableEq W]

/-! ## Stored records -/

def clampFirst : List (LeadershipState K) → List (LeadershipState K)
  | [] => []
  | r :: rest => { r with activationTempoBlock := 0 } :: rest

theorem clampFirst_append {rs : List (LeadershipState K)} (h : rs ≠ [])
    (rest : List (LeadershipState K)) : clampFirst (rs ++ rest) = clampFirst rs ++ rest := by
  cases rs with
  | nil => exact absurd rfl h
  | cons r rs => rfl

theorem clampFirst_isChain {rs : List (LeadershipState K)}
    (h : rs.IsChain LeadershipState.Precedes) :
    (clampFirst rs).IsChain LeadershipState.Precedes := by
  cases rs with
  | nil => exact h
  | cons r rest =>
    cases rest with
    | nil => exact .singleton _
    | cons next rest =>
      rw [isChain_cons_cons] at h
      refine isChain_cons_cons.2 ⟨⟨h.1.1, ?_⟩, h.2⟩
      exact Nat.lt_of_le_of_lt (Nat.zero_le _) h.1.2

/-! ## Retained entries -/

/-- The retained entries are the stored records from activation `low` on, and what was pruned lies
below an applied anchor. -/
structure Window (stored : List (LeadershipState K)) (applied : Option ℕ)
    (transitions : SortedMap ℕ (LeadershipState K)) (low : ℕ) : Prop where
  mem : ∀ e, e ∈ transitions ↔ e.2 ∈ stored ∧ e.1 = e.2.activationTempoBlock ∧ low ≤ e.1
  low_le : low = 0 ∨ ∃ x ∈ applied, low ≤ x ∧ ∃ r ∈ stored, r.activationTempoBlock = low

namespace Window

variable {stored : List (LeadershipState K)} {applied : Option ℕ}
  {transitions : SortedMap ℕ (LeadershipState K)} {low : ℕ}

theorem mem_of_stored (h : Window stored applied transitions low) {r : LeadershipState K}
    (hr : r ∈ stored) (hlow : low ≤ r.activationTempoBlock) :
    (r.activationTempoBlock, r) ∈ transitions :=
  (h.mem _).2 ⟨hr, rfl, hlow⟩

theorem last_eq {front : List (LeadershipState K)} {l : LeadershipState K}
    (h : Window (front ++ [l]) applied transitions low)
    (hordered : (front ++ [l]).Pairwise LeadershipState.Before) :
    transitions.last? = some (l.activationTempoBlock, l) := by
  have hmax : ∀ r ∈ front ++ [l], r.activationTempoBlock ≤ l.activationTempoBlock := by
    intro r hr
    rcases mem_append.1 hr with hfront | hlast
    · exact ((pairwise_append.1 hordered).2.2 r hfront l (mem_singleton_self l)).2.le
    · rw [mem_singleton.1 hlast]
  have hlow : low ≤ l.activationTempoBlock := by
    rcases h.low_le with rfl | ⟨-, -, -, r, hr, rfl⟩
    · exact Nat.zero_le _
    · exact hmax r hr
  refine last_eq_some_iff.2 ⟨h.mem_of_stored (by simp) hlow, ?_⟩
  intro e he
  obtain ⟨hr, hkey, -⟩ := (h.mem e).1 he
  rw [hkey]
  exact hmax e.2 hr

theorem insert (h : Window stored applied transitions low) {next : LeadershipState K}
    (hlater : ∀ r ∈ stored, r.activationTempoBlock < next.activationTempoBlock)
    (hlow : low ≤ next.activationTempoBlock) :
    Window (stored ++ [next]) applied (transitions.insert next.activationTempoBlock next) low where
  mem e := by
    rw [mem_insert, mem_append, mem_singleton, h.mem]
    constructor
    · rintro (rfl | ⟨⟨hr, hkey, hle⟩, -⟩)
      · exact ⟨.inr rfl, rfl, hlow⟩
      · exact ⟨.inl hr, hkey, hle⟩
    · rintro ⟨hr | hnext, hkey, hle⟩
      · refine .inr ⟨⟨hr, hkey, hle⟩, ?_⟩
        rw [hkey]
        exact ne_of_lt (hlater e.2 hr)
      · exact .inl (Prod.ext (hkey.trans (congrArg _ hnext)) hnext)
  low_le := by
    rcases h.low_le with hzero | ⟨x, hx, hle, r, hr, heq⟩
    · exact .inl hzero
    · exact .inr ⟨x, hx, hle, r, mem_append_left _ hr, heq⟩

theorem prune {s : LeadershipScheduleState K W} (h : Window stored applied s.transitions low)
    {x : ℕ} (happlied : ∀ y ∈ applied, y ≤ x) : ∃ low', Window stored (some x) (s.prune x) low' := by
  have hkeep : Window stored (some x) s.transitions low := by
    refine ⟨h.mem, ?_⟩
    rcases h.low_le with hzero | ⟨y, hy, hle, hr⟩
    · exact .inl hzero
    · exact .inr ⟨x, rfl, hle.trans (happlied y hy), hr⟩
  unfold LeadershipScheduleState.prune LeadershipScheduleState.keepFrom
  cases hactive : s.transitions.floor (saturatingAdd x 1) with
  | none => exact ⟨low, hkeep⟩
  | some active =>
    obtain ⟨hmem, hnext, -⟩ := floor_eq_some_iff.1 hactive
    dsimp only [map_some]
    cases hbelow : s.transitions.below active.1 with
    | none =>
      -- nothing lies below the active entry, so nothing is dropped
      refine ⟨low, fun e => ?_, hkeep.low_le⟩
      rw [SortedMap.mem_filter, decide_eq_true_eq, h.mem]
      refine ⟨fun he => he.1, fun he => ⟨he, ?_⟩⟩
      exact SortedMap.below_eq_none_iff.1 hbelow e ((h.mem e).2 he)
    | some predecessor =>
      obtain ⟨hpred, hlt, -⟩ := SortedMap.below_eq_some_iff.1 hbelow
      obtain ⟨hstored, hkey, hlow⟩ := (h.mem predecessor).1 hpred
      refine ⟨predecessor.1, fun e => ?_, .inr ⟨x, rfl, ?_, predecessor.2, hstored, hkey.symm⟩⟩
      · rw [SortedMap.mem_filter, decide_eq_true_eq, h.mem]
        constructor
        · rintro ⟨⟨hr, hkey', -⟩, hle⟩
          exact ⟨hr, hkey', hle⟩
        · rintro ⟨hr, hkey', hle⟩
          exact ⟨⟨hr, hkey', hlow.trans hle⟩, hle⟩
      · have hsucc : saturatingAdd x 1 ≤ x + 1 := min_le_left _ _
        omega

theorem floor_eq (h : Window stored applied transitions low)
    (hordered : stored.Pairwise LeadershipState.Before) {a : ℕ} (habove : ∀ x ∈ applied, x < a)
    {e : ℕ × LeadershipState K} (he : (byActivation stored hordered).floor a = some e) :
    transitions.floor a = some e := by
  obtain ⟨hmem, hle, hmax⟩ := floor_eq_some_iff.1 he
  obtain ⟨hstored, hkey⟩ := mem_byActivation.1 hmem
  have hlow : low ≤ e.1 := by
    rcases h.low_le with rfl | ⟨x, hx, hlx, r, hr, rfl⟩
    · exact Nat.zero_le _
    · have hbelow : r.activationTempoBlock ≤ a := hlx.trans (habove x hx).le
      exact hmax (r.activationTempoBlock, r) (mem_byActivation.2 ⟨hr, rfl⟩) hbelow
  refine floor_eq_some_iff.2 ⟨(h.mem e).2 ⟨hstored, hkey, hlow⟩, hle, ?_⟩
  intro e' he' hle'
  obtain ⟨hr, hkey', -⟩ := (h.mem e').1 he'
  exact hmax e' (mem_byActivation.2 ⟨hr, hkey'⟩) hle'

end Window

/-! ## Recovery -/

/-- `bound` separates the anchors of the recovery from those of the portal: it is the activation of
a stored record with an epoch of the recovery or later, and not above that of another one unless it
lies below the start. -/
structure Bounds (d : RecoveryDirective K W) (stored : List (LeadershipState K)) (bound : ℕ) :
    Prop where
  attained : ∃ r ∈ stored, d.epoch ≤ r.epoch ∧ r.activationTempoBlock = bound
  least : ∀ r ∈ stored, d.epoch ≤ r.epoch →
    bound ≤ r.activationTempoBlock ∨ bound < d.recoveryStartTempoBlock

inductive RecoveryTracks (d : RecoveryDirective K W) (stored : List (LeadershipState K))
    (applied : Option ℕ) : Bool → Option (ForcedRecoveryState K W) → Prop
  | absent : RecoveryTracks d stored applied false none
  | completed {x : ℕ} {r : LeadershipState K} (happlied : x ∈ applied) (hr : r ∈ stored)
      (hepoch : d.epoch ≤ r.epoch) (hle : r.activationTempoBlock ≤ x) :
      RecoveryTracks d stored applied true none
  | active (hopen : ∀ r ∈ stored, r.epoch < d.epoch) :
      RecoveryTracks d stored applied true (some ⟨d, none⟩)
  | bounded {bound : ℕ} (hbounds : Bounds d stored bound) :
      RecoveryTracks d stored applied true (some ⟨d, some bound⟩)

namespace RecoveryTracks

variable {d : RecoveryDirective K W} {stored : List (LeadershipState K)} {applied : Option ℕ}
  {installed : Bool} {s : LeadershipScheduleState K W} {low : ℕ}

/-- Bounding an unbounded recovery. When a record of the recovery epoch or later is pruned already,
the lower end of the window lies below the start of the recovery. -/
theorem maybeBound (hwindow : Window stored s.appliedAnchor s.transitions low)
    (hordered : stored.Pairwise LeadershipState.Before)
    (hrecovery : s.forcedRecovery = some ⟨d, none⟩)
    (hpruned : ∀ r ∈ stored, d.epoch ≤ r.epoch → low ≤ r.activationTempoBlock ∨
      low < d.recoveryStartTempoBlock) :
    RecoveryTracks d stored applied true s.maybeBoundForcedRecovery.forcedRecovery := by
  -- the record at the lower end is at least as late as a pruned one
  have hlower : ∀ r ∈ stored, d.epoch ≤ r.epoch → ¬ low ≤ r.activationTempoBlock →
      ∃ first ∈ stored, d.epoch ≤ first.epoch ∧ first.activationTempoBlock = low := by
    intro r hr hepoch hlow
    rcases hwindow.low_le with rfl | ⟨-, -, -, first, hfirst, rfl⟩
    · exact absurd (Nat.zero_le _) hlow
    · have hle := epoch_le_of_activation_le hordered hr hfirst (by omega)
      exact ⟨first, hfirst, hepoch.trans hle, rfl⟩
  rw [maybeBoundForcedRecovery, hrecovery]
  simp only [isSome_none, Bool.false_eq_true, if_false]
  split
  · next hnone =>
    rw [hrecovery]
    refine .active fun r hr => ?_
    by_contra hepoch
    have hkept : ∃ r' ∈ stored, d.epoch ≤ r'.epoch ∧ low ≤ r'.activationTempoBlock := by
      by_cases hlow : low ≤ r.activationTempoBlock
      · exact ⟨r, hr, Nat.not_lt.1 hepoch, hlow⟩
      · obtain ⟨first, hfirst, hepoch', hact⟩ := hlower r hr (Nat.not_lt.1 hepoch) hlow
        exact ⟨first, hfirst, hepoch', hact.ge⟩
    obtain ⟨r', hr', hepoch', hlow'⟩ := hkept
    have hfalse := findFirst_eq_none_iff.1 hnone _ (hwindow.mem_of_stored hr' hlow')
    exact absurd hepoch' (of_decide_eq_false hfalse)
  · next key record hfirst =>
    obtain ⟨hmem, hepoch, hleast⟩ := findFirst_eq_some_iff.1 hfirst
    obtain ⟨hstored, hkey, -⟩ := (hwindow.mem _).1 hmem
    have hmin : ∀ r ∈ stored, d.epoch ≤ r.epoch → low ≤ r.activationTempoBlock →
        record.activationTempoBlock ≤ r.activationTempoBlock := by
      intro r hr hepoch' hlow
      have hle := hleast _ (hwindow.mem_of_stored hr hlow) (decide_eq_true hepoch')
      exact hkey ▸ hle
    refine .bounded ⟨⟨record, hstored, of_decide_eq_true hepoch, rfl⟩, fun r hr hepoch' => ?_⟩
    by_cases hlow : low ≤ r.activationTempoBlock
    · exact .inl (hmin r hr hepoch' hlow)
    obtain ⟨first, hfirst, hepoch'', hact⟩ := hlower r hr hepoch' hlow
    have hbound := hmin first hfirst hepoch'' hact.ge
    have hstart := (hpruned r hr hepoch').resolve_left hlow
    exact .inr (by omega)

section

variable (h : RecoveryTracks d stored s.appliedAnchor installed s.forcedRecovery)
include h

theorem append (hwindow : Window stored s.appliedAnchor s.transitions low)
    {next : LeadershipState K} (hordered : (stored ++ [next]).Pairwise LeadershipState.Before)
    (hlow : low ≤ next.activationTempoBlock) :
    RecoveryTracks d (stored ++ [next]) s.appliedAnchor installed
      (s.append next).forcedRecovery := by
  have hlater : ∀ r ∈ stored, r.Before next := fun r hr =>
    (pairwise_append.1 hordered).2.2 r hr next (mem_singleton_self next)
  generalize hrecovery : s.forcedRecovery = recovery at h
  cases h with
  | absent =>
    rw [append, maybeBoundForcedRecovery]
    simp only [hrecovery]
    exact .absent
  | completed happlied hr hepoch hle =>
    rw [append, maybeBoundForcedRecovery]
    simp only [hrecovery]
    exact .completed happlied (mem_append_left _ hr) hepoch hle
  | active hopen =>
    refine maybeBound (hwindow.insert (fun r hr => (hlater r hr).2) hlow) hordered hrecovery ?_
    intro r hr hepoch
    rcases mem_append.1 hr with hold | hnew
    · exact absurd hepoch (Nat.not_le.2 (hopen r hold))
    · rw [mem_singleton.1 hnew]
      exact .inl hlow
  | @bounded bound hbounds =>
    rw [append, maybeBoundForcedRecovery]
    simp only [hrecovery, isSome_some, if_true]
    obtain ⟨r, hr, hepoch, hact⟩ := hbounds.attained
    refine .bounded ⟨⟨r, mem_append_left _ hr, hepoch, hact⟩, fun r' hr' hepoch' => ?_⟩
    rcases mem_append.1 hr' with hold | hnew
    · exact hbounds.least r' hold hepoch'
    · rw [mem_singleton.1 hnew, ← hact]
      exact .inl (hlater r hr).2.le

theorem install (hwindow : Window stored s.appliedAnchor s.transitions low)
    (hordered : stored.Pairwise LeadershipState.Before)
    (habove : ∀ x ∈ s.appliedAnchor, x < d.recoveryStartTempoBlock) :
    RecoveryTracks d stored s.appliedAnchor true (s.installForcedRecovery d).2.forcedRecovery := by
  have hnew : s.forcedRecovery = none → RecoveryTracks d stored s.appliedAnchor true
        (s.installForcedRecovery d).2.forcedRecovery := by
    intro hnone
    rw [installForcedRecovery, hnone]
    refine maybeBound (s := { s with forcedRecovery := some ⟨d, none⟩ }) hwindow hordered rfl ?_
    intro r hr _
    rcases hwindow.low_le with rfl | ⟨x, hx, hle, -⟩
    · exact .inl (Nat.zero_le _)
    · exact .inr (hle.trans_lt (habove x hx))
  generalize hrecovery : s.forcedRecovery = recovery at h hnew
  cases h with
  | absent => exact hnew rfl
  | completed _ _ _ _ => exact hnew rfl
  | active hopen =>
    rw [installForcedRecovery, hrecovery]
    simp only [if_true]
    rw [hrecovery]
    exact .active hopen
  | bounded hbounds =>
    rw [installForcedRecovery, hrecovery]
    simp only [if_true]
    rw [hrecovery]
    exact .bounded hbounds

theorem recordApplied {x : ℕ} (hmono : ∀ y ∈ s.appliedAnchor, y ≤ x) :
    RecoveryTracks d stored (some x) installed (if (s.forcedRecovery.any fun recovery =>
        recovery.portalActivationTempoBlock.any (· ≤ x)) = true then none
      else s.forcedRecovery) := by
  generalize s.forcedRecovery = recovery at h
  cases h with
  | absent => exact .absent
  | completed happlied hr hepoch hle => exact .completed rfl hr hepoch (hle.trans (hmono _ happlied))
  | active hopen => exact .active hopen
  | @bounded bound hbounds =>
    by_cases hreached : bound ≤ x
    · obtain ⟨r, hr, hepoch, hact⟩ := hbounds.attained
      simp only [any_some, decide_eq_true hreached, if_true]
      exact .completed rfl hr hepoch (hact.trans_le hreached)
    · simp only [any_some, decide_eq_false hreached, Bool.false_eq_true, if_false]
      exact .bounded hbounds

end

end RecoveryTracks

/-! ## Nodes -/

/-- A schedule with the finalized records its node has observed, those still to come, and whether the
recovery was installed. -/
structure Node (K W : Type) where
  schedule : LeadershipScheduleState K W
  observed : List (LeadershipState K)
  pending : List (LeadershipState K)
  installed : Bool

def Node.start (pending : List (LeadershipState K)) : Node K W := ⟨.uninitialized, [], pending, false⟩

inductive Node.Step (d : RecoveryDirective K W) : Node K W → Node K W → Prop
  | publish {n : Node K W} {next : LeadershipState K} {rest : List (LeadershipState K)}
      (hnext : n.pending = next :: rest) :
      Node.Step d n ⟨(n.schedule.publish next).2, n.observed ++ [next], rest, n.installed⟩
  | replay {n : Node K W} {record : LeadershipState K} (hobserved : record ∈ n.observed) :
      Node.Step d n { n with schedule := (n.schedule.publish record).2 }
  | install {n : Node K W}
      (habove : ∀ x ∈ n.schedule.appliedAnchor, x < d.recoveryStartTempoBlock) :
      Node.Step d n { n with schedule := (n.schedule.installForcedRecovery d).2, installed := true }
  | recordAppliedAnchor {n : Node K W} (tempoAnchor : ℕ) :
      Node.Step d n { n with schedule := n.schedule.recordAppliedAnchor tempoAnchor }

/-- `n` is reached by a node whose first record follows `earlier` in the history. -/
def Node.Reached (h : TransitionHistory K) (d : RecoveryDirective K W) (n : Node K W) : Prop :=
  ∃ earlier pending, h.records = earlier ++ pending ∧
    Relation.ReflTransGen (Node.Step d) (.start pending) n

/-- What a node's schedule keeps of the observed history. -/
structure Tracks (h : TransitionHistory K) (d : RecoveryDirective K W) (n : Node K W) : Prop where
  split : ∃ earlier, h.records = earlier ++ (n.observed ++ n.pending)
  window : ∃ low, Window (clampFirst n.observed) n.schedule.appliedAnchor n.schedule.transitions low
  recovery : RecoveryTracks d (clampFirst n.observed) n.schedule.appliedAnchor n.installed
    n.schedule.forcedRecovery

namespace Tracks

variable {h : TransitionHistory K} {d : RecoveryDirective K W} {n : Node K W}
variable {next : LeadershipState K} {rest : List (LeadershipState K)}

section

variable (ht : Tracks h d n)
include ht

theorem isChain : (clampFirst (n.observed ++ n.pending)).IsChain LeadershipState.Precedes := by
  obtain ⟨earlier, hsplit⟩ := ht.split
  have hchain := h.chained
  rw [hsplit] at hchain
  exact clampFirst_isChain hchain.right_of_append

theorem ordered : (clampFirst n.observed).Pairwise LeadershipState.Before := by
  have hall := pairwise_of_isChain ht.isChain
  by_cases hempty : n.observed = []
  · rw [hempty]
    exact List.Pairwise.nil
  · rw [clampFirst_append hempty] at hall
    exact (pairwise_append.1 hall).1

theorem transitions_empty (hempty : n.observed = []) : ∀ e, e ∉ n.schedule.transitions := by
  obtain ⟨low, hwindow⟩ := ht.window
  intro e he
  have hmem := ((hwindow.mem e).1 he).1
  rw [hempty] at hmem
  exact absurd hmem not_mem_nil

theorem transitions_ne_empty (hne : n.observed ≠ []) : n.schedule.transitions.first? ≠ none := by
  obtain ⟨low, hwindow⟩ := ht.window
  have hstored : clampFirst n.observed ≠ [] := by
    cases hobserved : n.observed with
    | nil => exact absurd hobserved hne
    | cons r rest => exact cons_ne_nil _ _
  obtain ⟨front, l, hfront⟩ := (eq_nil_or_concat (clampFirst n.observed)).resolve_left hstored
  rw [concat_eq_append] at hfront
  have hlast := (hfront ▸ hwindow).last_eq (hfront ▸ ht.ordered)
  intro hnone
  rw [first?, List.head?_eq_none_iff] at hnone
  rw [last?, hnone] at hlast
  cases hlast

theorem clampFirst_next (hnext : n.pending = next :: rest) :
    clampFirst (n.observed ++ [next]) = clampFirst n.observed ++ [n.schedule.clamp next] ∧
      (clampFirst n.observed ++ [n.schedule.clamp next]).IsChain LeadershipState.Precedes := by
  have hstored :
      clampFirst (n.observed ++ [next]) = clampFirst n.observed ++ [n.schedule.clamp next] := by
    by_cases hempty : n.observed = []
    · have hnone : n.schedule.transitions.first? = none := by
        cases hfirst : n.schedule.transitions.first? with
        | none => rfl
        | some e => exact absurd (first_eq_some_iff.1 hfirst).1 (ht.transitions_empty hempty e)
      rw [hempty, clamp, if_pos hnone]
      rfl
    · rw [clampFirst_append hempty, clamp, if_neg (ht.transitions_ne_empty hempty)]
  refine ⟨hstored, ?_⟩
  have hchain := ht.isChain
  have hne : n.observed ++ [next] ≠ [] := by simp
  rw [hnext, ← singleton_append, ← append_assoc, clampFirst_append hne, hstored] at hchain
  exact hchain.left_of_append

theorem clamp_epoch_lt (hnext : n.pending = next :: rest) :
    (n.schedule.clamp next).epoch < 2 ^ 64 := by
  obtain ⟨earlier, hsplit⟩ := ht.split
  have hmem : next ∈ h.records := by
    rw [hsplit, hnext]
    simp
  have hepoch : (n.schedule.clamp next).epoch = next.epoch := by
    unfold clamp
    split <;> rfl
  rw [hepoch]
  exact h.epoch_lt next hmem

theorem publish_next (hnext : n.pending = next :: rest) :
    n.schedule.publish next = (.ok true, n.schedule.append (n.schedule.clamp next)) := by
  obtain ⟨-, hchain⟩ := ht.clampFirst_next hnext
  have hepoch_lt := ht.clamp_epoch_lt hnext
  obtain ⟨low, hwindow⟩ := ht.window
  have hordered := ht.ordered
  have hlater : ∀ r ∈ clampFirst n.observed, r.Before (n.schedule.clamp next) := fun r hr =>
    (pairwise_append.1 (pairwise_of_isChain hchain)).2.2 r hr _ (mem_singleton_self _)
  have hget : n.schedule.transitions.get? (n.schedule.clamp next).activationTempoBlock = none := by
    refine get_eq_none_iff.2 fun v hv => ?_
    obtain ⟨hr, hkey, -⟩ := (hwindow.mem _).1 hv
    exact absurd hkey (ne_of_gt (hlater v hr).2)
  rw [publish, publishRecord, hget]
  dsimp only
  rcases eq_nil_or_concat (clampFirst n.observed) with hnil | ⟨front, l, hfront⟩
  · have hlast : n.schedule.transitions.last? = none := by
      refine last_eq_none_iff.2 fun e he => ?_
      have hmem := ((hwindow.mem e).1 he).1
      rw [hnil] at hmem
      exact absurd hmem not_mem_nil
    rw [hlast]
  · -- the last entry is the last stored record, and the next one continues its epoch
    rw [concat_eq_append] at hfront
    rw [hfront] at hwindow hordered hchain
    have hstep : l.Precedes (n.schedule.clamp next) :=
      (isChain_append.1 hchain).2.2 l (by simp) _ (by simp)
    have hwrap : uint64 (l.epoch + 1) = l.epoch + 1 := uint64_of_lt (hstep.1 ▸ hepoch_lt)
    rw [hwindow.last_eq hordered]
    dsimp only
    rw [hwrap, if_neg (by rw [hstep.1]; omega), if_neg (not_not.2 hstep.1),
      if_neg (not_not.2 hstep.2)]

theorem replay_eq {record : LeadershipState K} (hr : record ∈ n.observed) :
    (n.schedule.publish record).2 = n.schedule := by
  have hne : n.observed ≠ [] := ne_nil_of_mem hr
  obtain ⟨low, hwindow⟩ := ht.window
  have hordered := ht.ordered
  obtain ⟨front, l, hfront⟩ := (eq_nil_or_concat n.observed).resolve_left hne
  rw [concat_eq_append] at hfront
  rw [publish, clamp, if_neg (ht.transitions_ne_empty hne), publishRecord]
  split
  · split <;> rfl
  by_cases hsingle : front = []
  · -- only the clamped record is there, and it has the epoch of the replayed one
    rw [hfront, hsingle, nil_append, mem_singleton] at hr
    rw [hfront, hsingle, nil_append] at hwindow hordered
    rw [@Window.last_eq _ _ _ _ _ [] _ hwindow hordered, hr]
    simp only [if_true]
    split <;> rfl
  rw [hfront, clampFirst_append hsingle] at hwindow hordered
  rw [hwindow.last_eq hordered]
  dsimp only
  rw [hfront] at hr
  rcases mem_append.1 hr with hold | hlast
  · -- an older record is activated before the last one
    have hbefore : record.activationTempoBlock < l.activationTempoBlock := by
      obtain ⟨earlier, hsplit⟩ := ht.split
      have hall := pairwise_of_isChain h.chained
      rw [hsplit, hfront] at hall
      have hobserved := (pairwise_append.1 (pairwise_append.1 hall).2.1).1
      exact ((pairwise_append.1 hobserved).2.2 record hold l (mem_singleton_self l)).2
    split
    · split <;> rfl
    split
    · rfl
    · rw [if_pos (Nat.not_lt.2 hbefore.le)]
  · rw [mem_singleton.1 hlast, if_pos rfl]
    split <;> rfl

theorem publish (hnext : n.pending = next :: rest) :
    Tracks h d ⟨(n.schedule.publish next).2, n.observed ++ [next], rest, n.installed⟩ := by
  obtain ⟨hstored, hchain⟩ := ht.clampFirst_next hnext
  obtain ⟨earlier, hsplit⟩ := ht.split
  obtain ⟨low, hwindow⟩ := ht.window
  have hordered := pairwise_of_isChain hchain
  have hlater : ∀ r ∈ clampFirst n.observed, r.Before (n.schedule.clamp next) := fun r hr =>
    (pairwise_append.1 hordered).2.2 r hr _ (mem_singleton_self _)
  have hlow : low ≤ (n.schedule.clamp next).activationTempoBlock := by
    rcases hwindow.low_le with rfl | ⟨-, -, -, r, hr, rfl⟩
    · exact Nat.zero_le _
    · exact (hlater r hr).2.le
  have hinsert := hwindow.insert (fun r hr => (hlater r hr).2) hlow
  rw [ht.publish_next hnext]
  refine ⟨⟨earlier, ?_⟩, ⟨low, ?_⟩, ?_⟩
  · rw [hsplit, hnext, append_assoc, singleton_append]
  · rw [hstored]
    simpa [append] using hinsert
  rw [hstored]
  have hrecovery := ht.recovery.append hwindow hordered hlow
  simpa [append] using hrecovery

theorem install (habove : ∀ x ∈ n.schedule.appliedAnchor, x < d.recoveryStartTempoBlock) :
    Tracks h d { n with schedule := (n.schedule.installForcedRecovery d).2, installed := true } := by
  obtain ⟨low, hwindow⟩ := ht.window
  have hrecovery := ht.recovery.install hwindow ht.ordered habove
  have hframe : (n.schedule.installForcedRecovery d).2.transitions = n.schedule.transitions ∧
      (n.schedule.installForcedRecovery d).2.appliedAnchor = n.schedule.appliedAnchor := by
    unfold installForcedRecovery
    split
    · split <;> exact ⟨rfl, rfl⟩
    · simp
  refine ⟨ht.split, ⟨low, ?_⟩, ?_⟩
  · rw [hframe.1, hframe.2]
    exact hwindow
  · rw [hframe.2]
    exact hrecovery

theorem recordAppliedAnchor (tempoAnchor : ℕ) :
    Tracks h d { n with schedule := n.schedule.recordAppliedAnchor tempoAnchor } := by
  obtain ⟨low, hwindow⟩ := ht.window
  have hmono : ∀ y ∈ n.schedule.appliedAnchor,
      y ≤ n.schedule.appliedAnchor.elim tempoAnchor (max · tempoAnchor) := by
    intro y hy
    rw [mem_def.1 hy]
    exact le_max_left _ _
  obtain ⟨low', hwindow'⟩ := hwindow.prune hmono
  exact ⟨ht.split, ⟨low', hwindow'⟩, ht.recovery.recordApplied hmono⟩

theorem step {n' : Node K W} (hstep : n.Step d n') : Tracks h d n' := by
  cases hstep with
  | publish hnext => exact ht.publish hnext
  | replay hobserved =>
    rw [ht.replay_eq hobserved]
    exact ht
  | install habove => exact ht.install habove
  | recordAppliedAnchor tempoAnchor => exact ht.recordAppliedAnchor tempoAnchor

end

theorem reached (hreached : Node.Reached h d n) : Tracks h d n := by
  obtain ⟨earlier, pending, hsplit, hrun⟩ := hreached
  induction hrun with
  | refl =>
    refine ⟨⟨earlier, hsplit⟩, ⟨0, fun e => ?_, .inl rfl⟩, .absent⟩
    constructor
    · exact fun he => absurd he (notMem_empty e)
    · exact fun he => absurd he.1 not_mem_nil
  | tail _ hstep ih => exact ih.step hstep

end Tracks

/-! ## Answers -/

/-- Anchors a node can be asked about: governed by its first record, above the applied anchor, and
not beyond the observed history. -/
structure Node.Answers (n : Node K W) (a : ℕ) : Prop where
  governed : ∃ first ∈ n.observed.head?, first.activationTempoBlock ≤ a
  above : ∀ x ∈ n.schedule.appliedAnchor, x < a
  observed : ∀ r ∈ n.pending, a < r.activationTempoBlock

/-- The recovery governs an anchor at or after its start exactly when every transition with its epoch
or a later one is activated after the anchor. -/
theorem TransitionHistory.recovering_iff (h : TransitionHistory K) (d : RecoveryDirective K W)
    (a : ℕ) : h.Recovering d a ↔ d.recoveryStartTempoBlock ≤ a ∧
      ∀ r ∈ h.records, d.epoch ≤ r.epoch → a < r.activationTempoBlock := by
  refine and_congr_right fun _ => ?_
  cases hfirst : h.schedule.findFirst fun e => decide (d.epoch ≤ e.2.epoch) with
  | none =>
    simp only [all_none, true_iff]
    intro r hr hepoch
    have hfalse := findFirst_eq_none_iff.1 hfirst (r.activationTempoBlock, r)
      (mem_byActivation.2 ⟨hr, rfl⟩)
    exact absurd hepoch (of_decide_eq_false hfalse)
  | some e =>
    obtain ⟨hmem, hepoch, hleast⟩ := findFirst_eq_some_iff.1 hfirst
    obtain ⟨hrecord, hkey⟩ := mem_byActivation.1 hmem
    simp only [all_some, decide_eq_true_eq]
    constructor
    · intro hlt r hr hepoch'
      exact hlt.trans_le (hleast (r.activationTempoBlock, r) (mem_byActivation.2 ⟨hr, rfl⟩)
        (decide_eq_true hepoch'))
    · intro hall
      rw [hkey]
      exact hall e.2 hrecord (of_decide_eq_true hepoch)

namespace Tracks

variable {h : TransitionHistory K} {d : RecoveryDirective K W} {n : Node K W} {a : ℕ}

section

variable (ht : Tracks h d n)
include ht

theorem observed_cons {first : LeadershipState K} (hfirst : first ∈ n.observed.head?) :
    ∃ rest earlier, n.observed = first :: rest ∧
      h.records = earlier ++ first :: (rest ++ n.pending) := by
  obtain ⟨earlier, hsplit⟩ := ht.split
  obtain ⟨rest, hobserved⟩ := List.head?_eq_some_iff.1 (mem_def.1 hfirst)
  exact ⟨rest, earlier, hobserved, by rw [hsplit, hobserved, cons_append]⟩

theorem scheduled_eq (ha : n.Answers a) :
    (n.schedule.transitions.floor a).map (fun e => e.2.authority) =
      (h.schedule.floor a).map fun e => e.2.authority := by
  obtain ⟨first, hfirst, hactivated⟩ := ha.governed
  obtain ⟨rest, earlier, hobserved, hrecords⟩ := ht.observed_cons hfirst
  obtain ⟨low, hwindow⟩ := ht.window
  have hordered := ht.ordered
  have hall := pairwise_of_isChain h.chained
  rw [hrecords] at hall
  have hafter := (pairwise_append.1 hall).2.1
  -- candidates of the history: nothing later than `first` among the earlier records, nothing pending
  have hcandidate : ∀ r ∈ h.records, r.activationTempoBlock ≤ a →
      r.activationTempoBlock ≤ first.activationTempoBlock ∨ r ∈ rest := by
    intro r hr hle
    rw [hrecords] at hr
    rcases mem_append.1 hr with hearlier | hlater
    · exact .inl ((pairwise_append.1 hall).2.2 r hearlier first mem_cons_self).2.le
    rcases mem_cons.1 hlater with rfl | hlater
    · exact .inl le_rfl
    rcases mem_append.1 hlater with hrest | hpending
    · exact .inr hrest
    · exact absurd hle (Nat.not_le.2 (ha.observed r hpending))
  have hmem : ∀ r ∈ first :: rest, r ∈ h.records := by
    intro r hr
    rw [hrecords]
    rcases mem_cons.1 hr with rfl | hr <;> simp [*]
  have hpositive : ∀ r ∈ rest, first.activationTempoBlock < r.activationTempoBlock := fun r hr =>
    ((pairwise_cons.1 hafter).1 r (mem_append_left _ hr)).2
  -- the stored records answer with some record, since the first one counts from zero
  cases hfloor : (byActivation (clampFirst n.observed) hordered).floor a with
  | none =>
    have hzero := floor_eq_none_iff.1 hfloor (0, { first with activationTempoBlock := 0 })
      (mem_byActivation.2 ⟨by rw [hobserved]; exact mem_cons_self, rfl⟩)
    exact absurd hzero (Nat.not_lt.2 (Nat.zero_le a))
  | some e =>
    rw [hwindow.floor_eq hordered ha.above hfloor]
    obtain ⟨he, hle, hmax⟩ := floor_eq_some_iff.1 hfloor
    obtain ⟨hstored, hkey⟩ := mem_byActivation.1 he
    have hrest : ∀ r ∈ rest, r.activationTempoBlock ≤ a →
        r.activationTempoBlock ≤ e.2.activationTempoBlock := by
      intro r hr hle'
      rw [← hkey]
      refine hmax (r.activationTempoBlock, r) (mem_byActivation.2 ⟨?_, rfl⟩) hle'
      rw [hobserved]
      exact mem_cons_of_mem _ hr
    rw [hobserved] at hstored
    rcases mem_cons.1 hstored with hclamped | hlater
    · -- no record after the first one is active yet
      have hreference : h.schedule.floor a = some (first.activationTempoBlock, first) := by
        refine floor_eq_some_iff.2
          ⟨mem_byActivation.2 ⟨hmem first mem_cons_self, rfl⟩, hactivated, ?_⟩
        intro e' he' hle'
        obtain ⟨hr, hkey'⟩ := mem_byActivation.1 he'
        rw [hkey'] at hle' ⊢
        rcases hcandidate e'.2 hr hle' with hfirst | hr
        · exact hfirst
        have hzero := hrest e'.2 hr hle'
        have hpos := hpositive e'.2 hr
        rw [hclamped] at hzero
        exact absurd hzero (by simp only; omega)
      rw [hreference, map_some, map_some, hclamped]
      rfl
    have hreference : h.schedule.floor a = some (e.2.activationTempoBlock, e.2) := by
      refine floor_eq_some_iff.2
        ⟨mem_byActivation.2 ⟨hmem e.2 (mem_cons_of_mem _ hlater), rfl⟩, hkey ▸ hle, ?_⟩
      intro e' he' hle'
      obtain ⟨hr, hkey'⟩ := mem_byActivation.1 he'
      rw [hkey'] at hle' ⊢
      rcases hcandidate e'.2 hr hle' with hfirst | hr
      · exact hfirst.trans (hpositive e.2 hlater).le
      · exact hrest e'.2 hr hle'
    rw [hreference, map_some, map_some]

theorem recovery_end_iff (ha : n.Answers a) :
    (∀ r ∈ clampFirst n.observed, d.epoch ≤ r.epoch → a < r.activationTempoBlock) ↔
      ∀ r ∈ h.records, d.epoch ≤ r.epoch → a < r.activationTempoBlock := by
  obtain ⟨first, hfirst, hactivated⟩ := ha.governed
  obtain ⟨rest, earlier, hobserved, hrecords⟩ := ht.observed_cons hfirst
  have hall := pairwise_of_isChain h.chained
  rw [hrecords] at hall
  rw [hobserved, hrecords]
  constructor
  · intro hstored r hr hepoch
    -- a record up to the first one would put the first one at or after the recovery epoch
    have hlate : ¬ d.epoch ≤ first.epoch := fun hle =>
      absurd (hstored _ mem_cons_self hle) (Nat.not_lt.2 (Nat.zero_le a))
    rcases mem_append.1 hr with hearlier | hlater
    · have hbefore := (pairwise_append.1 hall).2.2 r hearlier first mem_cons_self
      exact absurd (hepoch.trans hbefore.1.le) hlate
    rcases mem_cons.1 hlater with rfl | hlater
    · exact absurd hepoch hlate
    rcases mem_append.1 hlater with hrest | hpending
    · exact hstored r (mem_cons_of_mem _ hrest) hepoch
    · exact ha.observed r hpending
  · intro hhistory r hr hepoch
    rcases mem_cons.1 hr with rfl | hrest
    · exact absurd (hhistory first (by simp) hepoch) (Nat.not_lt.2 hactivated)
    · exact hhistory r (by simp [hrest]) hepoch

theorem recovery_eq (ha : n.Answers a) : n.schedule.forcedRecovery.bind (·.leadershipRecordFor a) =
      if n.installed = true ∧ h.Recovering d a then
        some ⟨d.epoch, d.leader, d.recoveryStartTempoBlock⟩ else none := by
  simp only [h.recovering_iff, ← ht.recovery_end_iff ha]
  have hrecovery := ht.recovery
  generalize n.schedule.forcedRecovery = recovery at hrecovery
  generalize n.installed = installed at hrecovery
  cases hrecovery with
  | absent => rfl
  | completed happlied hr hepoch hle =>
    rw [if_neg]
    · rfl
    rintro ⟨-, -, hend⟩
    have hlt := ha.above _ happlied
    exact absurd (hend _ hr hepoch) (by omega)
  | active hopen =>
    simp only [bind_some, ForcedRecoveryState.leadershipRecordFor, any_none,
      Bool.false_eq_true, or_false, true_and]
    by_cases hstart : d.recoveryStartTempoBlock ≤ a
    · rw [if_neg (Nat.not_lt.2 hstart), if_pos]
      exact ⟨hstart, fun r hr hepoch => absurd (hopen r hr) (Nat.not_lt.2 hepoch)⟩
    · rw [if_pos (Nat.not_le.1 hstart), if_neg fun hboth => hstart hboth.1]
  | @bounded bound hbounds =>
    simp only [bind_some, ForcedRecoveryState.leadershipRecordFor, any_some,
      decide_eq_true_eq, true_and]
    by_cases hstart : d.recoveryStartTempoBlock ≤ a
    · by_cases hbound : bound ≤ a
      · rw [if_pos (.inr hbound), if_neg]
        rintro ⟨-, hend⟩
        obtain ⟨r, hr, hepoch, hact⟩ := hbounds.attained
        exact absurd (hend r hr hepoch) (by omega)
      rw [if_neg (not_or.2 ⟨Nat.not_lt.2 hstart, hbound⟩), if_pos]
      refine ⟨hstart, fun r hr hepoch => ?_⟩
      rcases hbounds.least r hr hepoch with hle | hlt <;> omega
    · rw [if_pos (.inl (Nat.not_le.1 hstart)), if_neg fun hboth => hstart hboth.1]

end

end Tracks

def Node.directive (d : RecoveryDirective K W) (n : Node K W) : Option (RecoveryDirective K W) :=
  if n.installed then some d else none

theorem Tracks.leaderFor_eq {h : TransitionHistory K} {d : RecoveryDirective K W} {n : Node K W}
    {a : ℕ} (ht : Tracks h d n) (ha : n.Answers a) :
    (n.schedule.leaderFor a).map authority = h.reference (n.directive d) a := by
  have hscheduled := ht.scheduled_eq ha
  have hrecovery := ht.recovery_eq ha
  rw [leaderFor, hrecovery, Node.directive]
  unfold TransitionHistory.reference
  cases n.installed with
  | false =>
    simp only [Bool.false_eq_true, false_and, if_false, Option.none_or, Option.map_map]
    exact hscheduled
  | true =>
    simp only [true_and, if_true]
    by_cases hgoverns : h.Recovering d a
    · rw [if_pos hgoverns, if_pos hgoverns]
      rfl
    · rw [if_neg hgoverns, if_neg hgoverns, Option.none_or, Option.map_map]
      exact hscheduled

/-- Along every sequence of calls, `leader_for` gives the answer of the complete history for anchors
above the applied one. The next record is always accepted, and a rejected publication changes
nothing. -/
theorem leaderFor_exact (h : TransitionHistory K) (d : RecoveryDirective K W) {n n' : Node K W}
    (hn : Node.Reached h d n) (hn' : Node.Reached h d n') {a : ℕ} (ha : n.Answers a) :
    (n.schedule.leaderFor a).map authority = h.reference (n.directive d) a ∧
    (n'.Answers a → n'.installed = n.installed →
      (n'.schedule.leaderFor a).map authority =
        (n.schedule.leaderFor a).map authority) ∧
    (∀ next rest, n.pending = next :: rest → (n.schedule.publish next).1 = .ok true) ∧
    ∀ record e, (n.schedule.publish record).1 = .error e →
      (n.schedule.publish record).2 = n.schedule := by
  have ht := Tracks.reached hn
  refine ⟨ht.leaderFor_eq ha, ?_, ?_, ?_⟩
  · intro ha' hinstalled
    rw [(Tracks.reached hn').leaderFor_eq ha', ht.leaderFor_eq ha, Node.directive, Node.directive,
      hinstalled]
  · intro next rest hnext
    rw [ht.publish_next hnext]
  · exact fun record e herror => publish_error herror

/-! ## The founding leader -/

/-- The history as a schedule reads it: the first transition is the earliest known authority and
governs from anchor zero. -/
def TransitionHistory.founded (h : TransitionHistory K) : TransitionHistory K where
  records := clampFirst h.records
  chained := clampFirst_isChain h.chained
  epoch_lt := by
    intro r hr
    have hepoch := h.epoch_lt
    cases hrecords : h.records with
    | nil =>
      rw [hrecords] at hr
      cases hr
    | cons first rest =>
      rw [hrecords] at hr hepoch
      rcases mem_cons.1 hr with rfl | hrest
      · exact hepoch first mem_cons_self
      · exact hepoch r (mem_cons_of_mem _ hrest)

namespace Tracks

variable {h : TransitionHistory K} {d : RecoveryDirective K W} {n : Node K W} {a : ℕ}

theorem founded_of_complete (ht : Tracks h d n) (hne : n.observed ≠ [])
    (hcomplete : h.records = n.observed ++ n.pending) :
    Tracks h.founded d { n with observed := clampFirst n.observed } := by
  have hclamp : clampFirst (clampFirst n.observed) = clampFirst n.observed := by
    cases n.observed <;> rfl
  refine ⟨⟨[], ?_⟩, ?_, ?_⟩
  · show clampFirst h.records = [] ++ (clampFirst n.observed ++ n.pending)
    rw [hcomplete, clampFirst_append hne, nil_append]
  · simp only [hclamp]
    exact ht.window
  · simp only [hclamp]
    exact ht.recovery

/-- `leader_for` on a node that saw the history from the record governing its checkpoint, or from its
first record on. -/
theorem leaderFor_founded (ht : Tracks h d n) (hne : n.observed ≠ [])
    (habove : ∀ x ∈ n.schedule.appliedAnchor, x < a)
    (hobserved : ∀ r ∈ n.pending, a < r.activationTempoBlock)
    (hgoverned : (∃ first ∈ n.observed.head?, first.activationTempoBlock ≤ a) ∨
      h.records = n.observed ++ n.pending) :
    (n.schedule.leaderFor a).map authority = h.founded.reference (n.directive d) a ∧
      ((∃ first ∈ h.records.head?, first.activationTempoBlock ≤ a) →
        (n.schedule.leaderFor a).map authority = h.reference (n.directive d) a) := by
  obtain ⟨earlier, hsplit⟩ := ht.split
  cases earlier with
  | nil =>
    rw [nil_append] at hsplit
    have hclamped : ∃ first ∈ (clampFirst n.observed).head?, first.activationTempoBlock ≤ a := by
      cases hcons : n.observed with
      | nil => exact absurd hcons hne
      | cons first rest => exact ⟨_, rfl, Nat.zero_le a⟩
    have hfounded := (ht.founded_of_complete hne hsplit).leaderFor_eq ⟨hclamped, habove, hobserved⟩
    refine ⟨hfounded, ?_⟩
    rintro ⟨first, hfirst, hle⟩
    refine ht.leaderFor_eq ⟨⟨first, ?_, hle⟩, habove, hobserved⟩
    rw [hsplit, List.head?_append_of_ne_nil _ hne] at hfirst
    exact hfirst
  | cons e es =>
    rcases hgoverned with hgoverned | hcomplete
    · have hfounded : Tracks h.founded d n := by
        refine ⟨⟨clampFirst (e :: es), ?_⟩, ht.window, ht.recovery⟩
        show clampFirst h.records = _
        rw [hsplit, clampFirst_append (cons_ne_nil e es)]
      exact ⟨hfounded.leaderFor_eq ⟨hgoverned, habove, hobserved⟩,
        fun _ => ht.leaderFor_eq ⟨hgoverned, habove, hobserved⟩⟩
    have hlength := congrArg List.length (hsplit.symm.trans hcomplete)
    simp only [length_append, length_cons] at hlength
    omega

theorem install_open (ht : Tracks h d n) (hnone : n.schedule.forcedRecovery = none)
    (hopen : ∀ r ∈ clampFirst n.observed, r.epoch < d.epoch) :
    Tracks h d { n with schedule := (n.schedule.installForcedRecovery d).2, installed := true } := by
  obtain ⟨low, hwindow⟩ := ht.window
  have hrecovery : RecoveryTracks d (clampFirst n.observed) n.schedule.appliedAnchor true
      (n.schedule.installForcedRecovery d).2.forcedRecovery := by
    rw [installForcedRecovery, hnone]
    refine RecoveryTracks.maybeBound
      (s := { n.schedule with forcedRecovery := some ⟨d, none⟩ }) hwindow ht.ordered rfl ?_
    intro r hr hepoch
    exact absurd hepoch (Nat.not_le.2 (hopen r hr))
  have hframe : (n.schedule.installForcedRecovery d).2.transitions = n.schedule.transitions ∧
      (n.schedule.installForcedRecovery d).2.appliedAnchor = n.schedule.appliedAnchor := by
    simp only [installForcedRecovery, hnone, maybeBoundForcedRecovery_transitions,
      maybeBoundForcedRecovery_appliedAnchor, and_self]
  refine ⟨ht.split, ⟨low, ?_⟩, ?_⟩
  · simp only [hframe.1, hframe.2]
    exact hwindow
  · simp only [hframe.2]
    exact hrecovery

end Tracks

namespace Example

def history : TransitionHistory ℕ where
  records := [⟨1, 10, 5⟩, ⟨2, 20, 9⟩, ⟨3, 30, 14⟩]
  chained := by
    simp only [isChain_cons_cons, isChain_singleton, LeadershipState.Precedes]
    decide
  epoch_lt := by decide

def directive : RecoveryDirective ℕ ℕ := ⟨3, 99, 0, 11⟩

/-- Both records, an applied anchor that prunes nothing yet, then the recovery. -/
def publishedFirst : Node ℕ ℕ :=
  ⟨((((uninitialized.publish ⟨1, 10, 5⟩).2.publish
    ⟨2, 20, 9⟩).2.recordAppliedAnchor 10).installForcedRecovery directive).2,
    [⟨1, 10, 5⟩, ⟨2, 20, 9⟩], [⟨3, 30, 14⟩], true⟩

def installedFirst : Node ℕ ℕ :=
  ⟨(((uninitialized.installForcedRecovery directive).2.publish
    ⟨1, 10, 5⟩).2.publish ⟨2, 20, 9⟩).2, [⟨1, 10, 5⟩, ⟨2, 20, 9⟩], [⟨3, 30, 14⟩], true⟩

theorem publishedFirst_reached : Node.Reached history directive publishedFirst := by
  refine ⟨[], history.records, rfl, ?_⟩
  refine (((Relation.ReflTransGen.single (Node.Step.publish rfl)).tail
    (Node.Step.publish rfl)).tail (Node.Step.recordAppliedAnchor 10)).tail (Node.Step.install ?_)
  decide

theorem installedFirst_reached : Node.Reached history directive installedFirst := by
  refine ⟨[], history.records, rfl, ?_⟩
  refine ((Relation.ReflTransGen.single (Node.Step.install ?_)).tail
    (Node.Step.publish rfl)).tail (Node.Step.publish rfl)
  decide

theorem publishedFirst_answers : publishedFirst.Answers 12 :=
  ⟨⟨⟨1, 10, 5⟩, rfl, by decide⟩, by decide, by decide⟩

theorem installedFirst_answers : installedFirst.Answers 12 :=
  ⟨⟨⟨1, 10, 5⟩, rfl, by decide⟩, by decide, by decide⟩

/-- Anchor 12 belongs to the recovery on both nodes. -/
theorem leaderFor_exact_recovery :
    history.reference (some directive) 12 = some (3, 99) ∧
    (publishedFirst.schedule.leaderFor 12).map authority = some (3, 99) ∧
    (installedFirst.schedule.leaderFor 12).map authority = some (3, 99) := by
  obtain ⟨hexact, hagree, -, -⟩ := leaderFor_exact history directive publishedFirst_reached
    installedFirst_reached publishedFirst_answers
  have hreference : history.reference (some directive) 12 = some (3, 99) := by decide
  exact ⟨hreference, hexact.trans hreference,
    (hagree installedFirst_answers rfl).trans (hexact.trans hreference)⟩

end Example

end TempoZones.P2p
