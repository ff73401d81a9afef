import Mathlib.Data.List.Chain
import TempoZones.Lib.Evm
import TempoZones.Lib.SortedMap

/-!
# The leadership schedule

A node keeps the finalized leader transitions that its next Tempo anchors may need, with an optional
forced recovery that overrides the schedule up to the next portal transition. The first record is
stored at activation zero; entries whose boundary the applied checkpoint has passed are pruned.
`reference` is the answer of the complete history. A rejected publication leaves the schedule as it
was (`publish_error`).
-/

namespace TempoZones.P2p

open Lib List

/-- A leader transition; `K` are the peers' identities. -/
structure LeadershipState (K : Type) where
  epoch : ℕ
  leader : K
  activationTempoBlock : ℕ
  deriving DecidableEq

/-- Manifest directive of a forced recovery. -/
structure RecoveryDirective (K W : Type) where
  epoch : ℕ
  leader : K
  recoveryBlockHash : W
  recoveryStartTempoBlock : ℕ
  deriving DecidableEq

/-- `ForcedRecoveryState`: an installed directive and the activation that bounds it. -/
structure ForcedRecoveryState (K W : Type) where
  directive : RecoveryDirective K W
  portalActivationTempoBlock : Option ℕ
  deriving DecidableEq

structure LeadershipScheduleState (K W : Type) where
  transitions : SortedMap ℕ (LeadershipState K)
  appliedAnchor : Option ℕ
  forcedRecovery : Option (ForcedRecoveryState K W)

inductive PublishError (K : Type) where
  | conflictingTransition (activation : ℕ) (existing new : LeadershipState K)
  | duplicateEpoch (epoch retained new : ℕ)
  | nonContiguousEpoch (retained new : ℕ)
  | activationMovedBackwards (retained new : ℕ)
  | conflictingRecovery
  deriving DecidableEq

variable {K W : Type} [DecidableEq K] [DecidableEq W]

def ForcedRecoveryState.leadershipRecordFor (recovery : ForcedRecoveryState K W)
    (tempoAnchor : ℕ) : Option (LeadershipState K) :=
  if tempoAnchor < recovery.directive.recoveryStartTempoBlock ∨
      recovery.portalActivationTempoBlock.any (· ≤ tempoAnchor) then none
  else some ⟨recovery.directive.epoch, recovery.directive.leader,
    recovery.directive.recoveryStartTempoBlock⟩

namespace LeadershipScheduleState

def uninitialized : LeadershipScheduleState K W := ⟨∅, none, none⟩

def leaderFor (s : LeadershipScheduleState K W) (tempoAnchor : ℕ) : Option (LeadershipState K) :=
  let scheduled := (s.transitions.floor tempoAnchor).map Prod.snd
  let recovery := s.forcedRecovery.bind (·.leadershipRecordFor tempoAnchor)
  recovery.or scheduled

def maybeBoundForcedRecovery (s : LeadershipScheduleState K W) : LeadershipScheduleState K W :=
  match s.forcedRecovery with
  | none => s
  | some recovery =>
    if recovery.portalActivationTempoBlock.isSome then s
    else
      match s.transitions.findFirst fun e => decide (recovery.directive.epoch ≤ e.2.epoch) with
      | none => s
      | some (_, record) =>
        { s with
          forcedRecovery := some
            { recovery with portalActivationTempoBlock := some record.activationTempoBlock } }

/-- The insertion at the end of `publish`. -/
def append (s : LeadershipScheduleState K W) (record : LeadershipState K) :
    LeadershipScheduleState K W :=
  maybeBoundForcedRecovery
    { s with transitions := s.transitions.insert record.activationTempoBlock record }

def clamp (s : LeadershipScheduleState K W) (record : LeadershipState K) : LeadershipState K :=
  if s.transitions.first? = none then { record with activationTempoBlock := 0 } else record

/-- The checks of `publish` on a record after clamping. -/
def publishRecord (s : LeadershipScheduleState K W) (record : LeadershipState K) :
    Except (PublishError K) Bool × LeadershipScheduleState K W :=
  match s.transitions.get? record.activationTempoBlock with
  | some existing =>
    if existing = record then (.ok false, s)
    else (.error (.conflictingTransition record.activationTempoBlock existing record), s)
  | none =>
    match s.transitions.last? with
    | none => (.ok true, s.append record)
    | some (lastActivation, last) =>
      if record.epoch = last.epoch then
        -- the clamped first record, observed again at its own activation
        if record.leader = last.leader ∧ lastActivation = 0 ∧ s.transitions.length = 1 then
          (.ok false, s)
        else
          (.error (.duplicateEpoch record.epoch lastActivation record.activationTempoBlock), s)
      else if record.epoch ≠ uint64 (last.epoch + 1) then
        (.error (.nonContiguousEpoch last.epoch record.epoch), s)
      else if ¬ lastActivation < record.activationTempoBlock then
        (.error (.activationMovedBackwards lastActivation record.activationTempoBlock), s)
      else (.ok true, s.append record)

/-- `publish`: the result and the schedule afterwards. -/
def publish (s : LeadershipScheduleState K W) (record : LeadershipState K) :
    Except (PublishError K) Bool × LeadershipScheduleState K W :=
  s.publishRecord (s.clamp record)

/-- `install_forced_recovery`: the result and the schedule afterwards. -/
def installForcedRecovery (s : LeadershipScheduleState K W) (requested : RecoveryDirective K W) :
    Except (PublishError K) Bool × LeadershipScheduleState K W :=
  match s.forcedRecovery with
  | some existing =>
    if existing.directive = requested then (.ok false, s) else (.error .conflictingRecovery, s)
  | none =>
    (.ok true, maybeBoundForcedRecovery { s with forcedRecovery := some ⟨requested, none⟩ })

/-- Oldest activation that `record_applied_anchor` retains: the predecessor of the entry that governs
the next anchor, or that entry. -/
def keepFrom (s : LeadershipScheduleState K W) (applied : ℕ) : Option ℕ :=
  (s.transitions.floor (saturatingAdd applied 1)).map fun active =>
    (s.transitions.below active.1).elim active.1 Prod.fst

/-- Pruning of `record_applied_anchor`. -/
def prune (s : LeadershipScheduleState K W) (applied : ℕ) : SortedMap ℕ (LeadershipState K) :=
  match s.keepFrom applied with
  | none => s.transitions
  | some keepFrom => s.transitions.filter fun e => decide (keepFrom ≤ e.1)

def recordAppliedAnchor (s : LeadershipScheduleState K W) (tempoAnchor : ℕ) :
    LeadershipScheduleState K W :=
  let applied := s.appliedAnchor.elim tempoAnchor (max · tempoAnchor)
  let recoveryCompleted := s.forcedRecovery.any fun recovery =>
    recovery.portalActivationTempoBlock.any (· ≤ applied)
  { transitions := s.prune applied
    appliedAnchor := some applied
    forcedRecovery := if recoveryCompleted then none else s.forcedRecovery }

theorem publishRecord_error {s : LeadershipScheduleState K W} {record : LeadershipState K}
    {e : PublishError K} (h : (s.publishRecord record).1 = .error e) :
    (s.publishRecord record).2 = s := by
  unfold publishRecord at h ⊢
  split
  · split <;> rfl
  · next hget =>
    rw [hget] at h
    split
    · next hlast =>
      rw [hlast] at h
      cases h
    · next lastActivation last hlast =>
      rw [hlast] at h
      -- every check returns the schedule it was given; only the last branch appends
      split
      · split <;> rfl
      · next hepoch =>
        split
        · rfl
        · next hnext =>
          split
          · rfl
          · next hlater =>
            simp only [if_neg hepoch, if_neg hnext, if_neg hlater] at h
            cases h

theorem publish_error {s : LeadershipScheduleState K W} {record : LeadershipState K}
    {e : PublishError K} (h : (s.publish record).1 = .error e) : (s.publish record).2 = s :=
  publishRecord_error h

@[simp] theorem maybeBoundForcedRecovery_transitions (s : LeadershipScheduleState K W) :
    s.maybeBoundForcedRecovery.transitions = s.transitions := by
  unfold maybeBoundForcedRecovery
  split
  · rfl
  split
  · rfl
  · split <;> rfl

@[simp] theorem maybeBoundForcedRecovery_appliedAnchor (s : LeadershipScheduleState K W) :
    s.maybeBoundForcedRecovery.appliedAnchor = s.appliedAnchor := by
  unfold maybeBoundForcedRecovery
  split
  · rfl
  split
  · rfl
  · split <;> rfl

end LeadershipScheduleState

/-! ## Finalized history -/

namespace LeadershipState

def Precedes (a b : LeadershipState K) : Prop :=
  b.epoch = a.epoch + 1 ∧ a.activationTempoBlock < b.activationTempoBlock

/-- `b` is a later transition than `a`. -/
def Before (a b : LeadershipState K) : Prop :=
  a.epoch < b.epoch ∧ a.activationTempoBlock < b.activationTempoBlock

instance : Trans (Before (K := K)) (Before (K := K)) (Before (K := K)) :=
  ⟨fun h h' => ⟨h.1.trans h'.1, h.2.trans h'.2⟩⟩

def authority (r : LeadershipState K) : ℕ × K := (r.epoch, r.leader)

variable {rs : List (LeadershipState K)}

theorem pairwise_of_isChain (h : rs.IsChain Precedes) : rs.Pairwise Before :=
  (h.imp fun _ _ hstep => ⟨by rw [hstep.1]; exact Nat.lt_succ_self _, hstep.2⟩).pairwise

theorem comparable (h : rs.Pairwise Before) {r r' : LeadershipState K} (hr : r ∈ rs)
    (hr' : r' ∈ rs) : r = r' ∨ r.Before r' ∨ r'.Before r := by
  induction h with
  | nil => cases hr
  | @cons first rest hfirst _ ih =>
    rcases mem_cons.1 hr with rfl | hrest
    · rcases mem_cons.1 hr' with rfl | hrest'
      · exact .inl rfl
      · exact .inr (.inl (hfirst r' hrest'))
    rcases mem_cons.1 hr' with rfl | hrest'
    · exact .inr (.inr (hfirst r hrest))
    · exact ih hrest hrest'

theorem epoch_le_of_activation_le (h : rs.Pairwise Before) {r r' : LeadershipState K} (hr : r ∈ rs)
    (hr' : r' ∈ rs) (hactivation : r.activationTempoBlock ≤ r'.activationTempoBlock) :
    r.epoch ≤ r'.epoch := by
  rcases comparable h hr hr' with rfl | hbefore | hbefore
  · exact le_rfl
  · exact hbefore.1.le
  · exact absurd hbefore.2 (Nat.not_lt.2 hactivation)

end LeadershipState

/-- A finalized history of leader transitions: epochs are consecutive 64-bit numbers and activations
increase. -/
structure TransitionHistory (K : Type) where
  records : List (LeadershipState K)
  chained : records.IsChain LeadershipState.Precedes
  epoch_lt : ∀ r ∈ records, r.epoch < 2 ^ 64

def byActivation (rs : List (LeadershipState K)) (h : rs.Pairwise LeadershipState.Before) :
    SortedMap ℕ (LeadershipState K) :=
  ⟨rs.map fun r => (r.activationTempoBlock, r),
    pairwise_map.2 (h.imp fun hbefore => hbefore.2)⟩

theorem mem_byActivation {rs : List (LeadershipState K)} {h : rs.Pairwise LeadershipState.Before}
    {e : ℕ × LeadershipState K} :
    e ∈ byActivation rs h ↔ e.2 ∈ rs ∧ e.1 = e.2.activationTempoBlock := by
  rw [SortedMap.mem_def, byActivation, mem_map]
  constructor
  · rintro ⟨r, hr, rfl⟩
    exact ⟨hr, rfl⟩
  · rintro ⟨hr, hkey⟩
    exact ⟨e.2, hr, Prod.ext hkey.symm rfl⟩

def TransitionHistory.schedule (h : TransitionHistory K) : SortedMap ℕ (LeadershipState K) :=
  byActivation h.records (LeadershipState.pairwise_of_isChain h.chained)

/-- The anchors governed by a recovery: from its start up to the first activation whose epoch is at
least the recovery epoch. -/
def TransitionHistory.Recovering (h : TransitionHistory K) (d : RecoveryDirective K W)
    (tempoAnchor : ℕ) : Prop :=
  d.recoveryStartTempoBlock ≤ tempoAnchor ∧
    ((h.schedule.findFirst fun e => decide (d.epoch ≤ e.2.epoch)).all fun e =>
      decide (tempoAnchor < e.1)) = true

instance (h : TransitionHistory K) (d : RecoveryDirective K W) (tempoAnchor : ℕ) :
    Decidable (h.Recovering d tempoAnchor) :=
  inferInstanceAs (Decidable (_ ∧ _))

/-- The authority for an anchor according to the complete history: the recovery leader while the
recovery governs, otherwise the last transition activated at or before the anchor. -/
def TransitionHistory.reference (h : TransitionHistory K) (recovery : Option (RecoveryDirective K W))
    (tempoAnchor : ℕ) : Option (ℕ × K) :=
  let scheduled := (h.schedule.floor tempoAnchor).map fun e => e.2.authority
  match recovery with
  | none => scheduled
  | some d => if h.Recovering d tempoAnchor then some (d.epoch, d.leader) else scheduled

end TempoZones.P2p
