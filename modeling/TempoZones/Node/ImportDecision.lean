import TempoZones.Node.BlockEngine

/-!
# Which L1 headers a zone block imports

The engine decides on an import from the timestamp of the first queued header, while the zone block
carries that of the last header it imports. L1 timestamps do not decrease, so the block's fork lies
between that of the decision and that of the L1 tip (`zoneHardfork_mono`, `zoneHardfork_le_max`). In
between the leadership permit may shorten a run of checkpoints (`PermitPath`).
-/

namespace TempoZones

open Lib List

variable {K W : Type} [DecidableEq K] [EvmWord W] [DecidableEq W]

/-! ## Forks -/

namespace ZoneSchedule

variable (spec : ZoneSchedule W)

def l1Hardfork (header : NumHash W) : ℕ :=
  spec.tempoHardforkAt (spec.timestampMillis header / 1000)

/-- Fork of the zone block that `advance` builds when `final` is the last header it imports. -/
def zoneHardfork (parentMillis wallClockMillis : ℕ) (final : NumHash W) : ℕ :=
  spec.tempoHardforkAt
    (zoneTimestampMillis (spec.timestampMillis final) parentMillis wallClockMillis / 1000)

/-- Fork of the L1 tip: the latest queued header, or finalized L1 seen outside of the queue. -/
def l1TipHardfork (latest : NumHash W) (finalizedL1Timestamp : Option ℕ) : ℕ :=
  spec.tempoHardforkAt (max (spec.timestampMillis latest / 1000) (finalizedL1Timestamp.getD 0))

end ZoneSchedule

/-- Consecutive headers of one L1 chain, with `latest` at or after the last of them. -/
structure HeaderRun (spec : ZoneSchedule W) (queued : List (NumHash W)) (latest : NumHash W) :
    Prop where
  contiguous : queued.IsChain fun a b => b.number = a.number + 1
  ordered : queued.Pairwise fun a b => spec.timestampMillis a ≤ spec.timestampMillis b
  tip : ∀ header ∈ queued, spec.timestampMillis header ≤ spec.timestampMillis latest

section Forks

variable {spec : ZoneSchedule W} {parentMillis wallClockMillis : ℕ} {a b : NumHash W}

theorem l1Hardfork_le_zone (mono : Monotone spec.tempoHardforkAt) (header : NumHash W) :
    spec.l1Hardfork header ≤ spec.zoneHardfork parentMillis wallClockMillis header := by
  apply mono
  apply Nat.div_le_div_right
  exact (le_max_left _ _).trans (le_max_left _ _)

theorem zoneHardfork_mono (mono : Monotone spec.tempoHardforkAt)
    (h : spec.timestampMillis a ≤ spec.timestampMillis b) :
    spec.zoneHardfork parentMillis wallClockMillis a ≤
      spec.zoneHardfork parentMillis wallClockMillis b := by
  apply mono
  apply Nat.div_le_div_right
  exact max_le_max_right _ (max_le_max_right _ h)

/-- A later header moves the zone block to its own fork at most: the parent and the clock already
counted in the decision. -/
theorem zoneHardfork_le_max (h : spec.timestampMillis a ≤ spec.timestampMillis b) :
    spec.zoneHardfork parentMillis wallClockMillis b ≤
      max (spec.zoneHardfork parentMillis wallClockMillis a) (spec.l1Hardfork b) := by
  rcases le_total (spec.timestampMillis b) (max wallClockMillis parentMillis) with hle | hle
  · have hsame : zoneTimestampMillis (spec.timestampMillis b) parentMillis wallClockMillis =
        zoneTimestampMillis (spec.timestampMillis a) parentMillis wallClockMillis := by
      unfold zoneTimestampMillis
      omega
    rw [ZoneSchedule.zoneHardfork, hsame]
    exact le_max_left _ _
  have hfinal : zoneTimestampMillis (spec.timestampMillis b) parentMillis wallClockMillis =
      spec.timestampMillis b := by
    unfold zoneTimestampMillis
    omega
  rw [ZoneSchedule.zoneHardfork, hfinal]
  exact le_max_right _ _

theorem l1Hardfork_le_tip (mono : Monotone spec.tempoHardforkAt) {header latest : NumHash W}
    (h : spec.timestampMillis header ≤ spec.timestampMillis latest)
    (finalizedL1Timestamp : Option ℕ) :
    spec.l1Hardfork header ≤ spec.l1TipHardfork latest finalizedL1Timestamp := by
  apply mono
  exact (Nat.div_le_div_right h).trans (le_max_left _ _)

end Forks

/-! ## The decision -/

section Decision

variable (spec : ZoneSchedule W) (first : NumHash W) (rest : List (NumHash W)) (latest : NumHash W)
  (finalizedL1Timestamp : Option ℕ) (finalizedTarget : Option FinalizedTarget)
  (parentMillis wallClockMillis : ℕ)

def targetIsVisible (finalizedTarget : Option FinalizedTarget) (queued : List (NumHash W)) : Bool :=
  finalizedTarget.any fun target =>
    queued.getLast?.any fun header => decide (target.number ≤ header.number)

def checkpointCount : ℕ :=
  max (min ((first :: rest).length -
      (finalizedTarget.isNone || targetIsVisible finalizedTarget (first :: rest)).toNat)
      MAX_TEMPO_HEADERS_PER_ZONE_BLOCK)
    (decide (spec.l1Hardfork first < spec.zoneHardfork parentMillis wallClockMillis first)).toNat

theorem tempoImportDecision_cons :
    tempoImportDecision spec (first :: rest) latest finalizedL1Timestamp finalizedTarget parentMillis
        wallClockMillis =
      if spec.zoneHardfork parentMillis wallClockMillis first < spec.t13 then .importFull
      else if spec.l1TipHardfork latest finalizedL1Timestamp <
          spec.zoneHardfork parentMillis wallClockMillis first then .waitForHardforkMatch
      else if checkpointCount spec first rest finalizedTarget parentMillis wallClockMillis = 0 then
        if targetIsVisible finalizedTarget (first :: rest) ∧
            finalizedTarget.any (fun target => !target.ready) then .waitForFinalizedTarget
        else .importFull
      else .importCheckpoints
        (checkpointCount spec first rest finalizedTarget parentMillis wallClockMillis) :=
  rfl

variable {spec first rest finalizedTarget parentMillis wallClockMillis}

theorem checkpointCount_le :
    checkpointCount spec first rest finalizedTarget parentMillis wallClockMillis ≤
      min (first :: rest).length 1024 := by
  have hone := Bool.toNat_le (decide (spec.l1Hardfork first <
    spec.zoneHardfork parentMillis wallClockMillis first))
  have hmax : MAX_TEMPO_HEADERS_PER_ZONE_BLOCK = 1024 := rfl
  have hlength : (first :: rest).length = rest.length + 1 := rfl
  unfold checkpointCount
  omega

theorem zone_le_of_no_checkpoint
    (h : checkpointCount spec first rest finalizedTarget parentMillis wallClockMillis = 0) :
    spec.zoneHardfork parentMillis wallClockMillis first ≤ spec.l1Hardfork first := by
  by_contra hlt
  have hforced := decide_eq_true (Nat.lt_of_not_le hlt)
  unfold checkpointCount at h
  rw [hforced, Bool.toNat_true] at h
  omega

/-- When the finalized target is visible, the last header stays in the queue, unless it is alone
there and from an older fork. -/
theorem checkpointCount_reserves (hvisible : targetIsVisible finalizedTarget (first :: rest)) :
    checkpointCount spec first rest finalizedTarget parentMillis wallClockMillis <
        (first :: rest).length ∨
      rest = [] ∧ spec.l1Hardfork first < spec.zoneHardfork parentMillis wallClockMillis first := by
  have hlength : (first :: rest).length = rest.length + 1 := rfl
  unfold checkpointCount
  rw [hvisible, Bool.or_true, Bool.toNat_true]
  by_cases hforced : spec.l1Hardfork first < spec.zoneHardfork parentMillis wallClockMillis first
  · cases rest with
    | nil => exact .inr ⟨rfl, hforced⟩
    | cons second rest =>
      -- with two headers queued, reserving one leaves the forced one
      rw [decide_eq_true hforced, Bool.toNat_true]
      have hsecond : (second :: rest).length = rest.length + 1 := rfl
      left
      omega
  rw [decide_eq_false hforced, Bool.toNat_false]
  left
  omega

end Decision

/-! ## The permit -/

/-- The schedule of the node `me` in state `n` gives it the anchor of a number. -/
def Permits (me : K) (n : EngineNode K W) (number : ℕ) : Prop :=
  productionCheck n.leadership.schedule me number = none

/-- Phases of `apply_permit` for a selected import. The schedule may change between two checks, so
each of them is made in a state of its own; `states` lists these states in order. -/
inductive PermitPath (me : K) (front : SealedL1Block W) (headers : List (NumHash W)) :
    List (EngineNode K W) → EnginePhase W → Prop
  | selected : PermitPath me front headers [] (.selected front headers)
  | front (n : EngineNode K W) :
      PermitPath me front headers [n] (n.checkFront me front headers)
  | header (n : EngineNode K W) {states : List (EngineNode K W)} {permitted rest : List (NumHash W)}
      (before : PermitPath me front headers states (.checking front permitted rest)) :
      PermitPath me front headers (states ++ [n]) (n.checkHeader me front permitted rest)

/-- Every check so far was passed in its own state: the front block first, then each header. -/
def PermitPath.Owned (me : K) (front : SealedL1Block W) (states : List (EngineNode K W))
    (permitted : List (NumHash W)) : Prop :=
  List.Forall₂ (Permits me) states (front.number :: permitted.map (·.number))

/-- What `apply_permit` leaves of the selected headers: those before the first one whose check is
refused, in the state in which it is made. -/
def PermitPath.Kept (me : K) (front : SealedL1Block W) (headers : List (NumHash W))
    (states : List (EngineNode K W)) : EnginePhase W → Prop
  | .checking _ permitted rest => headers = permitted ++ rest ∧ Owned me front states permitted
  | .permitted _ permitted => ∃ passed n, states = passed ++ [n] ∧ Owned me front passed permitted ∧
      (permitted = headers ∨ permitted ≠ [] ∧
        ∃ next rest, headers = permitted ++ next :: rest ∧ ¬ Permits me n next.number)
  | _ => True

theorem PermitPath.kept {me : K} {front : SealedL1Block W} {headers : List (NumHash W)}
    {states : List (EngineNode K W)} {phase : EnginePhase W}
    (h : PermitPath me front headers states phase) : Kept me front headers states phase := by
  induction h with
  | selected => trivial
  | front n =>
    unfold EngineNode.checkFront
    split
    · trivial
    · next hcheck => exact ⟨rfl, .cons hcheck .nil⟩
  | @header n states permitted rest before ih =>
    -- `n` may differ from the states of the earlier checks
    obtain ⟨hsplit, howned⟩ := ih
    cases rest with
    | nil =>
      rw [append_nil] at hsplit
      exact ⟨states, n, rfl, howned, .inl hsplit.symm⟩
    | cons header rest =>
      unfold EngineNode.checkHeader
      simp only
      split
      · next hcheck =>
        refine ⟨by rw [hsplit, append_assoc]; rfl, ?_⟩
        rw [Owned, map_append, ← cons_append]
        exact rel_append howned (.cons hcheck .nil)
      · next exit hcheck =>
        split
        · trivial
        · next hne =>
          refine ⟨states, n, rfl, howned, .inr ⟨hne, header, rest, hsplit, ?_⟩⟩
          rw [Permits, hcheck]
          nofun

/-! ## Main result -/

/-- **Import decision safety.** Let the fork schedule be monotone in time.

* a run of checkpoints has between one and 1024 headers of the queue. What the permit leaves of it
  is the non-empty prefix of the headers that the node leads when each of them is checked; the first
  one it does not lead ends the run. The zone block that imports it is under T13 rules and not in a
  later fork than the L1 tip;
* when the finalized target is visible, such a run leaves the last queued header, unless that header
  is alone and its fork is older than the zone's;
* under T13 rules a full import happens only in the fork of the imported header;
* before T13 the import is a full import of the first header. -/
theorem import_decision_safe (spec : ZoneSchedule W) (mono : Monotone spec.tempoHardforkAt)
    {first latest : NumHash W} {rest : List (NumHash W)}
    (hrun : HeaderRun spec (first :: rest) latest) (finalizedL1Timestamp : Option ℕ)
    (finalizedTarget : Option FinalizedTarget) (parentMillis wallClockMillis : ℕ) :
    let queued := first :: rest
    let decision := tempoImportDecision spec queued latest finalizedL1Timestamp finalizedTarget
      parentMillis wallClockMillis
    let tip := spec.l1TipHardfork latest finalizedL1Timestamp
    let zone := spec.zoneHardfork parentMillis wallClockMillis
    (∀ k, decision = .importCheckpoints k →
      1 ≤ k ∧ k ≤ min queued.length 1024 ∧
      (∀ (me : K) (front front' : SealedL1Block W) (states : List (EngineNode K W))
        (permitted : List (NumHash W)),
        PermitPath me front (queued.take k) states (.permitted front' permitted) →
          permitted ≠ [] ∧ permitted <+: queued ∧
          (∃ passed n, states = passed ++ [n] ∧
            List.Forall₂ (Permits me) passed (front.number :: permitted.map (·.number)) ∧
            (permitted = queued.take k ∨ ∃ next rest, queued.take k = permitted ++ next :: rest ∧
              ¬ Permits me n next.number)) ∧
          ∀ final ∈ permitted.getLast?, spec.t13 ≤ zone final ∧ zone final ≤ tip) ∧
      (targetIsVisible finalizedTarget queued →
        k < queued.length ∨ queued = [first] ∧ spec.l1Hardfork first < zone first)) ∧
    (decision = .importFull → spec.t13 ≤ zone first →
      zone first = spec.l1Hardfork first ∧ zone first ≤ tip) ∧
    (zone first < spec.t13 → decision = .importFull) ∧
    ∀ (n : EngineNode K W) (front : SealedL1Block W), n.queue.pending.head? = some front →
      (n.queue.pending.take (MAX_TEMPO_HEADERS_PER_ZONE_BLOCK + 1)).map (·.header) = queued →
      decision = .importFull →
        n.nextAvailable spec front latest finalizedL1Timestamp finalizedTarget parentMillis
          wallClockMillis = .selected front [] ∧ front.header = first := by
  intro queued decision tip zone
  have hdecision : decision = _ := tempoImportDecision_cons spec first rest latest
    finalizedL1Timestamp finalizedTarget parentMillis wallClockMillis
  refine ⟨?_, ?_, ?_, ?_⟩
  · intro k hk
    rw [hdecision] at hk
    split_ifs at hk with hold hahead hzero hunready
    cases hk
    refine ⟨Nat.pos_of_ne_zero hzero, checkpointCount_le, ?_, ?_⟩
    · intro me front front' states permitted hpath
      obtain ⟨passed, n, hstates, howned, hend⟩ := hpath.kept
      have htake : queued.take (checkpointCount spec first rest finalizedTarget parentMillis
          wallClockMillis) ≠ [] := by
        intro hnil
        rcases take_eq_nil_iff.1 hnil with hnone | hempty
        · exact hzero hnone
        · exact cons_ne_nil _ _ hempty
      have hkept : permitted ≠ [] ∧ permitted <+: queued.take (checkpointCount spec first rest
          finalizedTarget parentMillis wallClockMillis) := by
        rcases hend with rfl | ⟨hne, next, more, hcut, -⟩
        · exact ⟨htake, prefix_rfl⟩
        · exact ⟨hne, hcut ▸ prefix_append _ _⟩
      have hqueued : permitted <+: queued := hkept.2.trans (List.take_prefix _ _)
      refine ⟨hkept.1, hqueued, ⟨passed, n, hstates, howned, hend.imp_right And.right⟩, ?_⟩
      intro final hfinal
      have hmem : final ∈ queued := hqueued.subset (mem_of_mem_getLast? hfinal)
      -- the last imported header is not before the first one, on which the decision was made
      have hafter : spec.timestampMillis first ≤ spec.timestampMillis final := by
        rcases mem_cons.1 hmem with rfl | hmem
        · exact le_rfl
        · exact (pairwise_cons.1 hrun.ordered).1 final hmem
      refine ⟨(Nat.le_of_not_lt hold).trans (zoneHardfork_mono mono hafter), ?_⟩
      apply (zoneHardfork_le_max hafter).trans
      exact max_le (Nat.le_of_not_lt hahead)
        (l1Hardfork_le_tip mono (hrun.tip final hmem) finalizedL1Timestamp)
    · intro hvisible
      rcases checkpointCount_reserves hvisible with hlt | ⟨rfl, hforced⟩
      · exact .inl hlt
      · exact .inr ⟨rfl, hforced⟩
  · intro hfull hnewer
    rw [hdecision] at hfull
    split_ifs at hfull with hold hahead hzero hunready
    · exact absurd hnewer (Nat.not_le_of_lt hold)
    · exact ⟨Nat.le_antisymm (zone_le_of_no_checkpoint hzero) (l1Hardfork_le_zone mono first),
        Nat.le_of_not_lt hahead⟩
  · intro hold
    rw [hdecision, if_pos hold]
  · intro n front hfront hqueued hfull
    refine ⟨?_, ?_⟩
    · have hfull : tempoImportDecision spec queued latest finalizedL1Timestamp finalizedTarget
          parentMillis wallClockMillis = .importFull := hfull
      rw [EngineNode.nextAvailable, hqueued]
      simp only [hfull]
    · cases hpending : n.queue.pending with
      | nil =>
        rw [hpending] at hfront
        cases hfront
      | cons block more =>
        rw [hpending] at hfront hqueued
        cases hfront
        exact (List.cons.inj hqueued).1

namespace Example

/-- A schedule that activates T13 at second ten. Headers are stamped by number, one per second. -/
def forkSchedule : ZoneSchedule Sym where
  tempoHardforkAt := fun seconds => if seconds < 10 then 12 else 13
  t13 := 13
  timestampMillis := fun header => header.number * 1000

theorem forkSchedule_mono : Monotone forkSchedule.tempoHardforkAt := by
  intro a b hab
  unfold forkSchedule
  simp only
  split_ifs <;> omega

def crossing : List (NumHash Sym) := [⟨9, .num 9⟩, ⟨10, .num 10⟩, ⟨11, .num 11⟩]

theorem crossing_run : HeaderRun forkSchedule crossing ⟨11, .num 11⟩ where
  contiguous := by decide
  ordered := by decide
  tip := by decide

/-- A node whose schedule hands the leadership from 10 to 20 at block 10. -/
def handingOver : EngineNode ℕ Sym where
  queue := .new
  delivered := []
  leadership := ⟨((P2p.LeadershipScheduleState.uninitialized.publish ⟨1, 10, 3⟩).2.publish
    ⟨2, 20, 10⟩).2, [], [], false⟩
  gate := none
  subscriber := .ready
  engine := .idle
  imports := []

def crossingFront : SealedL1Block Sym := QueueExample.block 9 ⟨[], []⟩

theorem crossing_permit : PermitPath 10 crossingFront (crossing.take 2)
    [handingOver, handingOver, handingOver] (.permitted crossingFront [⟨9, .num 9⟩]) := by
  have hfront : PermitPath 10 crossingFront (crossing.take 2) [handingOver]
    (.checking crossingFront [] (crossing.take 2)) := .front handingOver
  have hfirst := hfront.header handingOver
  exact PermitPath.header handingOver hfirst

end Example

/-- At second ten the example zone checkpoints the two headers before the visible target, and the
permit cuts the run before the header at which another node takes over. -/
theorem import_decision_safe_example :
    tempoImportDecision Example.forkSchedule Example.crossing ⟨11, .num 11⟩ none (some ⟨11, true⟩) 0
        10000 = .importCheckpoints 2 ∧
      2 < Example.crossing.length ∧ ¬ Permits 10 Example.handingOver 10 := by
  have hdecision : tempoImportDecision Example.forkSchedule Example.crossing ⟨11, .num 11⟩ none
      (some ⟨11, true⟩) 0 10000 = .importCheckpoints 2 := by decide
  have hsafe := (import_decision_safe (K := ℕ) Example.forkSchedule Example.forkSchedule_mono
    Example.crossing_run none (some ⟨11, true⟩) 0 10000).1 2 hdecision
  refine ⟨hdecision, ?_, ?_⟩
  · rcases hsafe.2.2.2 (by decide) with hlt | ⟨hone, -⟩
    · exact hlt
    · cases hone
  obtain ⟨-, -, ⟨passed, n, hstates, -, hend⟩, -⟩ := hsafe.2.2.1 _ _ _ _ _ Example.crossing_permit
  obtain rfl : Example.handingOver = n := by simpa using congrArg getLast? hstates
  rcases hend with hall | ⟨next, rest, hnext, hrefused⟩
  · cases hall
  · cases hnext
    exact hrefused

end TempoZones
