import TempoZones.Rpc.FilterOwners

/-!
# What scoping makes of a filter

`scope` narrows a filter to the caller in one topic position. `Filter.Keeps` is the condition that
it adds to the caller's filter, and the filters it refuses are those that name the caller in no
position that their event types make eligible.
-/

namespace TempoZones.Rpc

open Lib List

variable {W : Type} [EvmWord W] [DecidableEq W] {lib : LogLib W} {f f' : Filter W}
  {zoneTokens : List Address} {caller : Address}

/-- What scoping asks of a log beyond the filter: the caller in the first topic if the filter names
the caller there for an eligible event type, and in the second topic otherwise. -/
def Filter.Keeps (f : Filter W) (caller : Address) (raw : RawLog W) : Prop :=
  if intoWord caller ∈ f.topics1 ∧ f.single ≠ [] then
    raw.topics[0]? ≠ some TRANSFER_BLOCKED_TOPIC ∧ raw.topics[1]? = some (intoWord caller)
  else (∃ t ∈ (TWO_PARTY_TOPICS : List W), raw.topics[0]? = some t) ∧
    raw.topics[2]? = some (intoWord caller)

instance (f : Filter W) (caller : Address) (raw : RawLog W) : Decidable (f.Keeps caller raw) :=
  inferInstanceAs (Decidable (ite _ _ _))

theorem isLogVisible_topic {raw : RawLog W} (h : isLogVisible lib raw caller = true) :
    ∃ t ∈ (WHITELISTED_TOPICS : List W), raw.topics[0]? = some t := by
  unfold isLogVisible at h
  cases htopic : raw.topics[0]? with
  | none => simp [htopic] at h
  | some t =>
    rw [htopic, Bool.and_eq_true] at h
    exact ⟨t, of_decide_eq_true h.1, rfl⟩

theorem Filter.asked_ne_zero (hzero : (0 : W) ∉ (WHITELISTED_TOPICS : List W)) : f.asked ≠ [0] := by
  intro h
  exact hzero (Filter.mem_asked.1 (h ▸ mem_singleton_self (0 : W))).1

/-- On visible logs the scoped filter is the filter with what scoping adds to it. -/
theorem scope_matches (hzero : (0 : W) ∉ (WHITELISTED_TOPICS : List W))
    (h : scope lib zoneTokens caller f = .ok f') {raw : RawLog W}
    (hvisible : isLogVisible lib raw caller = true) :
    f'.matches raw = true ↔ f.matches raw = true ∧
      (raw.address ∈ zoneTokens ∨ raw.address = lib.guard) ∧ f.Keeps caller raw := by
  obtain ⟨t, hwhite, htopic⟩ := isLogVisible_topic hvisible
  have hasked : t ∈ f.asked ↔ f.topics0 = [] ∨ t ∈ f.topics0 := by simp [Filter.mem_asked, hwhite]
  rw [scope_eq] at h
  split at h
  · next hall =>
    simp only [scopeFilterForCaller_eq, Filter.asked_ne_zero hzero, or_false] at h
    split at h
    · -- no event type is asked for, and a visible log has one
      next hnone =>
      cases h
      have hne : t ≠ 0 := fun h => hzero (h ▸ hwhite)
      rw [hnone] at hasked
      simp only [Filter.matches_iff, htopic, Option.some.injEq, exists_eq_right', ← hasked]
      simp [hne]
    split at h
    · next hfirst =>
      cases h
      rw [Filter.Keeps, if_pos hfirst]
      simp only [Filter.matches_iff, Filter.scopedAddress_iff hall, htopic, hfirst.2, false_or,
        ne_eq, Option.some.injEq, exists_eq_right', cons_ne_nil, mem_singleton, exists_eq_left]
      simp only [Filter.single, mem_filter, hasked, decide_eq_true_eq]
      constructor
      · rintro ⟨⟨hmatch, hown⟩, ⟨htype, hne⟩, hcaller, hrest⟩
        exact ⟨⟨hmatch, htype, .inr ⟨_, hfirst.1, hcaller⟩, hrest⟩, hown, hne, hcaller⟩
      · rintro ⟨⟨hmatch, htype, -, hrest⟩, hown, hne, hcaller⟩
        exact ⟨⟨hmatch, hown⟩, ⟨htype, hne⟩, hcaller, hrest⟩
    · next hfirst =>
      split at h
      · next hsecond =>
        cases h
        rw [Filter.Keeps, if_neg hfirst]
        simp only [Filter.matches_iff, Filter.scopedAddress_iff hall, htopic, hsecond.2, false_or,
          Option.some.injEq, exists_eq_right', cons_ne_nil, mem_singleton, exists_eq_left]
        simp only [Filter.pair, mem_filter, hasked, decide_eq_true_eq]
        constructor
        · rintro ⟨⟨hmatch, hown⟩, ⟨htype, htwo⟩, hother, hcaller, hrest⟩
          exact ⟨⟨hmatch, htype, hother, .inr ⟨_, hsecond.1, hcaller⟩, hrest⟩, hown, htwo, hcaller⟩
        · rintro ⟨⟨hmatch, htype, hother, -, hrest⟩, hown, htwo, hcaller⟩
          exact ⟨⟨hmatch, hown⟩, ⟨htype, htwo⟩, hother, hcaller, hrest⟩
      · cases h
  · cases h

/-- **Log scoping.** The logs that an accepted filter selects after scoping, and that are visible to
the caller, are those of the original filter that an enabled token or the guard emitted, that the
caller may see, and that scoping keeps. A filter is rejected exactly if it names a foreign address,
or names the caller in no position that its event types make eligible. -/
theorem log_scoping_exact (hzero : (0 : W) ∉ (WHITELISTED_TOPICS : List W)) (lib : LogLib W)
    (zoneTokens : List Address) (caller : Address) (f : Filter W) :
    (∀ f', scope lib zoneTokens caller f = .ok f' → ∀ logs : List (Log W),
      (logs.filter fun log => f'.matches log.inner).filter
          (fun log => isLogVisible lib log.inner caller) =
        logs.filter fun log => f.matches log.inner &&
          decide (log.inner.address ∈ zoneTokens ∨ log.inner.address = lib.guard) &&
          isLogVisible lib log.inner caller && decide (f.Keeps caller log.inner)) ∧
    ∀ e, scope lib zoneTokens caller f = .error e ↔
      (e = .invalidFilterAddress ∧ ∃ a ∈ f.address, a ∉ zoneTokens ∧ a ≠ lib.guard) ∨
      (e = .callerScopedFilter ∧ (∀ a ∈ f.address, a ∈ zoneTokens ∨ a = lib.guard) ∧
        f.asked ≠ [] ∧ ¬ (intoWord caller ∈ f.topics1 ∧ f.single ≠ []) ∧
        ¬ (intoWord caller ∈ f.topics2 ∧ f.pair ≠ [])) := by
  constructor
  · intro f' hscope logs
    rw [filter_filter]
    refine filter_congr fun log _ => ?_
    cases hvisible : isLogVisible lib log.inner caller with
    | false => simp
    | true =>
      rw [Bool.eq_iff_iff, Bool.true_and, scope_matches hzero hscope hvisible]
      simp only [Bool.and_eq_true, decide_eq_true_eq, Bool.and_true, and_assoc]
  · intro e
    simp only [scope_eq, scopeFilterForCaller_eq, Filter.asked_ne_zero hzero, or_false]
    by_cases hall : ∀ a ∈ f.address, a ∈ zoneTokens ∨ a = lib.guard
    · have hforeign : ¬ ∃ a ∈ f.address, a ∉ zoneTokens ∧ a ≠ lib.guard := by
        rintro ⟨a, ha, htoken, hguard⟩
        exact (hall a ha).elim htoken hguard
      simp only [if_pos hall, hforeign, and_false, false_or, eq_comm (a := e)]
      split_ifs <;> simp_all
    · rw [if_neg hall]
      constructor
      · intro h
        push Not at hall
        exact .inl ⟨(Except.error.inj h).symm, hall⟩
      · rintro (⟨rfl, -⟩ | ⟨-, hown, -⟩)
        · rfl
        · exact absurd hown hall

end TempoZones.Rpc

namespace TempoZones.Example

open TempoZones.Lib TempoZones.Rpc

/-- Transfers of account 1 or account 2. -/
def pairFilter : Rpc.Filter Sym := { ownFilter with topics1 := [intoWord 1, intoWord 2] }

def exchange : List (Log Sym) :=
  [⟨transferLog 1 2, .num 80, 1, 12, .num 70, 0, 0, false⟩,
    ⟨transferLog 2 1, .num 80, 1, 12, .num 70, 0, 1, false⟩]

/-- A transfer to the caller matches the filter and is visible, and the scoped filter misses it. -/
theorem incoming_transfer_lost :
    pairFilter.matches (transferLog 2 1) = true ∧ isLogVisible logLib (transferLog 2 1) 1 = true ∧
      (scope logLib [5] 1 pairFilter).map (fun f => f.matches (transferLog 2 1)) = .ok false := by
  decide +kernel

/-- A filter that names account 2 only is refused for account 1, and of an exchange of transfers the
filter that names both keeps the outgoing one. -/
theorem foreign_filter_refused :
    scope logLib [5] 1 { ownFilter with topics1 := [intoWord 2] } = .error .callerScopedFilter ∧
      ∀ f', scope logLib [5] 1 pairFilter = .ok f' →
        (exchange.filter fun log => f'.matches log.inner).filter
          (fun log => isLogVisible logLib log.inner 1) = exchange.take 1 := by
  have hzero : (0 : Sym) ∉ (WHITELISTED_TOPICS : List Sym) := by decide +kernel
  constructor
  · exact ((log_scoping_exact hzero logLib [5] 1 _).2 _).2
      (.inr ⟨rfl, by simp [ownFilter], by decide +kernel⟩)
  · intro f' hscope
    rw [(log_scoping_exact hzero logLib [5] 1 pairFilter).1 f' hscope]
    decide +kernel

end TempoZones.Example
