import TempoZones.Lib.SortedMap

/-!
# Undo logs of ordered maps

A transition that updates a map in place logs the prior value of each key it touches. `Tracked m₀ m
log` says that `log` leads from `m` back to `m₀`. Recording a key before it is written keeps the
relation (`Tracked.record`), writing the log back restores the map (`Tracked.restore_eq`), and
writing out the touched keys brings an old copy up to date (`Tracked.write_back`).
-/

namespace TempoZones.Lib

universe u v

variable {K : Type u} {V : Type v} [LinearOrder K]

namespace SortedMap

/-- Set a key to a value, or drop it. -/
def writeOptional (m : SortedMap K V) (k : K) : Option V → SortedMap K V
  | some v => m.insert k v
  | none => m.erase k

theorem get_writeOptional (m : SortedMap K V) (k : K) (v : Option V) (k' : K) :
    (m.writeOptional k v).get? k' = if k' = k then v else m.get? k' := by
  cases v with
  | some v => exact get_insert k v m k'
  | none => exact get_erase k m k'

/-- Set a key unless it has a value. -/
def insertIfAbsent (k : K) (v : V) (m : SortedMap K V) : SortedMap K V :=
  if (m.get? k).isSome then m else m.insert k v

theorem get_insertIfAbsent (k : K) (v : V) (m : SortedMap K V) (k' : K) :
    (m.insertIfAbsent k v).get? k' = if k' = k then some ((m.get? k).getD v) else m.get? k' := by
  unfold insertIfAbsent
  cases hk : m.get? k with
  | none => rw [Option.isSome_none, if_neg Bool.false_ne_true, get_insert, Option.getD_none]
  | some w =>
    rw [Option.isSome_some, if_pos rfl, Option.getD_some]
    by_cases h : k' = k
    · rw [if_pos h, h, hk]
    · rw [if_neg h]

/-- Write a list of prior values back. -/
def restore (m : SortedMap K V) (entries : List (K × Option V)) : SortedMap K V :=
  entries.foldl (fun m e => m.writeOptional e.1 e.2) m

/-- Writing the values that `m'` has turns `m` into `m'` when the two agree on all other keys. -/
theorem restore_eq_of_agree {m' : SortedMap K V} {entries : List (K × Option V)}
    (hvalues : ∀ e ∈ entries, e.2 = m'.get? e.1) :
    ∀ {m : SortedMap K V}, (∀ k, k ∉ entries.map Prod.fst → m.get? k = m'.get? k) →
      m.restore entries = m' := by
  induction entries with
  | nil => exact fun hagree => ext_get fun k => hagree k List.not_mem_nil
  | cons e entries ih =>
    intro m hagree
    apply ih fun e' he' => hvalues e' (List.mem_cons_of_mem e he')
    -- after its write the head key agrees as well
    intro k hk
    rw [get_writeOptional]
    split
    · next heq => rw [hvalues e List.mem_cons_self, heq]
    · next hne =>
      apply hagree
      rw [List.map_cons, List.mem_cons]
      rintro (heq | hmem)
      · exact hne heq
      · exact hk hmem

end SortedMap

open SortedMap

/-- The log leads from the current map back to the map before the transition. -/
structure Tracked (m₀ m : SortedMap K V) (log : SortedMap K (Option V)) : Prop where
  recorded : ∀ k v, log.get? k = some v → v = m₀.get? k
  kept : ∀ k, log.get? k = none → m.get? k = m₀.get? k

namespace Tracked

variable {m₀ m m' : SortedMap K V} {log : SortedMap K (Option V)} {k : K}

theorem start (m : SortedMap K V) : Tracked m m ∅ where
  recorded := fun k v h => by rw [get_empty] at h; cases h
  kept := fun _ _ => rfl

/-- A key is recorded with its current value unless it is recorded already, and then written. -/
theorem record (h : Tracked m₀ m log) (hframe : ∀ k', k' ≠ k → m'.get? k' = m.get? k') :
    Tracked m₀ m' (log.insertIfAbsent k (m.get? k)) where
  recorded := by
    intro k' v hv
    rw [get_insertIfAbsent] at hv
    split at hv
    · next heq =>
      subst heq
      cases hlog : log.get? k' with
      | none =>
        rw [hlog, Option.getD_none, Option.some.injEq] at hv
        rw [← hv, h.kept k' hlog]
      | some w =>
        rw [hlog, Option.getD_some, Option.some.injEq] at hv
        rw [← hv, h.recorded k' w hlog]
    · exact h.recorded k' v hv
  kept := by
    intro k' hk'
    rw [get_insertIfAbsent] at hk'
    split at hk'
    · cases hk'
    · next hne => rw [hframe k' hne, h.kept k' hk']

theorem restore_eq (h : Tracked m₀ m log) : m.restore log.entries = m₀ := by
  apply restore_eq_of_agree
  · exact fun e he => h.recorded e.1 e.2 (get_eq_some_iff.2 he)
  intro k hk
  apply h.kept
  rw [get_eq_none_iff]
  exact fun v hv => hk (List.mem_map.2 ⟨(k, v), hv, rfl⟩)

/-- Writing the current values of the recorded keys into a copy of the old map gives the current
map. -/
theorem write_back (h : Tracked m₀ m log) :
    m₀.restore (log.keys.map fun k => (k, m.get? k)) = m := by
  apply restore_eq_of_agree
  · rintro e he
    obtain ⟨k, -, rfl⟩ := List.mem_map.1 he
    rfl
  intro k hk
  have hnone : log.get? k = none := by
    rw [← Option.not_isSome_iff_eq_none, ← mem_keys]
    exact fun hmem => hk (List.mem_map.2 ⟨(k, m.get? k), List.mem_map.2 ⟨k, hmem, rfl⟩, rfl⟩)
  exact (h.kept k hnone).symm

end Tracked

end TempoZones.Lib
