import Mathlib.Data.List.Chain
import TempoZones.Portal.Runs

/-!
# Roles, sequencer set and leadership

`Coherent` relates the shared role map to the sequencer list, the threshold and the leader.
`LeaderHistory` relates leader, epoch and activation block to the announced transitions. Both hold
in every observed state of every run. Other steps leave the governance state alone, so every step
acts on it as a `GovernStep` (`Micro.governs`).
-/

namespace TempoZones

open Lib List Function

variable {W : Type} [EvmWord W] [DecidableEq W]

/-- Sequencer list, threshold, role map and leader agree. -/
structure Coherent (g : Governance) : Prop where
  size_pos : 1 ≤ g.sequencers.length
  size_le : g.sequencers.length ≤ MAX_SEQUENCERS
  nodup : g.sequencers.Nodup
  ne_zero : ∀ a ∈ g.sequencers, a ≠ 0
  role_iff : ∀ a, g.role a = .sequencer ↔ a ∈ g.sequencers
  threshold_pos : 1 ≤ g.sequencerThreshold
  threshold_le : g.sequencerThreshold ≤ g.sequencers.length
  leader_mem : g.leader ∈ g.sequencers

/-- The announced transitions account for leader, epoch and activation block. -/
structure LeaderHistory (env : BlockEnv) (g : Governance) (updates : List LeaderUpdate) :
    Prop where
  epochs : updates.map (·.epoch) = List.range' 1 g.leaderEpoch
  changed : ∀ u ∈ updates, u.previousLeader ≠ u.newLeader
  linked : updates.IsChain fun u v => v.previousLeader = u.newLeader
  blocks : (updates.map (·.activationTempoBlock)).Pairwise (· < ·)
  bounded : ∀ u ∈ updates, u.activationTempoBlock ≤ g.leaderActivationTempoBlock
  last : ∃ u, updates.getLast? = some u ∧ u.newLeader = g.leader ∧ u.epoch = g.leaderEpoch ∧
    u.activationTempoBlock = g.leaderActivationTempoBlock
  current : g.leaderActivationTempoBlock ≤ env.number

/-- One governance action on the leader: nothing, or a real change with the next epoch and a
later activation block. -/
inductive LeaderMove (env : BlockEnv) (g g' : Governance) : Prop
  | kept (leader : g'.leader = g.leader) (epoch : g'.leaderEpoch = g.leaderEpoch)
      (block : g'.leaderActivationTempoBlock = g.leaderActivationTempoBlock)
  | moved (leader : g'.leader ≠ g.leader) (epoch : g'.leaderEpoch = g.leaderEpoch + 1)
      (block : g'.leaderActivationTempoBlock = env.number)
      (later : g.leaderActivationTempoBlock < g'.leaderActivationTempoBlock)

/-! ## The role map -/

namespace Governance

theorem assignRoles_apply (r : Role) (role : Address → Role) (accounts : List Address)
    (a : Address) : assignRoles r role accounts a = if a ∈ accounts then r else role a := by
  induction accounts generalizing role with
  | nil => simp [assignRoles]
  | cons b rest ih =>
    have hstep : assignRoles r role (b :: rest) = assignRoles r (update role b r) rest := rfl
    rw [hstep, ih]
    by_cases hb : a = b
    · simp [hb]
    · simp [hb]

theorem replacedRoles_apply (g : Governance) (new : List Address) (a : Address) :
    g.replacedRoles new a =
      if a ∈ new then .sequencer else if a ∈ g.sequencers then .none else g.role a := by
  rw [replacedRoles, assignRoles_apply, assignRoles_apply]

theorem replacedRoles_eq_sequencer {g : Governance} (hc : Coherent g) (new : List Address)
    (a : Address) : g.replacedRoles new a = .sequencer ↔ a ∈ new := by
  rw [replacedRoles_apply]
  by_cases hnew : a ∈ new
  · simp [hnew]
  by_cases hold : a ∈ g.sequencers
  · simp [hnew, hold]
  · simp only [hnew, hold, if_false, iff_false]
    exact fun hrole => hold ((hc.role_iff a).1 hrole)

end Governance

/-! ## One governance step -/

section Step

variable {env : BlockEnv} {sender : Address} {g g' : Governance} {logs : List (PortalEvent W)}

theorem Coherent.step (hc : Coherent g) (h : GovernStep env sender g g' logs) : Coherent g' := by
  cases h with
  | sequencers admin valid =>
    have hleader : g.leader ≠ 0 := hc.ne_zero _ hc.leader_mem
    exact
      { size_pos := valid.size_pos
        size_le := valid.size_le
        nodup := valid.nodup
        ne_zero := valid.ne_zero
        role_iff := Governance.replacedRoles_eq_sequencer hc _
        threshold_pos := valid.threshold_pos
        threshold_le := valid.threshold_le
        leader_mem := (Governance.replacedRoles_eq_sequencer hc _ _).1 (valid.leader_kept hleader) }
  | leader member _ _ => exact { hc with leader_mem := (hc.role_iff _).1 member }
  | @role account granted next kind _ move =>
    refine { hc with role_iff := fun a => ?_ }
    by_cases ha : a = account
    · subst ha
      have hnot : g.role a ≠ .sequencer := by
        rcases move with ⟨hrole, -⟩ | ⟨hrole, -⟩
        · rw [hrole]
          exact Role.noConfusion
        · rw [hrole]
          rcases kind with rfl | rfl | rfl <;> exact Role.noConfusion
      have hnext : next ≠ .sequencer := by
        rcases move with ⟨-, rfl⟩ | ⟨-, rfl⟩
        · rcases kind with rfl | rfl | rfl <;> exact Role.noConfusion
        · exact Role.noConfusion
      simp only [update_self]
      exact iff_of_false hnext fun hmem => hnot ((hc.role_iff a).2 hmem)
    · simp only [update_of_ne ha]
      exact hc.role_iff a
  | _ => exact { hc with }

variable {updates : List LeaderUpdate}

section

variable (hh : LeaderHistory env g updates)
include hh

theorem LeaderHistory.kept (quiet : leaderUpdates logs = []) (leader : g'.leader = g.leader)
    (epoch : g'.leaderEpoch = g.leaderEpoch)
    (block : g'.leaderActivationTempoBlock = g.leaderActivationTempoBlock) :
    LeaderHistory env g' (updates ++ leaderUpdates logs) ∧ LeaderMove env g g' := by
  rw [quiet, append_nil]
  refine ⟨?_, .kept leader epoch block⟩
  obtain ⟨hepochs, hchanged, hlinked, hblocks, hbounded, hlast, hcurrent⟩ := hh
  rw [← epoch] at hepochs
  rw [← leader, ← epoch, ← block] at hlast
  rw [← block] at hbounded hcurrent
  exact ⟨hepochs, hchanged, hlinked, hblocks, hbounded, hlast, hcurrent⟩

theorem LeaderHistory.moved {new : Address} (changed : new ≠ g.leader)
    (later : g.leaderActivationTempoBlock < env.number) :
    LeaderHistory env
      { g with leader := new, leaderEpoch := g.leaderEpoch + 1
               leaderActivationTempoBlock := env.number }
      (updates ++ [⟨g.leader, new, g.leaderEpoch + 1, env.number⟩]) := by
  obtain ⟨u, hlast, hleader, hepoch, hblock⟩ := hh.last
  constructor
  · rw [map_append, hh.epochs, List.range'_concat]
    simp [Nat.add_comm]
  · intro v hv
    rcases mem_append.1 hv with hv | hv
    · exact hh.changed v hv
    · obtain rfl := mem_singleton.1 hv
      exact changed.symm
  · refine isChain_append.2 ⟨hh.linked, isChain_singleton _, ?_⟩
    intro x hx y hy
    rw [hlast] at hx
    cases hx
    cases hy
    exact hleader.symm
  · rw [map_append, pairwise_append]
    refine ⟨hh.blocks, pairwise_singleton _ _, ?_⟩
    intro x hx y hy
    obtain ⟨v, hv, rfl⟩ := mem_map.1 hx
    obtain rfl := mem_singleton.1 hy
    exact lt_of_le_of_lt (hh.bounded v hv) later
  · intro v hv
    rcases mem_append.1 hv with hv | hv
    · exact (hh.bounded v hv).trans later.le
    · obtain rfl := mem_singleton.1 hv
      exact le_rfl
  · exact ⟨_, List.getLast?_concat, rfl, rfl, rfl⟩
  · exact le_rfl

theorem LeaderHistory.step (h : GovernStep env sender g g' logs) :
    LeaderHistory env g' (updates ++ leaderUpdates logs) ∧ LeaderMove env g g' := by
  cases h with
  | leader _ changed block =>
    have hlater : g.leaderActivationTempoBlock < env.number := lt_of_le_of_ne hh.current block
    exact ⟨hh.moved changed hlater, .moved changed rfl rfl hlater⟩
  | sequencers _ _ => exact hh.kept (replacementLogs_quiet _ _ _ _).2.1 rfl rfl rfl
  | admins logged => rcases logged with rfl | rfl <;> exact hh.kept rfl rfl rfl rfl
  | _ => exact hh.kept rfl rfl rfl rfl

end

end Step

/-! ## Every step -/

section Run

variable {ctx : CallCtx W} {s s' : L1 W}

theorem Micro.governs (h : Micro ctx s s') :
    ∃ sender logs, GovernStep (W := W) ctx.env sender s.portal.gov s'.portal.gov logs ∧
      leaderUpdates s'.logs = leaderUpdates s.logs ++ leaderUpdates logs := by
  -- steps outside governance are the empty governance step
  have hsame : s'.portal.gov = s.portal.gov → leaderUpdates s'.logs = leaderUpdates s.logs →
      ∃ sender logs, GovernStep (W := W) ctx.env sender s.portal.gov s'.portal.gov logs ∧
        leaderUpdates s'.logs = leaderUpdates s.logs ++ leaderUpdates logs := by
    intro hgov hlogs
    refine ⟨0, [], hgov ▸ .unchanged, ?_⟩
    rw [hlogs]
    exact (append_nil _).symm
  cases h with
  | call step =>
    cases step with
    | govern step => exact ⟨_, _, step, leaderUpdates_append _ _⟩
    | configure step =>
      refine hsame rfl ?_
      cases step with
      | params _ quiet
      | active _ quiet => exact leaderUpdates_concat quiet.leader _
      | enable _ _ _ => exact leaderUpdates_concat rfl _
    | deposit _ collected _ =>
      obtain ⟨hportal, hlogs, -⟩ := collected.frame
      refine hsame (congrArg (·.gov) hportal) ?_
      exact (leaderUpdates_concat rfl _).trans (congrArg leaderUpdates hlogs)
    | claimRefund _
    | submitBatch _ => exact hsame rfl (leaderUpdates_concat rfl _)
  | enter _ => exact hsame rfl rfl
  | exit _ => exact hsame rfl rfl
  | withdraw _ _ disposed =>
    refine hsame disposed.gov_eq ?_
    cases disposed with
    | refunded _ refund =>
      obtain ⟨-, ⟨log, hlogs, hquiet⟩, -⟩ := refund.frame
      rw [hlogs]
      exact leaderUpdates_concat hquiet.leader _
    | bounced _ _ => exact (leaderUpdates_concat rfl _).trans (leaderUpdates_concat rfl _)
    | paid _ _ => exact leaderUpdates_concat rfl _
    | opened _ _ _ => rfl
  | closeCallback _ => exact hsame rfl (leaderUpdates_concat rfl _)
  | outside move => exact hsame (by rw [move.portal_eq]) (by rw [move.logs_eq])

/-! ## Every run -/

variable {P : CallCtx W → Prop} {e e' : BlockEnv} {m m' : L1 W}

theorem Initial.coherent {args : InitializeArgs} {portalAddress : Address}
    (h : Initial e args portalAddress s) : Coherent s.portal.gov := by
  obtain ⟨role, hgov, hrole⟩ := h.gov
  have hassign : ∀ a, (initialGovernance e args).role a = .sequencer ↔
      a ∈ args.initialSequencers := by
    intro a
    show Governance.assignRoles _ _ _ a = _ ↔ _
    rw [Governance.assignRoles_apply]
    by_cases ha : a ∈ args.initialSequencers <;> simp [ha]
  rw [hgov]
  refine ⟨h.size_pos, h.size_le, h.nodup, h.ne_zero, fun a => ?_, h.threshold_pos,
    h.threshold_le, ?_⟩
  · show role a = .sequencer ↔ a ∈ args.initialSequencers
    rcases hrole a with heq | ⟨hnone, hgranted⟩
    · rw [heq]
      exact hassign a
    have hnot : a ∉ args.initialSequencers := fun hmem => by
      rw [(hassign a).2 hmem] at hnone
      cases hnone
    refine iff_of_false (fun hseq => ?_) hnot
    rcases hgranted with hgranted | hgranted <;> cases hseq.symm.trans hgranted
  show args.initialSequencers.headD 0 ∈ args.initialSequencers
  cases hlist : args.initialSequencers with
  | nil => exact absurd h.size_pos (by simp [hlist])
  | cons a rest => simp

theorem Initial.leaderHistory {args : InitializeArgs} {portalAddress : Address}
    (h : Initial e args portalAddress s) :
    LeaderHistory e s.portal.gov (leaderUpdates s.logs) := by
  have hleader := h.coherent.ne_zero _ h.coherent.leader_mem
  obtain ⟨role, hgov, -⟩ := h.gov
  rw [hgov] at hleader ⊢
  rw [h.leaders]
  constructor
  · rfl
  · intro u hu
    obtain rfl := mem_singleton.1 hu
    exact hleader.symm
  · exact isChain_singleton _
  · exact pairwise_singleton _ _
  · intro u hu
    obtain rfl := mem_singleton.1 hu
    exact le_rfl
  · exact ⟨_, rfl, rfl, rfl, rfl⟩
  · exact le_rfl

theorem Reached.coherent (h : Reached P e m) : Coherent m.portal.gov := by
  refine h.invariant (I := fun _ s => Coherent s.portal.gov) ?_ (fun _ hs => hs) ?_
  · exact Initial.coherent
  intro ctx s s' _ hs hstep
  obtain ⟨sender, logs, hgov, -⟩ := hstep.governs
  exact hs.step hgov

theorem Reached.leaderHistory (h : Reached P e m) :
    LeaderHistory e m.portal.gov (leaderUpdates m.logs) := by
  refine h.invariant (I := fun e s => LeaderHistory e s.portal.gov (leaderUpdates s.logs)) ?_ ?_ ?_
  · exact Initial.leaderHistory
  · exact fun horder hs => { hs with current := hs.current.trans horder.1 }
  intro ctx s s' _ hs hstep
  obtain ⟨sender, logs, hgov, hlogs⟩ := hstep.governs
  rw [hlogs]
  exact (hs.step hgov).1

theorem Seen.leaderUpdates_prefix (init : m.portal.gov.initialized = true)
    (h : Seen P e m e' m') : leaderUpdates m.logs <+: leaderUpdates m'.logs := by
  refine Seen.invariant (I := fun _ s => leaderUpdates m.logs <+: leaderUpdates s.logs)
    (fun _ hs => hs) ?_ init prefix_rfl h
  intro ctx s s' _ hs hstep
  obtain ⟨sender, logs, -, hlogs⟩ := hstep.governs
  rw [hlogs]
  exact hs.trans (prefix_append _ _)

/-- **Roles, sequencer set and leadership stay coherent.** In every observed state: the sequencer
list, the role map, the threshold and the leader agree, each address has one role, and the announced
transitions account for leader, epoch and activation block. A portal call changes leader and epoch
together; later states only add transitions; and `setLeader` with another epoch than the current one
keeps the leader. -/
theorem roles_and_leadership_coherent (h : Reached P e m) :
    Coherent m.portal.gov ∧
    (∀ a r r', m.portal.gov.hasRole a r → m.portal.gov.hasRole a r' → r = r') ∧
    LeaderHistory e m.portal.gov (leaderUpdates m.logs) ∧
    (∀ ctx sender c m', e.NotAfter ctx.env → sender ≠ ctx.ext.self →
      exec ctx sender m c = .ok m' → LeaderMove ctx.env m.portal.gov m'.portal.gov) ∧
    (∀ e' m', Seen P e m e' m' → leaderUpdates m.logs <+: leaderUpdates m'.logs) ∧
    (∀ env sender newLeader expectedEpoch g' (logs : List (PortalEvent W)),
      expectedEpoch ≠ m.portal.gov.leaderEpoch →
      govern env sender m.portal.gov (.setLeader newLeader expectedEpoch) = .ok (g', logs) →
      g'.leader = m.portal.gov.leader) := by
  refine ⟨h.coherent, fun a r r' hr hr' => hr.symm.trans hr', h.leaderHistory, ?_,
    fun e' m' hseen => hseen.leaderUpdates_prefix h.initialized, ?_⟩
  · intro ctx sender c m' horder hsender hexec
    have hstep := Micro.call (exec_step h.initialized hsender hexec)
    obtain ⟨sender', logs, hgov, -⟩ := hstep.governs
    have hhistory := h.leaderHistory
    exact (LeaderHistory.step { hhistory with
      current := hhistory.current.trans horder.1 } hgov).2
  · intro env sender newLeader expectedEpoch g' logs hepoch hgovern
    rcases setLeader_step hgovern with ⟨rfl, -⟩ | ⟨heq, -⟩
    · rfl
    · exact absurd heq.symm hepoch

namespace Example

def nextCtx : CallCtx Sym := ⟨{ env with number := 8, number_lt := next_number_lt }, ext⟩

/-- Sequencer 1 hands the leadership over to sequencer 2. -/
def handedOver : L1 Sym :=
  match exec nextCtx 1 start (.govern (.setLeader 2 1)) with
  | .ok s => s
  | .error _ => start

theorem handedOver_reached : Reached (fun _ => True) nextCtx.env handedOver := by
  have hcall : exec nextCtx 1 start (.govern (.setLeader 2 1)) = .ok handedOver := rfl
  exact ⟨env, start, started trivial, env, start, nextCtx, .refl _ _, ⟨by decide, le_rfl⟩, trivial,
    rfl, .reached (.call (.refl _) (by decide) hcall)⟩

end Example

theorem roles_and_leadership_coherent_example :
    Coherent Example.handedOver.portal.gov ∧
      leaderUpdates Example.handedOver.logs = [⟨0, 1, 1, 7⟩, ⟨1, 2, 2, 8⟩] ∧
      ∀ g' (logs : List (PortalEvent Sym)),
        govern Example.nextCtx.env 1 Example.handedOver.portal.gov (.setLeader 1 1) =
          .ok (g', logs) → g'.leader = 2 := by
  obtain ⟨hcoherent, -, -, -, -, hstale⟩ := roles_and_leadership_coherent Example.handedOver_reached
  exact ⟨hcoherent, rfl, fun g' logs => hstale _ 1 1 1 g' logs (by decide)⟩

end Run

end TempoZones
