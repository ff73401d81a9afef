import TempoZones.Portal.Roles

/-!
# Abdication is final

Once the abdication of the access policy is effective, the allowed accounts, the callback gateways
and both enforcement modes are frozen (`Seen.frozen`): set replacement moves accounts only between
no role and the sequencer role, guardian updates only between no role and the guardian role. An
abdication of the pause capability bounds every pause that can still run (`PauseBounded`).
-/

namespace TempoZones

open Lib Function Governance

variable {W : Type} [EvmWord W] [DecidableEq W] {capability : Capability}

/-- Allowed accounts, callback gateways and enforcement modes are the same in both states. -/
structure Frozen (g g' : Governance) : Prop where
  accounts : ∀ a, g'.hasRole a .account ↔ g.hasRole a .account
  gateways : ∀ a, g'.hasRole a .callbackGateway ↔ g.hasRole a .callbackGateway
  access : g'.isAccessEnforced = g.isAccessEnforced
  gateway : g'.isGatewayEnforced = g.isGatewayEnforced

theorem Frozen.refl (g : Governance) : Frozen g g := ⟨fun _ => Iff.rfl, fun _ => Iff.rfl, rfl, rfl⟩

theorem Frozen.trans {a b c : Governance} (hab : Frozen a b) (hbc : Frozen b c) : Frozen a c where
  accounts x := (hbc.accounts x).trans (hab.accounts x)
  gateways x := (hbc.gateways x).trans (hab.gateways x)
  access := hbc.access.trans hab.access
  gateway := hbc.gateway.trans hab.gateway

/-- States with the same enforcement modes whose roles differ only among `none`, `sequencer` and
`pauseGuardian` are the same for the access policy. -/
theorem Frozen.of_roles {g g' : Governance} (roles : ∀ a, g'.role a = g.role a ∨
      ((g.role a ≠ .account ∧ g.role a ≠ .callbackGateway) ∧
        g'.role a ≠ .account ∧ g'.role a ≠ .callbackGateway))
    (access : g'.isAccessEnforced = g.isAccessEnforced)
    (gateway : g'.isGatewayEnforced = g.isGatewayEnforced) : Frozen g g' := by
  refine ⟨fun a => ?_, fun a => ?_, access, gateway⟩
  · rcases roles a with heq | ⟨hold, hnew⟩
    · rw [hasRole, hasRole, heq]
    · exact iff_of_false hnew.1 hold.1
  rcases roles a with heq | ⟨hold, hnew⟩
  · rw [hasRole, hasRole, heq]
  · exact iff_of_false hnew.2 hold.2

/-- After a scheduled abdication of the pause capability, no pause lasts a full pause duration
beyond the effective time. -/
def PauseBounded (g : Governance) : Prop :=
  g.abdicationEffectiveAt .pausePortal ≠ 0 →
    g.pauseExpiry < g.abdicationEffectiveAt .pausePortal + PAUSE_DURATION

theorem pauseDuration_pos : 0 < PAUSE_DURATION := by
  unfold PAUSE_DURATION
  omega

section Step

variable {env : BlockEnv} {sender : Address} {g g' : Governance} {logs : List (PortalEvent W)}

theorem GovernStep.effectiveAt_eq (h : GovernStep env sender g g' logs)
    (scheduled : g.abdicationEffectiveAt capability ≠ 0) :
    g'.abdicationEffectiveAt capability = g.abdicationEffectiveAt capability := by
  cases h with
  | @abdicate other _ unscheduled =>
    have hne : capability ≠ other := fun heq => scheduled (heq ▸ unscheduled)
    exact update_of_ne hne _ _
  | _ => rfl

theorem GovernStep.frozen (hc : Coherent g) (h : GovernStep env sender g g' logs)
    (scheduled : g.abdicationEffectiveAt .accessPolicy ≠ 0)
    (effective : g.abdicationEffectiveAt .accessPolicy ≤ env.timestamp) : Frozen g g' := by
  have hclosed : ¬ g.CapabilityActive env .accessPolicy := fun hactive =>
    absurd (hactive scheduled) (Nat.not_lt.2 effective)
  cases h with
  | @sequencers new threshold _ valid =>
    refine Frozen.of_roles (fun a => ?_) rfl rfl
    show g.replacedRoles new a = _ ∨ _ ∧ g.replacedRoles new a ≠ _ ∧ g.replacedRoles new a ≠ _
    rw [replacedRoles_apply]
    by_cases hnew : a ∈ new
    · rcases valid.role_free a hnew with hrole | hrole <;> simp [hnew, hrole]
    by_cases hold : a ∈ g.sequencers
    · simp [hnew, hold, (hc.role_iff a).2 hold]
    · simp [hnew, hold]
  | modes active => exact absurd active hclosed
  | @role account granted next kind active move =>
    rcases kind with rfl | rfl | rfl
    · exact absurd active hclosed
    · exact absurd active hclosed
    refine Frozen.of_roles (fun a => ?_) rfl rfl
    by_cases ha : a = account
    · subst ha
      rcases move with ⟨hrole, rfl⟩ | ⟨hrole, rfl⟩ <;> simp [hrole]
    · exact .inl (update_of_ne ha _ _)
  | _ => exact ⟨fun _ => Iff.rfl, fun _ => Iff.rfl, rfl, rfl⟩

theorem PauseBounded.step (hb : PauseBounded g) (h : GovernStep env sender g g' logs) :
    PauseBounded g' := by
  cases h with
  | pause active _ =>
    intro hscheduled
    have := active hscheduled
    show env.timestamp + PAUSE_DURATION < g.abdicationEffectiveAt .pausePortal + PAUSE_DURATION
    omega
  | resume => exact fun _ => Nat.add_pos_right _ pauseDuration_pos
  | @abdicate capability running unscheduled =>
    have hexpiry : g.pauseExpiry ≤ env.timestamp := Nat.le_of_not_lt running
    intro hscheduled
    show g.pauseExpiry < update g.abdicationEffectiveAt capability
      (env.timestamp + ABDICATION_DELAY) .pausePortal + PAUSE_DURATION
    by_cases hcap : capability = .pausePortal
    · rw [hcap, update_self]
      have := pauseDuration_pos
      omega
    have hne : Capability.pausePortal ≠ capability := fun heq => hcap heq.symm
    rw [update_of_ne hne]
    refine hb fun hzero => hscheduled ?_
    show update g.abdicationEffectiveAt capability _ .pausePortal = 0
    rw [update_of_ne hne, hzero]
  | _ => exact hb

end Step

section Run

variable {P : CallCtx W → Prop} {e e' : BlockEnv} {m m' : L1 W}

theorem Seen.effectiveAt_eq (init : m.portal.gov.initialized = true)
    (scheduled : m.portal.gov.abdicationEffectiveAt capability ≠ 0) (h : Seen P e m e' m') :
    m'.portal.gov.abdicationEffectiveAt capability =
      m.portal.gov.abdicationEffectiveAt capability := by
  refine Seen.invariant (I := fun _ s => s.portal.gov.abdicationEffectiveAt capability =
    m.portal.gov.abdicationEffectiveAt capability) (fun _ hs => hs) ?_ init rfl h
  intro ctx s s' _ hs hstep
  obtain ⟨sender, logs, hgov, -⟩ := hstep.governs
  exact (hgov.effectiveAt_eq (hs ▸ scheduled)).trans hs

theorem Seen.frozen (init : m.portal.gov.initialized = true) (hc : Coherent m.portal.gov)
    (scheduled : m.portal.gov.abdicationEffectiveAt .accessPolicy ≠ 0)
    (effective : m.portal.gov.abdicationEffectiveAt .accessPolicy ≤ e.timestamp)
    (h : Seen P e m e' m') : Frozen m.portal.gov m'.portal.gov := by
  have hinv := Seen.invariant (I := fun env s =>
    m.portal.gov.abdicationEffectiveAt .accessPolicy ≤ env.timestamp ∧
      s.portal.gov.abdicationEffectiveAt .accessPolicy =
        m.portal.gov.abdicationEffectiveAt .accessPolicy ∧
      Coherent s.portal.gov ∧ Frozen m.portal.gov s.portal.gov) ?_ ?_ init
    ⟨effective, rfl, hc, Frozen.refl _⟩ h
  · exact hinv.2.2.2
  · rintro a b s horder ⟨htime, hs⟩
    exact ⟨htime.trans horder.2, hs⟩
  rintro ctx s s' - ⟨htime, heq, hcs, hfrozen⟩ hstep
  obtain ⟨sender, logs, hgov, -⟩ := hstep.governs
  have hscheduled := heq ▸ scheduled
  exact ⟨htime, (hgov.effectiveAt_eq hscheduled).trans heq, hcs.step hgov,
    hfrozen.trans (hgov.frozen hcs hscheduled (heq ▸ htime))⟩

theorem Reached.pauseBounded (h : Reached P e m) : PauseBounded m.portal.gov := by
  refine h.invariant (I := fun _ s => PauseBounded s.portal.gov) ?_ (fun _ hs => hs) ?_
  · intro e args self s hinit
    obtain ⟨role, hgov, -⟩ := hinit.gov
    rw [hgov]
    exact fun hscheduled => absurd rfl hscheduled
  intro ctx s s' _ hs hstep
  obtain ⟨sender, logs, hgov, -⟩ := hstep.governs
  exact hs.step hgov

theorem Seen.pauseBounded (init : m.portal.gov.initialized = true)
    (hb : PauseBounded m.portal.gov) (h : Seen P e m e' m') : PauseBounded m'.portal.gov := by
  refine Seen.invariant (I := fun _ s => PauseBounded s.portal.gov) (fun _ hs => hs) ?_ init hb h
  intro ctx s s' _ hs hstep
  obtain ⟨sender, logs, hgov, -⟩ := hstep.governs
  exact hs.step hgov

theorem abdicate_ok {env : BlockEnv} {sender : Address} {g g' : Governance}
    {logs : List (PortalEvent W)} (h : govern env sender g (.abdicate capability) = .ok (g', logs)) :
    g.abdicationEffectiveAt capability = 0 ∧
      g'.abdicationEffectiveAt capability = env.timestamp + ABDICATION_DELAY := by
  simp only [govern, abdicate, ok_iff, checkedAdd_eq_ok, Prod.mk.injEq, uint64_timestamp] at h
  obtain ⟨-, -, -, -, -, hunscheduled, _, ⟨-, rfl⟩, rfl, -⟩ := h
  exact ⟨hunscheduled, update_self _ _ _⟩

theorem pause_ok {env : BlockEnv} {sender : Address} {g : Governance} {result : Governed W}
    (h : govern env sender g .pause = .ok result) : g.CapabilityActive env .pausePortal := by
  simp only [govern, pause, bind_ok_iff] at h
  obtain ⟨-, -, h⟩ := h
  obtain ⟨u, hactive, -⟩ := h
  simp only [requireCapabilityActive, require_ok_iff, not_and, not_le] at hactive
  exact hactive

/-- **Abdication is final.** `abdicate` at time `t` sets the effective time to `t + 30 days` and
succeeds once per capability; a scheduled abdication keeps its effective time; once that of the
access policy is effective, accounts, gateways and modes never change; and no pause starts at or
after the effective time of one of the pause capability, nor lasts beyond 30 days after it. -/
theorem abdication_final (h : Reached P e m) :
    (∀ env sender capability g' (logs : List (PortalEvent W)),
      govern env sender m.portal.gov (.abdicate capability) = .ok (g', logs) →
      m.portal.gov.abdicationEffectiveAt capability = 0 ∧
        g'.abdicationEffectiveAt capability = env.timestamp + ABDICATION_DELAY) ∧
    (∀ capability, m.portal.gov.abdicationEffectiveAt capability ≠ 0 →
      ∀ e' m', Seen P e m e' m' → m'.portal.gov.abdicationEffectiveAt capability =
        m.portal.gov.abdicationEffectiveAt capability) ∧
    (m.portal.gov.abdicationEffectiveAt .accessPolicy ≠ 0 →
      m.portal.gov.abdicationEffectiveAt .accessPolicy ≤ e.timestamp →
      ∀ e' m', Seen P e m e' m' → Frozen m.portal.gov m'.portal.gov) ∧
    (m.portal.gov.abdicationEffectiveAt .pausePortal ≠ 0 → ∀ e' m', Seen P e m e' m' →
      (∀ env : BlockEnv,
        m.portal.gov.abdicationEffectiveAt .pausePortal + PAUSE_DURATION ≤ env.timestamp →
        ¬ m'.portal.gov.paused env) ∧
      ∀ (env : BlockEnv) (sender : Address) (result : Governed W),
        m.portal.gov.abdicationEffectiveAt .pausePortal ≤ env.timestamp →
        govern env sender m'.portal.gov .pause ≠ .ok result) := by
  refine ⟨fun env sender capability g' logs => abdicate_ok,
    fun capability hscheduled e' m' => Seen.effectiveAt_eq h.initialized hscheduled,
    fun hscheduled heffective e' m' => Seen.frozen h.initialized h.coherent hscheduled heffective,
    fun hscheduled e' m' hseen => ?_⟩
  have heq := hseen.effectiveAt_eq h.initialized hscheduled
  have hscheduled' : m'.portal.gov.abdicationEffectiveAt .pausePortal ≠ 0 := heq ▸ hscheduled
  constructor
  · intro env htime hpaused
    have hbound := hseen.pauseBounded h.initialized h.pauseBounded hscheduled'
    rw [heq] at hbound
    exact absurd (htime.trans_lt hpaused) (Nat.not_lt.2 hbound.le)
  · intro env sender result htime hpause
    have hactive := pause_ok hpause hscheduled'
    rw [heq] at hactive
    exact absurd hactive (Nat.not_lt.2 htime)

end Run

namespace Example

def lateEnv : BlockEnv := ⟨8, 3000000, 0, 1, next_number_lt, by decide, env.basefee_lt⟩

def abdicated : L1 Sym :=
  match exec ctx 10 start (.govern (.abdicate .accessPolicy)) with
  | .ok s => s
  | .error _ => start

theorem abdicated_reached : Reached (fun _ => True) lateEnv abdicated := by
  have hrun : exec ctx 10 start (.govern (.abdicate .accessPolicy)) = .ok abdicated := rfl
  have hoff : (10 : Address) ≠ ctx.ext.self := by decide
  exact ⟨env, start, started trivial, env, abdicated, ⟨lateEnv, ext⟩,
    .tx (.refl _ _) (.refl _) trivial (.call (.refl _) hoff hrun),
    ⟨by decide, by decide⟩, trivial, rfl, .reached (.refl _)⟩

end Example

/-- The example abdication took effect at time 1000 + 30 days and froze the access policy. -/
theorem abdication_final_example :
    Example.abdicated.portal.gov.abdicationEffectiveAt .accessPolicy = 2593000 ∧
      ∀ e' m', Seen (fun _ => True) Example.lateEnv Example.abdicated e' m' →
        Frozen Example.abdicated.portal.gov m'.portal.gov :=
  ⟨rfl, (abdication_final Example.abdicated_reached).2.2.1 (by decide) (by decide)⟩

end TempoZones
