import TempoZones.Portal.State

/-!
# Governance functions of the portal

Sequencer-set replacement, leadership, admin handover, enforcement modes, the role setters, pause
and abdication: functions on `Governance` that also return the logs they emit. `govern` dispatches
them, with the caller checks in source order. `GovernStep` lists what a successful call can do
(`govern_step`).
-/

namespace TempoZones

open Lib Function Revert List

variable {W : Type}

/-- Result of a governance function: the new governance state and the logs emitted. -/
abbrev Governed (W : Type) := Governance × List (PortalEvent W)

namespace Governance

def onlyAdmin (g : Governance) (sender : Address) : Except Revert Unit :=
  require (sender = g.admin) .notAdmin

def onlySequencerOrAdmin (g : Governance) (sender : Address) : Except Revert Unit :=
  require (sender = g.admin ∨ g.isSequencer sender) .notSequencer

def requireCapabilityActive (g : Governance) (env : BlockEnv) (capability : Capability) :
    Except Revert Unit :=
  require (¬ (g.abdicationEffectiveAt capability ≠ 0 ∧
    g.abdicationEffectiveAt capability ≤ env.timestamp)) (.capabilityAbdicated capability)

/-! ## Sequencer set and leader -/

/-- Validation loop of `_replaceSequencerSet` over the remaining members, with the members already
visited in `seen`. -/
def checkSequencers (g : Governance) : List Address → List Address → Except Revert Unit
  | _, [] => pure ()
  | seen, signer :: rest => do
      require (signer ≠ 0) invalidSequencerSet
      require (g.role signer = .none ∨ g.role signer = .sequencer) requireFailed
      require (signer ∉ seen) invalidSequencerSet
      checkSequencers g (seen ++ [signer]) rest

def assignRoles (r : Role) (role : Address → Role) (accounts : List Address) : Address → Role :=
  accounts.foldl (fun role a => update role a r) role

def replaceSequencerSet (g : Governance) (newSequencers : List Address) (newThreshold : ℕ)
    (rejectUnchanged : Bool) : Except Revert (Governed W) := do
  let length := newSequencers.length
  require (¬ (length = 0 ∨ length > MAX_SEQUENCERS ∨ newThreshold = 0 ∨ newThreshold > length))
    invalidSequencerSet
  checkSequencers g [] newSequencers
  let membersUnchanged := length = g.sequencers.length ∧ ∀ a ∈ newSequencers, g.isSequencer a
  require (¬ (rejectUnchanged = true ∧ membersUnchanged ∧ newThreshold = g.sequencerThreshold))
    sequencerConfigurationUnchanged
  let role := assignRoles .sequencer (assignRoles .none g.role g.sequencers) newSequencers
  require (¬ (g.leader ≠ 0 ∧ role g.leader ≠ .sequencer)) activeLeaderRemoved
  let nonce ← if rejectUnchanged then checkedAdd 64 g.sequencerSetVersion 1
    else pure g.sequencerSetVersion
  pure ({ g with role := role, sequencers := newSequencers, sequencerThreshold := newThreshold
                 sequencerSetVersion := nonce },
    g.sequencers.map (fun a => .roleUpdated a .sequencer .none) ++
      newSequencers.map (fun a => .roleUpdated a .none .sequencer) ++
      [.sequencerSetUpdated nonce newThreshold newSequencers])

def setSequencerSet (g : Governance) (sender : Address) (newSequencers : List Address)
    (newThreshold : ℕ) : Except Revert (Governed W) := do
  g.onlyAdmin sender
  g.replaceSequencerSet newSequencers newThreshold true

/-- `_setLeader`. -/
def writeLeader (g : Governance) (env : BlockEnv) (newLeader : Address) :
    Except Revert (Governed W) := do
  let epoch ← checkedAdd 64 g.leaderEpoch 1
  pure ({ g with leader := newLeader, leaderEpoch := epoch
                 leaderActivationTempoBlock := uint64 env.number },
    [.leaderUpdated g.leader newLeader epoch (uint64 env.number)])

def setLeader (g : Governance) (env : BlockEnv) (sender newLeader : Address)
    (expectedEpoch : ℕ) : Except Revert (Governed W) := do
  g.onlySequencerOrAdmin sender
  require (g.isSequencer newLeader) invalidLeader
  if newLeader = g.leader then pure (g, [])
  else do
    require (g.leaderEpoch = expectedEpoch)
      (staleLeadershipEpoch expectedEpoch g.leaderEpoch)
    require (g.leaderActivationTempoBlock ≠ uint64 env.number)
      leaderAlreadyUpdatedThisBlock
    g.writeLeader env newLeader

/-! ## Admin handover and enforcement modes -/

def transferAdmin (g : Governance) (sender newAdmin : Address) : Except Revert (Governed W) := do
  g.onlyAdmin sender
  pure ({ g with pendingAdmin := newAdmin }, [.adminTransferStarted g.admin newAdmin])

def acceptAdmin (g : Governance) (sender : Address) : Except Revert (Governed W) := do
  require (¬ (g.pendingAdmin = 0 ∨ sender ≠ g.pendingAdmin)) notPendingAdmin
  pure ({ g with admin := g.pendingAdmin, pendingAdmin := 0 },
    [.adminTransferred g.admin g.pendingAdmin])

def setAccessMode (g : Governance) (env : BlockEnv) (sender : Address) (enforced : Bool) :
    Except Revert (Governed W) := do
  g.onlyAdmin sender
  g.requireCapabilityActive env .accessPolicy
  pure ({ g with isAccessEnforced := enforced },
    [.enforcementModesUpdated enforced g.isGatewayEnforced])

def setGatewayMode (g : Governance) (env : BlockEnv) (sender : Address) (enforced : Bool) :
    Except Revert (Governed W) := do
  g.onlyAdmin sender
  g.requireCapabilityActive env .accessPolicy
  pure ({ g with isGatewayEnforced := enforced },
    [.enforcementModesUpdated g.isAccessEnforced enforced])

/-! ## Role setters -/

/-- Common tail of the role setters: grant `granted` to an account without a role, or take it
away; a call that changes nothing returns without a log. -/
def setRole (g : Governance) (granted : Role) (account : Address) (allowed : Bool) :
    Except Revert (Governed W) :=
  let previous := g.role account
  let next := if allowed then granted else .none
  if previous = next then pure (g, [])
  else do
    require (previous = if allowed then .none else granted) requireFailed
    pure ({ g with role := update g.role account next },
      [.roleUpdated account previous next])

def setAllowedAccount (g : Governance) (env : BlockEnv) (sender account : Address)
    (allowed : Bool) : Except Revert (Governed W) := do
  g.onlyAdmin sender
  g.requireCapabilityActive env .accessPolicy
  require (allowed = true → account ≠ g.messenger) requireFailed
  g.setRole .account account allowed

def setGateway (g : Governance) (env : BlockEnv) (sender account : Address) (allowed : Bool) :
    Except Revert (Governed W) := do
  g.onlyAdmin sender
  g.requireCapabilityActive env .accessPolicy
  g.setRole .callbackGateway account allowed

def setPauseGuardian (g : Governance) (env : BlockEnv) (sender account : Address)
    (allowed : Bool) : Except Revert (Governed W) := do
  g.onlyAdmin sender
  g.requireCapabilityActive env .pausePortal
  g.setRole .pauseGuardian account allowed

/-! ## Pause and abdication -/

def pause (g : Governance) (env : BlockEnv) (sender : Address) : Except Revert (Governed W) := do
  require (¬ g.paused env) portalIsPaused
  g.requireCapabilityActive env .pausePortal
  require (sender = g.admin ∨ g.isSequencer sender ∨ g.role sender = .pauseGuardian)
    notPauseAuthority
  let expiry ← checkedAdd 64 (uint64 env.timestamp) PAUSE_DURATION
  pure ({ g with pauseExpiry := expiry }, [.portalPaused sender])

def resume (g : Governance) (sender : Address) : Except Revert (Governed W) := do
  g.onlyAdmin sender
  pure ({ g with pauseExpiry := 0 }, [.portalResumed sender])

def abdicate (g : Governance) (env : BlockEnv) (sender : Address) (capability : Capability) :
    Except Revert (Governed W) := do
  g.onlyAdmin sender
  require (¬ g.paused env) portalIsPaused
  require (g.abdicationEffectiveAt capability = 0)
    (abdicationAlreadyScheduled capability)
  let effectiveAt ← checkedAdd 64 (uint64 env.timestamp) ABDICATION_DELAY
  pure ({ g with
      abdicationEffectiveAt := update g.abdicationEffectiveAt capability effectiveAt },
    [.abdicationScheduled capability effectiveAt])

end Governance

inductive GovernCall where
  | setSequencerSet (newSequencers : List Address) (newThreshold : ℕ)
  | setLeader (newLeader : Address) (expectedEpoch : ℕ)
  | transferAdmin (newAdmin : Address)
  | acceptAdmin
  | setAccessMode (enforced : Bool)
  | setGatewayMode (enforced : Bool)
  | setAllowedAccount (account : Address) (allowed : Bool)
  | setGateway (account : Address) (allowed : Bool)
  | setPauseGuardian (account : Address) (allowed : Bool)
  | pause
  | resume
  | abdicate (capability : Capability)

def govern (env : BlockEnv) (sender : Address) (g : Governance) :
    GovernCall → Except Revert (Governed W)
  | .setSequencerSet newSequencers newThreshold =>
    g.setSequencerSet sender newSequencers newThreshold
  | .setLeader newLeader expectedEpoch => g.setLeader env sender newLeader expectedEpoch
  | .transferAdmin newAdmin => g.transferAdmin sender newAdmin
  | .acceptAdmin => g.acceptAdmin sender
  | .setAccessMode enforced => g.setAccessMode env sender enforced
  | .setGatewayMode enforced => g.setGatewayMode env sender enforced
  | .setAllowedAccount account allowed => g.setAllowedAccount env sender account allowed
  | .setGateway account allowed => g.setGateway env sender account allowed
  | .setPauseGuardian account allowed => g.setPauseGuardian env sender account allowed
  | .pause => g.pause env sender
  | .resume => g.resume sender
  | .abdicate capability => g.abdicate env sender capability

/-! ## What a governance call can do -/

namespace Governance

def replacedRoles (g : Governance) (new : List Address) : Address → Role :=
  assignRoles .sequencer (assignRoles .none g.role g.sequencers) new

def replacementLogs (g : Governance) (new : List Address) (nonce threshold : ℕ) :
    List (PortalEvent W) :=
  g.sequencers.map (fun a => .roleUpdated a .sequencer .none) ++
    new.map (fun a => .roleUpdated a .none .sequencer) ++
    [.sequencerSetUpdated nonce threshold new]

/-- Guards of a set replacement. -/
structure ValidReplacement (g : Governance) (new : List Address) (threshold : ℕ) : Prop where
  size_pos : 0 < new.length
  size_le : new.length ≤ MAX_SEQUENCERS
  threshold_pos : 0 < threshold
  threshold_le : threshold ≤ new.length
  nodup : new.Nodup
  ne_zero : ∀ a ∈ new, a ≠ 0
  role_free : ∀ a ∈ new, g.role a = .none ∨ g.role a = .sequencer
  leader_kept : g.leader ≠ 0 → g.replacedRoles new g.leader = .sequencer

def CapabilityActive (g : Governance) (env : BlockEnv) (capability : Capability) : Prop :=
  g.abdicationEffectiveAt capability ≠ 0 → env.timestamp < g.abdicationEffectiveAt capability

end Governance

def Role.guardedBy : Role → Capability
  | .pauseGuardian => .pausePortal
  | _ => .accessPolicy

open Governance in
inductive GovernStep (env : BlockEnv) (sender : Address) (g : Governance) :
    Governance → List (PortalEvent W) → Prop
  | unchanged : GovernStep env sender g g []
  | sequencers {new : List Address} {threshold : ℕ} (admin : sender = g.admin)
      (valid : g.ValidReplacement new threshold) :
      GovernStep env sender g
        { g with role := g.replacedRoles new, sequencers := new, sequencerThreshold := threshold
                 sequencerSetVersion := g.sequencerSetVersion + 1 }
        (g.replacementLogs new (g.sequencerSetVersion + 1) threshold)
  | leader {new : Address} (member : g.isSequencer new) (changed : new ≠ g.leader)
      (block : g.leaderActivationTempoBlock ≠ env.number) :
      GovernStep env sender g
        { g with leader := new, leaderEpoch := g.leaderEpoch + 1
                 leaderActivationTempoBlock := env.number }
        [.leaderUpdated g.leader new (g.leaderEpoch + 1) env.number]
  | admins {admin pendingAdmin : Address} {log : PortalEvent W}
      (logged : log = .adminTransferStarted g.admin pendingAdmin ∨
        log = .adminTransferred g.admin admin) :
      GovernStep env sender g { g with admin := admin, pendingAdmin := pendingAdmin } [log]
  | modes {access gateway : Bool} (active : g.CapabilityActive env .accessPolicy) :
      GovernStep env sender g
        { g with isAccessEnforced := access, isGatewayEnforced := gateway }
        [.enforcementModesUpdated access gateway]
  | role {account : Address} {granted next : Role}
      (kind : granted = .account ∨ granted = .callbackGateway ∨ granted = .pauseGuardian)
      (active : g.CapabilityActive env granted.guardedBy)
      (move : (g.role account = .none ∧ next = granted) ∨
        (g.role account = granted ∧ next = .none)) :
      GovernStep env sender g { g with role := update g.role account next }
        [.roleUpdated account (g.role account) next]
  | pause (active : g.CapabilityActive env .pausePortal) (running : ¬ g.paused env) :
      GovernStep env sender g { g with pauseExpiry := env.timestamp + PAUSE_DURATION }
        [.portalPaused sender]
  | resume : GovernStep env sender g { g with pauseExpiry := 0 } [.portalResumed sender]
  | abdicate {capability : Capability} (running : ¬ g.paused env)
      (unscheduled : g.abdicationEffectiveAt capability = 0) :
      GovernStep env sender g
        { g with abdicationEffectiveAt :=
            update g.abdicationEffectiveAt capability (env.timestamp + ABDICATION_DELAY) }
        [.abdicationScheduled capability (env.timestamp + ABDICATION_DELAY)]

namespace Governance

theorem requireCapabilityActive_bind_ok_iff {β : Type} {g : Governance} {env : BlockEnv}
    {capability : Capability} {f : Unit → Except Revert β} {b : β} :
    g.requireCapabilityActive env capability >>= f = .ok b ↔
      g.CapabilityActive env capability ∧ f () = .ok b := by
  rw [requireCapabilityActive, require_bind_ok_iff]
  simp only [CapabilityActive, not_and, not_le, ne_eq]

theorem onlyAdmin_bind_ok_iff {β : Type} {g : Governance} {sender : Address}
    {f : Unit → Except Revert β} {b : β} :
    g.onlyAdmin sender >>= f = .ok b ↔ sender = g.admin ∧ f () = .ok b :=
  require_bind_ok_iff

theorem onlySequencerOrAdmin_bind_ok_iff {β : Type} {g : Governance} {sender : Address}
    {f : Unit → Except Revert β} {b : β} :
    g.onlySequencerOrAdmin sender >>= f = .ok b ↔
      (sender = g.admin ∨ g.isSequencer sender) ∧ f () = .ok b :=
  require_bind_ok_iff

theorem checkSequencers_ok {g : Governance} {rest : List Address} :
    ∀ {seen : List Address}, g.checkSequencers seen rest = .ok () →
      rest.Nodup ∧ (∀ a ∈ rest, a ∉ seen) ∧ (∀ a ∈ rest, a ≠ 0) ∧
        ∀ a ∈ rest, g.role a = .none ∨ g.role a = .sequencer := by
  induction rest with
  | nil => simp
  | cons signer rest ih =>
    intro seen h
    rw [checkSequencers, require_bind_ok_iff, require_bind_ok_iff, require_bind_ok_iff] at h
    obtain ⟨hne, hrole, hseen, hrest⟩ := h
    obtain ⟨hnodup, hfresh, hzero, hroles⟩ := ih hrest
    refine ⟨nodup_cons.2 ⟨fun hmem => ?_, hnodup⟩, ?_, ?_, ?_⟩
    · exact hfresh signer hmem (by simp)
    · intro a ha
      rcases mem_cons.1 ha with rfl | ha
      · exact hseen
      · exact fun hs => hfresh a ha (by simp [hs])
    · exact forall_mem_cons.2 ⟨hne, hzero⟩
    · exact forall_mem_cons.2 ⟨hrole, hroles⟩

theorem replaceSequencerSet_ok {g g' : Governance} {new : List Address} {threshold : ℕ}
    {rejectUnchanged : Bool} {logs : List (PortalEvent W)}
    (h : g.replaceSequencerSet new threshold rejectUnchanged = .ok (g', logs)) :
    g.ValidReplacement new threshold ∧
      ∃ nonce, nonce = (if rejectUnchanged then g.sequencerSetVersion + 1
          else g.sequencerSetVersion) ∧
        g' = { g with role := g.replacedRoles new, sequencers := new
                      sequencerThreshold := threshold, sequencerSetVersion := nonce } ∧
        logs = g.replacementLogs new nonce threshold := by
  simp only [replaceSequencerSet, require_bind_ok_iff] at h
  obtain ⟨hsize, h⟩ := h
  obtain ⟨⟨⟩, hcheck, h⟩ := bind_ok_iff.1 h
  rw [require_bind_ok_iff, require_bind_ok_iff] at h
  obtain ⟨-, hleader, h⟩ := h
  obtain ⟨hnodup, -, hzero, hroles⟩ := checkSequencers_ok hcheck
  refine ⟨⟨by omega, by omega, by omega, by omega, hnodup, hzero, hroles, ?_⟩, ?_⟩
  · intro hl
    by_contra hne
    exact hleader ⟨hl, hne⟩
  · cases rejectUnchanged with
    | false =>
      obtain ⟨nonce, hnonce, h⟩ := bind_ok_iff.1 h
      rw [pure_ok_iff, Prod.mk.injEq] at h
      exact ⟨nonce, (pure_ok_iff.1 hnonce).symm, h.1.symm, h.2.symm⟩
    | true =>
      obtain ⟨nonce, hnonce, h⟩ := bind_ok_iff.1 h
      rw [pure_ok_iff, Prod.mk.injEq] at h
      exact ⟨nonce, (checkedAdd_eq_ok.1 hnonce).2.symm, h.1.symm, h.2.symm⟩

theorem setRole_ok {g g' : Governance} {granted : Role} {account : Address} {allowed : Bool}
    {logs : List (PortalEvent W)} (h : g.setRole granted account allowed = .ok (g', logs)) :
    (g' = g ∧ logs = []) ∨ ∃ next, ((g.role account = .none ∧ next = granted) ∨
        (g.role account = granted ∧ next = .none)) ∧
      g' = { g with role := update g.role account next } ∧
      logs = [.roleUpdated account (g.role account) next] := by
  by_cases hsame : g.role account = if allowed then granted else .none
  · rw [setRole, if_pos hsame, pure_ok_iff, Prod.mk.injEq] at h
    exact .inl ⟨h.1.symm, h.2.symm⟩
  rw [setRole, if_neg hsame, require_bind_ok_iff, pure_ok_iff, Prod.mk.injEq] at h
  refine .inr ⟨if allowed then granted else .none, ?_, h.2.1.symm, h.2.2.symm⟩
  cases allowed with
  | false => exact .inr ⟨h.1, rfl⟩
  | true => exact .inl ⟨h.1, rfl⟩

end Governance

open Governance

variable {env : BlockEnv} {sender : Address} {g g' : Governance} {logs : List (PortalEvent W)}

theorem setLeader_step {newLeader : Address} {expectedEpoch : ℕ}
    (h : g.setLeader env sender newLeader expectedEpoch = .ok (g', logs)) :
    (g' = g ∧ logs = []) ∨ (g.leaderEpoch = expectedEpoch ∧ GovernStep env sender g g' logs) := by
  rw [setLeader, onlySequencerOrAdmin_bind_ok_iff, require_bind_ok_iff] at h
  obtain ⟨-, hmember, h⟩ := h
  split at h
  · rw [pure_ok_iff, Prod.mk.injEq] at h
    exact .inl ⟨h.1.symm, h.2.symm⟩
  · next hne =>
    rw [require_bind_ok_iff, require_bind_ok_iff, writeLeader] at h
    obtain ⟨hepoch, hblock, h⟩ := h
    obtain ⟨epoch, hadd, h⟩ := bind_ok_iff.1 h
    obtain ⟨-, rfl⟩ := checkedAdd_eq_ok.1 hadd
    rw [pure_ok_iff, Prod.mk.injEq, uint64_number] at h
    rw [uint64_number] at hblock
    obtain ⟨rfl, rfl⟩ := h
    exact .inr ⟨hepoch, .leader hmember hne hblock⟩

theorem setRole_step {granted : Role} {account : Address} {allowed : Bool}
    (kind : granted = .account ∨ granted = .callbackGateway ∨ granted = .pauseGuardian)
    (active : g.CapabilityActive env granted.guardedBy)
    (h : g.setRole granted account allowed = .ok (g', logs)) :
    GovernStep env sender g g' logs := by
  rcases setRole_ok h with ⟨rfl, rfl⟩ | ⟨next, hmove, rfl, rfl⟩
  · exact .unchanged
  · exact .role kind active hmove

theorem govern_step {call : GovernCall} (h : govern env sender g call = .ok (g', logs)) :
    GovernStep env sender g g' logs := by
  cases call with
  | setSequencerSet new threshold =>
    simp only [govern, setSequencerSet, onlyAdmin_bind_ok_iff] at h
    obtain ⟨hvalid, nonce, rfl, rfl, rfl⟩ := replaceSequencerSet_ok h.2
    exact .sequencers h.1 hvalid
  | setLeader newLeader expectedEpoch =>
    rcases setLeader_step h with ⟨rfl, rfl⟩ | ⟨-, hstep⟩
    · exact .unchanged
    · exact hstep
  | transferAdmin newAdmin =>
    simp only [govern, transferAdmin, onlyAdmin_bind_ok_iff, pure_ok_iff, Prod.mk.injEq] at h
    obtain ⟨-, rfl, rfl⟩ := h
    exact .admins (.inl rfl)
  | acceptAdmin =>
    simp only [govern, acceptAdmin, require_bind_ok_iff, pure_ok_iff, Prod.mk.injEq] at h
    obtain ⟨-, rfl, rfl⟩ := h
    exact .admins (.inr rfl)
  | setAccessMode enforced =>
    simp only [govern, setAccessMode, onlyAdmin_bind_ok_iff,
      requireCapabilityActive_bind_ok_iff, pure_ok_iff, Prod.mk.injEq] at h
    obtain ⟨-, hactive, rfl, rfl⟩ := h
    exact .modes hactive
  | setGatewayMode enforced =>
    simp only [govern, setGatewayMode, onlyAdmin_bind_ok_iff,
      requireCapabilityActive_bind_ok_iff, pure_ok_iff, Prod.mk.injEq] at h
    obtain ⟨-, hactive, rfl, rfl⟩ := h
    exact .modes hactive
  | setAllowedAccount account allowed =>
    simp only [govern, setAllowedAccount, onlyAdmin_bind_ok_iff,
      requireCapabilityActive_bind_ok_iff, require_bind_ok_iff] at h
    exact setRole_step (.inl rfl) h.2.1 h.2.2.2
  | setGateway account allowed =>
    simp only [govern, setGateway, onlyAdmin_bind_ok_iff, requireCapabilityActive_bind_ok_iff] at h
    exact setRole_step (.inr (.inl rfl)) h.2.1 h.2.2
  | setPauseGuardian account allowed =>
    simp only [govern, setPauseGuardian, onlyAdmin_bind_ok_iff,
      requireCapabilityActive_bind_ok_iff] at h
    exact setRole_step (.inr (.inr rfl)) h.2.1 h.2.2
  | pause =>
    simp only [govern, Governance.pause, require_bind_ok_iff,
      requireCapabilityActive_bind_ok_iff] at h
    obtain ⟨hrunning, hactive, -, h⟩ := h
    obtain ⟨expiry, hadd, h⟩ := bind_ok_iff.1 h
    obtain ⟨-, rfl⟩ := checkedAdd_eq_ok.1 hadd
    rw [pure_ok_iff, Prod.mk.injEq, uint64_timestamp] at h
    obtain ⟨rfl, rfl⟩ := h
    exact .pause hactive hrunning
  | resume =>
    simp only [govern, Governance.resume, onlyAdmin_bind_ok_iff, pure_ok_iff, Prod.mk.injEq] at h
    obtain ⟨-, rfl, rfl⟩ := h
    exact .resume
  | abdicate capability =>
    simp only [govern, Governance.abdicate, onlyAdmin_bind_ok_iff, require_bind_ok_iff] at h
    obtain ⟨-, hrunning, hunscheduled, h⟩ := h
    obtain ⟨effectiveAt, hadd, h⟩ := bind_ok_iff.1 h
    obtain ⟨-, rfl⟩ := checkedAdd_eq_ok.1 hadd
    rw [pure_ok_iff, Prod.mk.injEq, uint64_timestamp] at h
    obtain ⟨rfl, rfl⟩ := h
    exact .abdicate hrunning hunscheduled

end TempoZones
