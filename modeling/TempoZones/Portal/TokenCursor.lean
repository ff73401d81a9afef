import TempoZones.Portal.Capacity

/-!
# Token registry and token cursor

Every step keeps the enabled tokens, appends one token within the capacity, or moves the cursor
(`RegistryStep`). So the registry holds exactly the tokens that the logs announce
(`TokensRecorded`), and at most `MAX_UNPROCESSED_TOKEN_ENABLEMENTS` of them lie beyond the cursor
(`TokenCapacity`).
-/

namespace TempoZones

open Lib

variable {W : Type} [EvmWord W] [DecidableEq W]

/-! ## Steps of the registry -/

/-- Effects of a step on the token registry and on the tokens announced in the logs. -/
inductive RegistryStep (s s' : L1 W) : Prop
  | kept {configs : Address → TokenConfig}
      (registry : s'.portal.registry = { s.portal.registry with tokenConfigs := configs })
      (tokens : tokenEnablements s'.logs = tokenEnablements s.logs)
  | enabled {token : EnabledToken}
      (initialized : s.portal.registry.tokenEnablementCursorInitialized = true)
      (room : s.portal.registry.enabledTokens.length <
        s.portal.registry.lastProcessedEnabledTokenCount + MAX_UNPROCESSED_TOKEN_ENABLEMENTS)
      (registry : s'.portal.registry = s.portal.registry.append token)
      (tokens : tokenEnablements s'.logs = tokenEnablements s.logs ++ [token])
  | settled {t : TokenEnablementTransition}
      (mono : s.portal.registry.tokenEnablementCursorInitialized = true →
        s.portal.registry.lastProcessedEnabledTokenCount ≤ t.nextProcessedTokenCount)
      (le : t.nextProcessedTokenCount ≤ s.portal.registry.enabledTokens.length)
      (registry : s'.portal.registry = s.portal.registry.advance t)
      (tokens : tokenEnablements s'.logs = tokenEnablements s.logs)

section Step

variable {ctx : CallCtx W} {s s' : L1 W}

theorem RegistryStep.of_eq (registry : s'.portal.registry = s.portal.registry)
    (tokens : tokenEnablements s'.logs = tokenEnablements s.logs) : RegistryStep s s' :=
  .kept registry tokens

theorem GovernStep.tokens_quiet {env : BlockEnv} {sender : Address} {g g' : Governance}
    {logs : List (PortalEvent W)} (h : GovernStep env sender g g' logs) :
    tokenEnablements logs = [] := by
  cases h with
  | sequencers _ _ => exact (replacementLogs_quiet _ _ _ _).2.2
  | admins logged => rcases logged with rfl | rfl <;> rfl
  | _ => rfl

theorem CallStep.registryStep (h : CallStep ctx s s') : RegistryStep s s' := by
  cases h with
  | govern step =>
    refine .of_eq rfl ((tokenEnablements_append _ _).trans ?_)
    rw [step.tokens_quiet, List.append_nil]
  | configure step =>
    cases step with
    | params _ quiet => exact .of_eq rfl (tokenEnablements_concat quiet.token _)
    | enable _ initialized room => exact .enabled initialized room rfl (tokenEnablements_append _ _)
    | active _ quiet => exact .kept rfl (tokenEnablements_concat quiet.token _)
  | deposit _ collected _ =>
    obtain ⟨hportal, hlogs, -⟩ := collected.frame
    refine .of_eq (congrArg (·.registry) hportal) ?_
    exact (tokenEnablements_concat rfl _).trans (congrArg tokenEnablements hlogs)
  | claimRefund _ => exact .of_eq rfl (tokenEnablements_concat rfl _)
  | submitBatch accepted =>
    refine .settled ?_ (accepted.token_le.trans (Nat.mod_le _ _)) rfl
      (tokenEnablements_concat rfl _)
    intro initialized
    have hprev := accepted.token_prev
    rw [if_pos initialized] at hprev
    exact hprev ▸ accepted.token_mono

theorem Micro.registryStep (h : Micro ctx s s') : RegistryStep s s' := by
  cases h with
  | call step => exact step.registryStep
  | withdraw _ _ disposed =>
    cases disposed with
    | refunded _ refund =>
      obtain ⟨⟨refunds, hportal⟩, ⟨log, hlogs, hquiet⟩, -⟩ := refund.frame
      refine .of_eq (congrArg (·.registry) hportal) ?_
      rw [hlogs]
      exact tokenEnablements_concat hquiet.token _
    | bounced _ _ =>
      exact .of_eq rfl ((tokenEnablements_concat rfl _).trans (tokenEnablements_concat rfl _))
    | paid _ _ => exact .of_eq rfl (tokenEnablements_concat rfl _)
    | opened _ _ _ => exact .of_eq rfl rfl
  | closeCallback _ => exact .of_eq rfl (tokenEnablements_concat rfl _)
  | outside move =>
    exact .of_eq (congrArg (·.registry) move.portal_eq) (congrArg tokenEnablements move.logs_eq)
  | enter _ => exact .of_eq rfl rfl
  | exit _ => exact .of_eq rfl rfl

end Step

/-! ## Recorded tokens -/

structure TokensRecorded (s : L1 W) : Prop where
  hash_eq : s.portal.registry.tokenEnablementHash =
    prefixChain EnabledToken.hashWithPrevious 0 (tokenEnablements s.logs)
  tokens_eq : s.portal.registry.enabledTokens = (tokenEnablements s.logs).map (·.token)

theorem TokensRecorded.step {s s' : L1 W} (hs : TokensRecorded s) (h : RegistryStep s s') :
    TokensRecorded s' := by
  obtain ⟨hhash, htokens⟩ := hs
  cases h with
  | kept registry tokens =>
    constructor
    · rw [registry, tokens]
      exact hhash
    · rw [registry, tokens]
      exact htokens
  | enabled _ _ registry tokens =>
    constructor
    · rw [registry, tokens, prefixChain_concat, ← hhash]
      rfl
    · rw [registry, tokens, List.map_append, ← htokens]
      rfl
  | @settled t _ _ registry tokens =>
    have hadvance : (s.portal.registry.advance t).tokenEnablementHash =
          s.portal.registry.tokenEnablementHash ∧
        (s.portal.registry.advance t).enabledTokens = s.portal.registry.enabledTokens := by
      unfold TokenRegistry.advance
      split <;> exact ⟨rfl, rfl⟩
    constructor
    · rw [registry, tokens, hadvance.1, hhash]
    · rw [registry, tokens, hadvance.2, htokens]

theorem tokensRecorded_fresh (self : Address) (ledger : Ledger) :
    TokensRecorded (.fresh self ledger : L1 W) :=
  ⟨rfl, rfl⟩

theorem Initial.tokensRecorded {e : BlockEnv} {args : InitializeArgs} {self : Address} {s : L1 W}
    (h : Initial e args self s) : TokensRecorded s := by
  obtain ⟨enabled, -, hregistry, htokens⟩ := h.registry
  constructor
  · rw [hregistry, htokens]
    rfl
  · rw [hregistry, htokens]
    rfl

/-! ## Capacity -/

/-- Cursor order and capacity. Before the cursor is initialized the registry holds at most the
initial token. -/
structure TokenCapacity (r : TokenRegistry W) : Prop where
  le : r.lastProcessedEnabledTokenCount ≤ r.enabledTokens.length
  outstanding_le : r.enabledTokens.length ≤
    r.lastProcessedEnabledTokenCount + MAX_UNPROCESSED_TOKEN_ENABLEMENTS
  start : r.tokenEnablementCursorInitialized = false → r.enabledTokens.length ≤ 1

theorem TokenCapacity.step {s s' : L1 W} (hs : TokenCapacity s.portal.registry)
    (h : RegistryStep s s') : TokenCapacity s'.portal.registry := by
  obtain ⟨hle, hout, hstart⟩ := hs
  cases h with
  | kept registry _ =>
    rw [registry]
    exact ⟨hle, hout, hstart⟩
  | @enabled token initialized room registry _ =>
    have hlength : (s.portal.registry.append token).enabledTokens.length =
        s.portal.registry.enabledTokens.length + 1 := List.length_append
    rw [registry]
    refine ⟨?_, ?_, ?_⟩
    · rw [hlength]
      exact hle.trans (Nat.le_succ _)
    · rw [hlength]
      exact room
    · intro hfalse
      exact absurd (initialized.symm.trans hfalse) Bool.true_eq_false.mp
  | @settled t mono le registry _ =>
    rw [registry, TokenRegistry.advance]
    split
    · next hmoves =>
      refine ⟨le, ?_, nofun⟩
      show s.portal.registry.enabledTokens.length ≤ t.nextProcessedTokenCount + _
      cases hinit : s.portal.registry.tokenEnablementCursorInitialized with
      | true => exact hout.trans (Nat.add_le_add_right (mono hinit) _)
      | false =>
        have := hstart hinit
        rw [MAX_UNPROCESSED_TOKEN_ENABLEMENTS]
        omega
    · exact ⟨hle, hout, hstart⟩

theorem tokenCapacity_fresh (self : Address) (ledger : Ledger) :
    TokenCapacity (.fresh self ledger : L1 W).portal.registry :=
  ⟨le_rfl, Nat.zero_le _, fun _ => Nat.zero_le _⟩

theorem Initial.tokenCapacity {e : BlockEnv} {args : InitializeArgs} {self : Address} {s : L1 W}
    (h : Initial e args self s) : TokenCapacity s.portal.registry := by
  obtain ⟨enabled, -, hregistry, -⟩ := h.registry
  rw [hregistry]
  refine ⟨Nat.zero_le _, ?_, fun _ => le_rfl⟩
  show 1 ≤ 0 + 8
  omega

end TempoZones
