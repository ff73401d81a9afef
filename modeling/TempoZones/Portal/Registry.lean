import TempoZones.Portal.Governance

/-!
# Parameters, token registry and initialization

Fee rates, the operator endpoint, the encryption-key history and the enabled-token registry. Each
function reads the governance state for its caller check and writes only parameters or the
registry. `initialize` sets up a fresh portal proxy: it installs the sequencer set and the first
leader, the initial gateways and accounts, and the first token.
-/

namespace TempoZones

open Lib Function Revert Portal Governance

variable {W : Type} [EvmWord W] {registry : TokenRegistry W}

namespace Secp256k1Lib

def SECP256K1_P : ℕ := 0xFFFFFFFFFFFFFFFFFFFFFFFFFFFFFFFFFFFFFFFFFFFFFFFFFFFFFFFEFFFFFC2F
def SECP256K1_HALF_PM1 : ℕ := 0x7FFFFFFFFFFFFFFFFFFFFFFFFFFFFFFFFFFFFFFFFFFFFFFFFFFFFFFF7FFFFE17
def SECP256K1_SQRT_EXP : ℕ := 0x3FFFFFFFFFFFFFFFFFFFFFFFFFFFFFFFFFFFFFFFFFFFFFFFFFFFFFFFBFFFFF0C

def curveRhs (px : ℕ) : ℕ :=
  ((px * px % SECP256K1_P) * px % SECP256K1_P + 7) % SECP256K1_P

/-- `isValidX`: Euler's criterion on `x ^ 3 + 7`. -/
def isValidX (x : W) : Bool :=
  let px := EvmWord.toNat x
  if px = 0 ∨ px ≥ SECP256K1_P then false
  else modExp (curveRhs px) SECP256K1_HALF_PM1 SECP256K1_P == 1

def isCompressedYParity (yParity : ℕ) : Bool := yParity == 2 || yParity == 3

/-- `deriveAddress`: the low 20 bytes of the hash of the decompressed point. -/
def deriveAddress (x : W) (yParity : ℕ) : Address :=
  let px := EvmWord.toNat x
  let y := modExp (curveRhs px) SECP256K1_SQRT_EXP SECP256K1_P
  let y := if (y % 2 = 0) ≠ (yParity = 2) then SECP256K1_P - y else y
  Fin.ofNat _ (EvmWord.toNat (keccak256
    [.word (EvmWord.ofNat px : W), .word (EvmWord.ofNat y)]))

end Secp256k1Lib

/-- Result of a registry function: the new parameters and registry, and the logs emitted. -/
abbrev Configured (W : Type) := Params W × TokenRegistry W × List (PortalEvent W)

def TokenRegistry.append (registry : TokenRegistry W) (enabled : EnabledToken) :
    TokenRegistry W :=
  { registry with
    tokenEnablementHash := enabled.hashWithPrevious registry.tokenEnablementHash
    tokenConfigs := update registry.tokenConfigs enabled.token ⟨true, true⟩
    enabledTokens := registry.enabledTokens ++ [enabled.token] }

namespace Portal

/-! ## Parameters -/

def setZoneGasRate (p : Portal W) (sender : Address) (zoneGasRate : ℕ) :
    Except Revert (Configured W) := do
  p.gov.onlyAdmin sender
  require (zoneGasRate ≤ MAX_GAS_FEE_RATE) gasFeeRateTooHigh
  pure ({ p.params with zoneGasRate := zoneGasRate }, p.registry,
    [.zoneGasRateUpdated zoneGasRate])

def setMaxTempoGasRate (p : Portal W) (sender : Address) (maxTempoGasRate : ℕ) :
    Except Revert (Configured W) := do
  p.gov.onlyAdmin sender
  require (maxTempoGasRate ≤ MAX_GAS_FEE_RATE) gasFeeRateTooHigh
  pure ({ p.params with maxTempoGasRate := maxTempoGasRate }, p.registry,
    [.maxTempoGasRateUpdated maxTempoGasRate])

def setBouncebackGas (p : Portal W) (sender : Address) (bouncebackGas : ℕ) :
    Except Revert (Configured W) := do
  -- the argument is a `uint64`
  require (bouncebackGas < 2 ^ 64) externalRevert
  p.gov.onlyAdmin sender
  pure ({ p.params with bouncebackGas := bouncebackGas }, p.registry,
    [.bouncebackGasUpdated bouncebackGas])

def setRpcUrl (p : Portal W) (sender : Address) (rpcUrl : Bytes) :
    Except Revert (Configured W) := do
  require (p.gov.isSequencer sender) notSequencer
  pure ({ p.params with rpcUrl := rpcUrl }, p.registry, [.rpcUrlUpdated rpcUrl])

/-- ABI encoding of `(address(this), x, yParity)`. -/
def popCodec : Codec W (Address × W × ℕ × Unit) :=
  Codec.tuple (.address (.bytes32 (.uint .nil)))

def setSequencerEncryptionKey (p : Portal W) (ctx : CallCtx W) (sender : Address) (x : W)
    (yParity popV : ℕ) (popR popS : W) : Except Revert (Configured W) := do
  p.gov.onlySequencerOrAdmin sender
  require (Secp256k1Lib.isCompressedYParity yParity = true) invalidEphemeralPubkey
  require (Secp256k1Lib.isValidX x = true) invalidEphemeralPubkey
  let message := keccak256 (popCodec.encode (ctx.ext.self, x, yParity, ()))
  let recovered := ctx.ext.ecrecover message popV popR popS
  let expected := Secp256k1Lib.deriveAddress x yParity
  require (¬ (recovered = 0 ∨ recovered ≠ expected)) invalidProofOfPossession
  let activationBlock := uint64 ctx.env.number
  let keys := p.params.encryptionKeys ++ [⟨x, yParity, activationBlock⟩]
  pure ({ p.params with encryptionKeys := keys }, p.registry,
    [.sequencerEncryptionKeyUpdated x yParity expected (keys.length - 1) activationBlock])

/-! ## Token registry -/

def enableTokenInternal (registry : TokenRegistry W) (ext : Externals W) (token : Address) :
    Except Revert (TokenRegistry W × List (PortalEvent W)) := do
  let enabled := { ext.metadata token with token := token }
  require (¬ (enabled.name.length > MAX_TOKEN_METADATA_BYTES ∨
    enabled.symbol.length > MAX_TOKEN_METADATA_BYTES ∨
    enabled.currency.length > MAX_TOKEN_METADATA_BYTES)) tokenMetadataTooLong
  require (ext.transferPolicyIsSet token = true ∨ ext.transferPolicyMigrates token = true)
    tokenTransferPolicyNotSet
  pure (registry.append enabled, [.tokenEnabled enabled])

def enableToken (p : Portal W) (ext : Externals W) (sender token : Address) :
    Except Revert (Configured W) := do
  p.gov.onlyAdmin sender
  require ((p.registry.tokenConfigs token).enabled = false) tokenAlreadyEnabled
  require (ext.isTIP20 token = true) tokenNotEnabled
  require (p.registry.tokenEnablementCursorInitialized = true)
    tokenEnablementCursorNotInitialized
  let unprocessed ← checkedSub p.registry.enabledTokens.length
    p.registry.lastProcessedEnabledTokenCount
  require (unprocessed < MAX_UNPROCESSED_TOKEN_ENABLEMENTS)
    (tokenEnablementBlockCapacityExceeded MAX_UNPROCESSED_TOKEN_ENABLEMENTS)
  let (registry, logs) ← enableTokenInternal p.registry ext token
  pure (p.params, registry, logs)

def setDepositsActive (p : Portal W) (sender token : Address) (active : Bool)
    (log : PortalEvent W) : Except Revert (Configured W) := do
  p.gov.onlyAdmin sender
  require ((p.registry.tokenConfigs token).enabled = true) tokenNotEnabled
  pure (p.params, { p.registry with
    tokenConfigs := update p.registry.tokenConfigs token
      { p.registry.tokenConfigs token with depositsActive := active } }, [log])

def pauseDeposits (p : Portal W) (sender token : Address) : Except Revert (Configured W) :=
  p.setDepositsActive sender token false (.depositsPaused token)

def resumeDeposits (p : Portal W) (sender token : Address) : Except Revert (Configured W) :=
  p.setDepositsActive sender token true (.depositsResumed token)

end Portal

inductive ConfigureCall (W : Type) where
  | setZoneGasRate (zoneGasRate : ℕ)
  | setMaxTempoGasRate (maxTempoGasRate : ℕ)
  | setBouncebackGas (bouncebackGas : ℕ)
  | setRpcUrl (rpcUrl : Bytes)
  | setSequencerEncryptionKey (x : W) (yParity popV : ℕ) (popR popS : W)
  | enableToken (token : Address)
  | pauseDeposits (token : Address)
  | resumeDeposits (token : Address)

def configure (ctx : CallCtx W) (sender : Address) (p : Portal W) :
    ConfigureCall W → Except Revert (Configured W)
  | .setZoneGasRate zoneGasRate => p.setZoneGasRate sender zoneGasRate
  | .setMaxTempoGasRate maxTempoGasRate => p.setMaxTempoGasRate sender maxTempoGasRate
  | .setBouncebackGas bouncebackGas => p.setBouncebackGas sender bouncebackGas
  | .setRpcUrl rpcUrl => p.setRpcUrl sender rpcUrl
  | .setSequencerEncryptionKey x yParity popV popR popS =>
    p.setSequencerEncryptionKey ctx sender x yParity popV popR popS
  | .enableToken token => p.enableToken ctx.ext sender token
  | .pauseDeposits token => p.pauseDeposits sender token
  | .resumeDeposits token => p.resumeDeposits sender token

/-! ## What a registry call can do -/

/-- Effects of a successful parameter or registry call: parameters are written, one token is
enabled within the capacity, or the deposit flag of a token is written. -/
inductive ConfigureStep (p : Portal W) :
    Params W → TokenRegistry W → List (PortalEvent W) → Prop
  | params {params : Params W} {log : PortalEvent W}
      (gas : params.bouncebackGas = p.params.bouncebackGas ∨ params.bouncebackGas < 2 ^ 64)
      (quiet : log.Quiet) : ConfigureStep p params p.registry [log]
  | enable {token : EnabledToken} (fresh : (p.registry.tokenConfigs token.token).enabled = false)
      (initialized : p.registry.tokenEnablementCursorInitialized = true)
      (room : p.registry.enabledTokens.length <
        p.registry.lastProcessedEnabledTokenCount + MAX_UNPROCESSED_TOKEN_ENABLEMENTS) :
      ConfigureStep p p.params (p.registry.append token) [.tokenEnabled token]
  | active {token : Address} {active : Bool} {log : PortalEvent W}
      (enabled : (p.registry.tokenConfigs token).enabled = true)
      (quiet : log.Quiet) :
      ConfigureStep p p.params
        { p.registry with
          tokenConfigs := update p.registry.tokenConfigs token
            { p.registry.tokenConfigs token with depositsActive := active } } [log]

variable {logs : List (PortalEvent W)}

theorem enableTokenInternal_ok {registry' : TokenRegistry W} {ext : Externals W} {token : Address}
    (h : enableTokenInternal registry ext token = .ok (registry', logs)) :
    ∃ enabled : EnabledToken, enabled.token = token ∧ registry' = registry.append enabled ∧
      logs = [.tokenEnabled enabled] := by
  simp only [enableTokenInternal, require_bind_ok_iff, pure_ok_iff, Prod.mk.injEq] at h
  exact ⟨_, rfl, h.2.2.1.symm, h.2.2.2.symm⟩

theorem setDepositsActive_step {p : Portal W} {sender token : Address} {active : Bool}
    {log : PortalEvent W} {params : Params W} (quiet : log.Quiet)
    (h : p.setDepositsActive sender token active log = .ok (params, registry, logs)) :
    ConfigureStep p params registry logs := by
  simp only [setDepositsActive, onlyAdmin_bind_ok_iff, require_bind_ok_iff,
    pure_ok_iff, Prod.mk.injEq] at h
  obtain ⟨-, henabled, rfl, rfl, rfl⟩ := h
  exact .active henabled quiet

theorem configure_step {ctx : CallCtx W} {sender : Address} {p : Portal W} {params : Params W}
    {call : ConfigureCall W} (h : configure ctx sender p call = .ok (params, registry, logs)) :
    ConfigureStep p params registry logs := by
  cases call with
  | setZoneGasRate rate =>
    simp only [configure, setZoneGasRate, onlyAdmin_bind_ok_iff,
      require_bind_ok_iff, pure_ok_iff, Prod.mk.injEq] at h
    obtain ⟨-, -, rfl, rfl, rfl⟩ := h
    exact .params (.inl rfl) ⟨rfl, rfl, rfl⟩
  | setMaxTempoGasRate rate =>
    simp only [configure, setMaxTempoGasRate, onlyAdmin_bind_ok_iff,
      require_bind_ok_iff, pure_ok_iff, Prod.mk.injEq] at h
    obtain ⟨-, -, rfl, rfl, rfl⟩ := h
    exact .params (.inl rfl) ⟨rfl, rfl, rfl⟩
  | setBouncebackGas gas =>
    simp only [configure, setBouncebackGas, onlyAdmin_bind_ok_iff,
      require_bind_ok_iff, pure_ok_iff, Prod.mk.injEq] at h
    obtain ⟨hgas, -, rfl, rfl, rfl⟩ := h
    exact .params (.inr hgas) ⟨rfl, rfl, rfl⟩
  | setRpcUrl url =>
    simp only [configure, setRpcUrl, require_bind_ok_iff, pure_ok_iff, Prod.mk.injEq] at h
    obtain ⟨-, rfl, rfl, rfl⟩ := h
    exact .params (.inl rfl) ⟨rfl, rfl, rfl⟩
  | setSequencerEncryptionKey x yParity popV popR popS =>
    simp only [configure, setSequencerEncryptionKey, onlySequencerOrAdmin_bind_ok_iff,
      require_bind_ok_iff, pure_ok_iff, Prod.mk.injEq] at h
    obtain ⟨-, -, -, -, rfl, rfl, rfl⟩ := h
    exact .params (.inl rfl) ⟨rfl, rfl, rfl⟩
  | enableToken token =>
    simp only [configure, enableToken, onlyAdmin_bind_ok_iff, require_bind_ok_iff] at h
    obtain ⟨-, hfresh, -, hinit, h⟩ := h
    obtain ⟨unprocessed, hsub, h⟩ := bind_ok_iff.1 h
    obtain ⟨hle, rfl⟩ := checkedSub_eq_ok.1 hsub
    rw [require_bind_ok_iff] at h
    obtain ⟨hroom, h⟩ := h
    obtain ⟨⟨registry', logs'⟩, henable, h⟩ := bind_ok_iff.1 h
    simp only [pure_ok_iff, Prod.mk.injEq] at h
    obtain ⟨rfl, rfl, rfl⟩ := h
    obtain ⟨enabled, rfl, rfl, rfl⟩ := enableTokenInternal_ok henable
    exact .enable hfresh hinit (by omega)
  | pauseDeposits token
  | resumeDeposits token => exact setDepositsActive_step ⟨rfl, rfl, rfl⟩ h

/-! ## Initialization -/

structure InitializeArgs where
  zoneId : ℕ
  initialToken : Address
  accessEnforced : Bool
  gatewayEnforced : Bool
  allowedAccounts : List Address
  zoneGateways : List Address
  messenger : Address
  admin : Address
  initialSequencers : List Address
  threshold : ℕ
  verifier : Address
  rpcUrl : Bytes

/-- Role-assignment loop of `initialize`: every account must be without a role, and the initial
accounts must differ from the messenger. -/
def grantInitialRoles (role : Address → Role) (granted : Role) (excluded : Address → Bool) :
    List Address → Except Revert (Address → Role)
  | [] => pure role
  | account :: rest => do
      require (excluded account = false) requireFailed
      require (role account = .none) requireFailed
      grantInitialRoles (update role account granted) granted excluded rest

/-- `initialize` on a portal proxy's storage. -/
def Portal.initializePortal (p : Portal W) (ctx : CallCtx W) (sender : Address)
    (args : InitializeArgs) : Except Revert (Portal W × List (PortalEvent W)) := do
  require (ctx.ext.self ≠ ZONE_PORTAL_IMPL_ADDRESS) mustDelegateCall
  require (sender = ZONE_FACTORY_ADDRESS) notFactory
  require (p.gov.initialized = false) alreadyInitialized
  let g := { p.gov with
    initialized := true, zoneId := args.zoneId, messenger := args.messenger, admin := args.admin
    verifier := args.verifier, isAccessEnforced := args.accessEnforced
    isGatewayEnforced := args.gatewayEnforced }
  let (g, setLogs) ← g.replaceSequencerSet args.initialSequencers args.threshold false
  -- `_replaceSequencerSet` rejects an empty list, so the index read of the source succeeds
  let (g, leaderLogs) ← g.writeLeader ctx.env (args.initialSequencers.headD 0)
  let role ← grantInitialRoles g.role .callbackGateway (fun _ => false) args.zoneGateways
  let role ← grantInitialRoles role .account (fun a => a == args.messenger) args.allowedAccounts
  let (registry, tokenLogs) ← enableTokenInternal p.registry ctx.ext args.initialToken
  pure ({ p with gov := { g with role := role }, registry := registry
                 params := { p.params with rpcUrl := args.rpcUrl } },
    [.enforcementModesUpdated args.accessEnforced args.gatewayEnforced] ++ setLogs ++
      leaderLogs ++ args.zoneGateways.map (fun a => .roleUpdated a .none .callbackGateway) ++
      args.allowedAccounts.map (fun a => .roleUpdated a .none .account) ++ tokenLogs)

end TempoZones
