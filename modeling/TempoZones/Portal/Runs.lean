import TempoZones.Portal.Steps

/-!
# Invariants of portal runs

A property that holds after `initialize`, survives the passing of blocks and is kept by every step
holds in every observed state (`Reached.invariant`); `Seen.invariant` is the same for two moments of
a run. `Started.initial` describes the state that `initialize` leaves.
-/

namespace TempoZones

open Lib List

variable {W : Type} [EvmWord W] [DecidableEq W] {log : PortalEvent W}

/-! ## Block order -/

theorem Lib.BlockEnv.NotAfter.refl (e : BlockEnv) : e.NotAfter e := ⟨le_rfl, le_rfl⟩

/-! ## The induction over runs -/

section Invariant

variable {P : CallCtx W → Prop} {I : BlockEnv → L1 W → Prop} {e e' : BlockEnv} {s m : L1 W}

theorem MicroPath.invariant {ctx : CallCtx W}
    (step : ∀ {s s' : L1 W}, I ctx.env s → Micro ctx s s' → I ctx.env s')
    (h : MicroPath ctx s m) (hs : I ctx.env s) : I ctx.env m := by
  induction h with
  | refl => exact hs
  | tail _ hstep ih => exact step ih hstep

theorem Later.initialized_eq (init : s.portal.gov.initialized = true) (h : Later P e s e' m) :
    m.portal.gov.initialized = true := by
  induction h with
  | refl => exact init
  | tx _ _ _ run ih => exact (run.traced (ih init)).1.initialized_eq.trans (ih init)

variable (mono : ∀ {e e' : BlockEnv} {s : L1 W}, e.NotAfter e' → I e s → I e' s)
  (step : ∀ {ctx : CallCtx W} {s s' : L1 W}, P ctx → I ctx.env s → Micro ctx s s' → I ctx.env s')

include mono step

theorem Later.invariant (init : s.portal.gov.initialized = true) (hs : I e s)
    (h : Later P e s e' m) : I e' m := by
  induction h with
  | refl => exact hs
  | tx before order admissible run ih =>
    have hinit := before.initialized_eq init
    exact MicroPath.invariant (step admissible) (run.traced hinit).1 (mono order (ih init hs))

theorem Seen.invariant (init : s.portal.gov.initialized = true) (hs : I e s)
    (h : Seen P e s e' m) : I e' m := by
  obtain ⟨e₁, s₁, ctx, hlater, horder, hadmissible, rfl, hsees⟩ := h
  have hs₁ : I e₁ s₁ := Later.invariant mono step init hs hlater
  exact MicroPath.invariant (step hadmissible) (hsees.path (hlater.initialized_eq init))
    (mono horder hs₁)

end Invariant

/-! ## The state after `initialize` -/

theorem grantInitialRoles_ok {granted : Role} {excluded : Address → Bool}
    {accounts : List Address} :
    ∀ {role role' : Address → Role}, grantInitialRoles role granted excluded accounts = .ok role' →
      ∀ a, role' a = role a ∨ (role a = .none ∧ role' a = granted) := by
  induction accounts with
  | nil =>
    intro role role' h a
    cases pure_ok_iff.1 h
    exact .inl rfl
  | cons account rest ih =>
    intro role role' h a
    simp only [grantInitialRoles, ok_iff] at h
    obtain ⟨-, -, -, hnone, h⟩ := h
    have hrest := ih h a
    by_cases ha : a = account
    · subst ha
      rw [Function.update_self] at hrest
      exact .inr ⟨hnone, hrest.elim id And.right⟩
    · rwa [Function.update_of_ne ha] at hrest

/-- Governance state that `initialize` has written before it assigns accounts and gateways. -/
def initialGovernance (env : BlockEnv) (args : InitializeArgs) : Governance :=
  { Governance.empty with
    initialized := true, zoneId := args.zoneId, messenger := args.messenger, admin := args.admin
    verifier := args.verifier, isAccessEnforced := args.accessEnforced
    isGatewayEnforced := args.gatewayEnforced, sequencers := args.initialSequencers
    sequencerThreshold := args.threshold
    role := Governance.assignRoles .sequencer (fun _ => .none) args.initialSequencers
    leader := args.initialSequencers.headD 0, leaderEpoch := 1
    leaderActivationTempoBlock := env.number }

/-- What `initialize` leaves behind. -/
structure Initial (env : BlockEnv) (args : InitializeArgs) (portalAddress : Address)
    (s : L1 W) : Prop where
  size_pos : 0 < args.initialSequencers.length
  size_le : args.initialSequencers.length ≤ MAX_SEQUENCERS
  threshold_pos : 0 < args.threshold
  threshold_le : args.threshold ≤ args.initialSequencers.length
  nodup : args.initialSequencers.Nodup
  ne_zero : ∀ a ∈ args.initialSequencers, a ≠ 0
  gov : ∃ role, s.portal.gov = { initialGovernance env args with role := role } ∧
    ∀ a, role a = (initialGovernance env args).role a ∨
      ((initialGovernance env args).role a = .none ∧
        (role a = .callbackGateway ∨ role a = .account))
  params : s.portal.params = { (Portal.empty : Portal W).params with rpcUrl := args.rpcUrl }
  registry : ∃ enabled : EnabledToken, enabled.token = args.initialToken ∧
    s.portal.registry = (Portal.empty : Portal W).registry.append enabled ∧
    tokenEnablements s.logs = [enabled]
  deposits : s.portal.deposits = (Portal.empty : Portal W).deposits
  batches : s.portal.batches = (Portal.empty : Portal W).batches
  withdrawalQueue : s.portal.withdrawalQueue = (Portal.empty : Portal W).withdrawalQueue
  refunds : s.portal.refunds = fun _ _ => 0
  status : s.status = .notEntered
  entries : queueEntries s.logs = []
  leaders : leaderUpdates s.logs = [⟨0, args.initialSequencers.headD 0, 1, env.number⟩]
  dequeued : s.history.dequeued = []
  accepted : s.history.accepted = []
  gifts : ∀ t, s.history.gifts t = s.ledger t portalAddress

theorem queueEntries_append (a b : List (PortalEvent W)) :
    queueEntries (a ++ b) = queueEntries a ++ queueEntries b :=
  filterMap_append

theorem leaderUpdates_append (a b : List (PortalEvent W)) :
    leaderUpdates (a ++ b) = leaderUpdates a ++ leaderUpdates b :=
  filterMap_append

theorem tokenEnablements_append (a b : List (PortalEvent W)) :
    tokenEnablements (a ++ b) = tokenEnablements a ++ tokenEnablements b :=
  filterMap_append

theorem tokenEnablements_concat (h : log.tokenEnablement? = none) (logs : List (PortalEvent W)) :
    tokenEnablements (logs ++ [log]) = tokenEnablements logs := by
  rw [tokenEnablements_append]
  simp [tokenEnablements, h]

theorem leaderUpdates_concat (h : log.leaderUpdate? = none) (logs : List (PortalEvent W)) :
    leaderUpdates (logs ++ [log]) = leaderUpdates logs := by
  rw [leaderUpdates_append]
  simp [leaderUpdates, h]

theorem queueEntries_concat (h : log.queueEntry? = none) (logs : List (PortalEvent W)) :
    queueEntries (logs ++ [log]) = queueEntries logs := by
  rw [queueEntries_append]
  simp [queueEntries, h]

theorem queueEntries_roleUpdated (l : List Address) (prev next : Role) :
    queueEntries (l.map fun a => (.roleUpdated a prev next : PortalEvent W)) = [] := by
  simp [queueEntries, filterMap_eq_nil_iff, PortalEvent.queueEntry?]

theorem leaderUpdates_roleUpdated (l : List Address) (prev next : Role) :
    leaderUpdates (l.map fun a => (.roleUpdated a prev next : PortalEvent W)) = [] := by
  simp [leaderUpdates, filterMap_eq_nil_iff, PortalEvent.leaderUpdate?]

theorem tokenEnablements_roleUpdated (l : List Address) (prev next : Role) :
    tokenEnablements (l.map fun a => (.roleUpdated a prev next : PortalEvent W)) = [] := by
  simp [tokenEnablements, filterMap_eq_nil_iff, PortalEvent.tokenEnablement?]

theorem replacementLogs_quiet (g : Governance) (new : List Address) (nonce threshold : ℕ) :
    queueEntries (g.replacementLogs new nonce threshold : List (PortalEvent W)) = [] ∧
      leaderUpdates (g.replacementLogs new nonce threshold : List (PortalEvent W)) = [] ∧
      tokenEnablements (g.replacementLogs new nonce threshold : List (PortalEvent W)) = [] := by
  simp only [Governance.replacementLogs, queueEntries_append, queueEntries_roleUpdated,
    leaderUpdates_append, leaderUpdates_roleUpdated, tokenEnablements_append,
    tokenEnablements_roleUpdated]
  exact ⟨rfl, rfl, rfl⟩

variable {P : CallCtx W → Prop}

theorem Started.initial {e : BlockEnv} {s : L1 W} (h : Started P e s) :
    ∃ (ctx : CallCtx W) (args : InitializeArgs), P ctx ∧ ctx.env = e ∧
      Initial e args ctx.ext.self s := by
  obtain ⟨ctx, args, ledger, hP, rfl, h⟩ := h
  refine ⟨ctx, args, hP, rfl, ?_⟩
  simp only [exec, Portal.initializePortal, ok_iff] at h
  obtain ⟨⟨p, logs⟩, ⟨-, -, -, -, -, -, ⟨g, setLogs⟩, hset, ⟨g', leaderLogs⟩, hleader, role₁, hrole₁,
    role, hrole, ⟨registry, tokenLogs⟩, htoken, hp⟩, rfl⟩ := h
  cases hp
  obtain ⟨hvalid, nonce, rfl, rfl, rfl⟩ := Governance.replaceSequencerSet_ok hset
  simp only [Governance.writeLeader, ok_iff, checkedAdd_eq_ok, Prod.mk.injEq, uint64_number] at hleader
  obtain ⟨_, ⟨-, rfl⟩, rfl, rfl⟩ := hleader
  obtain ⟨enabled, henabled, rfl, rfl⟩ := enableTokenInternal_ok htoken
  have hroles : ∀ a, role a = (initialGovernance ctx.env args).role a ∨
      ((initialGovernance ctx.env args).role a = .none ∧
        (role a = .callbackGateway ∨ role a = .account)) := by
    intro a
    have h₁ := grantInitialRoles_ok hrole₁ a
    have h₂ := grantInitialRoles_ok hrole a
    rcases h₂ with h₂ | ⟨hnone, h₂⟩
    · rw [h₂]
      exact h₁.imp id (And.imp id .inl)
    rcases h₁ with h₁ | ⟨hnone', -⟩
    · exact .inr ⟨h₁ ▸ hnone, .inr h₂⟩
    · exact .inr ⟨hnone', .inr h₂⟩
  have hquiet := replacementLogs_quiet (W := W)
  constructor
  · exact hvalid.size_pos
  · exact hvalid.size_le
  · exact hvalid.threshold_pos
  · exact hvalid.threshold_le
  · exact hvalid.nodup
  · exact hvalid.ne_zero
  · exact ⟨role, rfl, hroles⟩
  · rfl
  · refine ⟨enabled, henabled, rfl, ?_⟩
    simp only [L1.fresh, nil_append, tokenEnablements_append, tokenEnablements_roleUpdated, hquiet]
    rfl
  all_goals try rfl
  · simp only [L1.fresh, nil_append, queueEntries_append, queueEntries_roleUpdated, hquiet]
    rfl
  · simp only [L1.fresh, nil_append, leaderUpdates_append, leaderUpdates_roleUpdated, hquiet]
    rfl
  · exact fun _ => rfl

theorem Initial.initialized {e : BlockEnv} {args : InitializeArgs} {self : Address} {s : L1 W}
    (h : Initial e args self s) : s.portal.gov.initialized = true := by
  obtain ⟨role, hgov, -⟩ := h.gov
  rw [hgov]
  rfl

/-- A property that `initialize` establishes, and that the passing of blocks and every step keep,
holds in every observed state of every run. -/
theorem Reached.invariant {I : BlockEnv → L1 W → Prop}
    (start : ∀ {e args self} {s : L1 W}, Initial e args self s → I e s)
    (mono : ∀ {e e' : BlockEnv} {s : L1 W}, e.NotAfter e' → I e s → I e' s)
    (step : ∀ {ctx : CallCtx W} {s s' : L1 W}, P ctx → I ctx.env s → Micro ctx s s' → I ctx.env s')
    {e : BlockEnv} {m : L1 W} (h : Reached P e m) : I e m := by
  obtain ⟨e₀, s₀, hstart, hseen⟩ := h
  obtain ⟨ctx, args, -, -, hinit⟩ := hstart.initial
  exact Seen.invariant mono step hinit.initialized (start hinit) hseen

theorem Reached.initialized {e : BlockEnv} {m : L1 W} (h : Reached P e m) :
    m.portal.gov.initialized = true := by
  refine h.invariant (I := fun _ s => s.portal.gov.initialized = true) Initial.initialized
    (fun _ hs => hs) ?_
  exact fun _ hs hstep => hstep.initialized_eq.trans hs

/-! ## A concrete run

A portal with two sequencers over symbolic words, in block 7 at time 1000, which settles one batch
with one withdrawal. -/

namespace Example

def env : BlockEnv := ⟨7, 1000, 0, 1, by decide, by decide, by decide⟩

theorem next_number_lt : 8 < 2 ^ 64 := by decide

def ext : Externals Sym where
  self := 100
  zones := fun _ => 100
  recover := fun _ _ => none
  verify := fun _ => false
  getBlockHash := fun _ => 0
  isTIP20 := fun _ => true
  metadata := fun token => ⟨token, [], [], []⟩
  transferPolicyIsSet := fun _ => true
  transferPolicyMigrates := fun _ => true
  isAuthorizedRecipient := fun _ _ => true
  ecrecover := fun _ _ _ _ => 0

def ctx : CallCtx Sym := ⟨env, ext⟩

def args : InitializeArgs where
  zoneId := 1
  initialToken := 50
  accessEnforced := false
  gatewayEnforced := false
  allowedAccounts := [20]
  zoneGateways := [30]
  messenger := 40
  admin := 10
  initialSequencers := [1, 2]
  threshold := 2
  verifier := 60
  rpcUrl := []

/-- State after `initialize` with the arguments above and no balances. -/
def start : L1 Sym :=
  match exec ctx ZONE_FACTORY_ADDRESS (.fresh ext.self fun _ _ => 0) (.initializePortal args) with
  | .ok s => s
  | .error _ => .fresh ext.self fun _ _ => 0

variable {P : CallCtx Sym → Prop}

theorem started (hP : P ctx) : Started P env start := ⟨ctx, args, fun _ _ => 0, hP, rfl, rfl⟩

theorem reached (hP : P ctx) : Reached P env start :=
  ⟨env, start, started hP, env, start, ctx, .refl _ _, .refl _, hP, rfl, .reached (.refl _)⟩

/-- Withdrawal of the example zone: five units of token 50 to account 70, without a callback. -/
def payout : Withdrawal Sym where
  token := 50
  senderTag := .num 11
  recipient := 70
  amount := 5
  memo := .num 12
  gasLimit := 0
  fallbackNonce := 1
  callbackData := []
  encryptedSender := []

def batch : SubmitBatch Sym where
  tempoBlockNumber := 6
  recentTempoBlockNumber := 0
  blockTransition := ⟨0, .num 5⟩
  depositQueueTransition := ⟨0, 0, 0, 0⟩
  tokenEnablementTransition := ⟨0, 1⟩
  withdrawalQueueHash := Withdrawal.queueHash [payout]
  verifierConfig := []
  proof := []
  nextZoneHeight := 3
  signatures := [[1], [2]]

def batchDigest : Sym := (start.portal.attestation batch 6 (.num 9)).digest ctx

def signer (signature : Bytes) : Option Address :=
  if signature = [1] then some 1 else if signature = [2] then some 2 else none

def settleCtx : CallCtx Sym :=
  ⟨env, { ext with
    recover := fun digest signature => if digest = batchDigest then signer signature else none
    verify := fun _ => true
    getBlockHash := fun _ => .num 9 }⟩

theorem signatures_pass {recover : Sym → Bytes → Option Address} {digest : Sym}
    (h₁ : recover digest [1] = some 1) (h₂ : recover digest [2] = some 2) :
    checkSignatures start.portal.gov recover digest [] [[1], [2]] = true := by
  simp only [checkSignatures, h₁, h₂]
  rfl

theorem batch_certified : start.portal.verifySettlement settleCtx batch 6 (.num 9) = true := by
  have hrecover : ∀ signature, settleCtx.ext.recover batchDigest signature = signer signature :=
    fun _ => if_pos rfl
  have hdigest : (start.portal.attestation batch 6 (.num 9)).digest settleCtx = batchDigest := rfl
  rw [Portal.verifySettlement, if_neg (by decide), hdigest, Bool.and_eq_true]
  exact ⟨signatures_pass (hrecover _) (hrecover _), by decide⟩

def settled : L1 Sym := start.settle settleCtx batch 6 (.num 9)

theorem submits : start.submitBatch settleCtx 1 batch = .ok settled := by
  simp only [L1.submitBatch, DepositCursor.checkTransition, TokenRegistry.checkTransition,
    ok_iff, checkedAdd_eq_ok]
  exact ⟨(), by decide, (), rfl, (6, .num 9), rfl, (), batch_certified, (), by decide, (),
    ⟨(), by decide, by decide⟩, 1, ⟨by decide, rfl⟩, (), rfl, rfl⟩

theorem settled_later (hsettle : P settleCtx) : Later P env start env settled := by
  have hoff : (1 : Address) ≠ settleCtx.ext.self := by decide
  exact .tx (.refl _ _) (.refl _) hsettle (.call (c := .submitBatch batch) (.refl _) hoff submits)

theorem settled_reached (hP : P ctx) (hsettle : P settleCtx) : Reached P env settled :=
  ⟨env, start, started hP, env, settled, settleCtx, settled_later hsettle, .refl _, hsettle, rfl,
    .reached (.refl _)⟩

end Example

end TempoZones
