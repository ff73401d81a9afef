import Mathlib.Data.Finset.Option
import TempoZones.Portal.Visibility
import TempoZones.Sequencer.PortalWork

/-!
# Portal events and cache invalidation from receipts

`extractEvents` reads the receipts of one finalized Tempo block: a portal log invalidates the
portal's cached storage and is decoded into the block's events, and one that does not decode rejects
the block. Logs of the TIP-403 registry and of TIP-20 policies invalidate the registry. `BlockRun`
relates receipts to transactions; every transaction that changes portal storage makes the block
report the portal (`portal_changes_visible`).
-/

namespace TempoZones

open Lib List

variable {W : Type} [EvmWord W] [DecidableEq W]

/-! ## Receipts -/

/-- Topic and data of a log as the extraction distinguishes them. `undecodable` is a log with the
topic of a portal event whose data does not decode. -/
inductive LogBody (W : Type) where
  | portalEvent (event : PortalEvent W)
  | undecodable
  | transferPolicyUpdate
  | other

structure TempoLog (W : Type) where
  address : Address
  body : LogBody W

abbrev Receipt (W : Type) := List (TempoLog W)

/-- What the extraction uses of the subscriber's configuration and of the TIP-20 address space. -/
structure ExtractConfig where
  portalAddress : Address
  isTip20Prefix : Address → Bool

/-- Portal events of a block and the addresses whose cached storage is invalidated. -/
structure L1ProcessedEvents (W : Type) where
  portalEvents : L1PortalEvents W
  invalidated : Finset Address

inductive ExtractError where
  | undecodablePortalEvent
  deriving DecidableEq

def cacheInvalidationAddress (cfg : ExtractConfig) (log : TempoLog W) : Option Address :=
  match log.body with
  | .transferPolicyUpdate =>
    if log.address = TIP403_REGISTRY_ADDRESS ∨ cfg.isTip20Prefix log.address = true then
      some TIP403_REGISTRY_ADDRESS
    else none
  | _ => if log.address = TIP403_REGISTRY_ADDRESS then some TIP403_REGISTRY_ADDRESS else none

def portalEventCacheInvalidationAddress : LogBody W → Option Address
  | .portalEvent (.tokenEnabled _) => some TIP403_REGISTRY_ADDRESS
  | _ => none

/-- `push_log` on a raw log: unknown topics are skipped, a known topic has to decode. -/
def L1PortalEvents.pushRawLog (events : L1PortalEvents W) :
    LogBody W → Except ExtractError (L1PortalEvents W)
  | .portalEvent event => .ok (events.pushLog event)
  | .undecodable => .error .undecodablePortalEvent
  | .transferPolicyUpdate => .ok events
  | .other => .ok events

/-- Loop body of `extract_events`. -/
def extractLog (cfg : ExtractConfig) (acc : L1ProcessedEvents W) (log : TempoLog W) :
    Except ExtractError (L1ProcessedEvents W) :=
  if log.address = cfg.portalAddress then do
    let invalidated := insert log.address acc.invalidated ∪
      (portalEventCacheInvalidationAddress log.body).toFinset
    let portalEvents ← acc.portalEvents.pushRawLog log.body
    pure ⟨portalEvents, invalidated⟩
  else
    match cacheInvalidationAddress cfg log with
    | some address => .ok { acc with invalidated := acc.invalidated ∪ {address, log.address} }
    | none => .ok acc

/-- `extract_events`: all logs of all receipts in order, then the enabled tokens. -/
def extractEvents (cfg : ExtractConfig) (receipts : List (Receipt W)) :
    Except ExtractError (L1ProcessedEvents W) := do
  let acc ← receipts.flatten.foldlM (extractLog cfg) ⟨⟨[], []⟩, ∅⟩
  let invalidated := acc.portalEvents.enabledTokens.foldl
    (fun set event => set ∪ {event.token, TIP403_REGISTRY_ADDRESS}) acc.invalidated
  pure { acc with invalidated := invalidated }

/-! ## Receipts of a block -/

def TempoLog.portalEvent? (self : Address) (log : TempoLog W) : Option (PortalEvent W) :=
  match log.body with
  | .portalEvent event => if log.address = self then some event else none
  | _ => none

def emitted (self : Address) (logs : List (TempoLog W)) : List (PortalEvent W) :=
  logs.filterMap (TempoLog.portalEvent? self)

def TempoLog.FromPortal (self : Address) (log : TempoLog W) : Prop :=
  log.address = self → ∃ event, log.body = .portalEvent event

/-- `receipt` holds the logs that the portal emitted between `s` and `s'`, among logs of other
contracts. -/
structure ReceiptOf (portal : Address) (s s' : L1 W) (receipt : Receipt W) : Prop where
  fromPortal : ∀ log ∈ receipt, log.FromPortal portal
  logs_eq : s'.logs = s.logs ++ emitted portal receipt

inductive BlockRun (self : Address) : L1 W → List (Receipt W) → L1 W → Prop
  | nil (s : L1 W) : BlockRun self s [] s
  | tx {s m s' : L1 W} {receipts : List (Receipt W)} {receipt : Receipt W} {ctx : CallCtx W}
      (before : BlockRun self s receipts m) (account : ctx.ext.self = self)
      (run : Control ctx m s') (receiptOf : ReceiptOf self m s' receipt) :
      BlockRun self s (receipts ++ [receipt]) s'

theorem BlockRun.fromPortal {self : Address} {s s' : L1 W} {receipts : List (Receipt W)}
    (h : BlockRun self s receipts s') : ∀ receipt ∈ receipts, ∀ log ∈ receipt, log.FromPortal self := by
  induction h with
  | nil => exact nofun
  | tx _ _ _ receiptOf ih =>
    intro receipt hreceipt
    rcases mem_append.1 hreceipt with h | h
    · exact ih receipt h
    · rw [mem_singleton.1 h]
      exact receiptOf.fromPortal

theorem mem_of_emitted_ne_nil {self : Address} {logs : List (TempoLog W)}
    (h : emitted self logs ≠ []) : ∃ log ∈ logs, log.address = self := by
  obtain ⟨event, hevent⟩ := exists_mem_of_ne_nil _ h
  obtain ⟨log, hlog, hsome⟩ := mem_filterMap.1 hevent
  refine ⟨log, hlog, ?_⟩
  unfold TempoLog.portalEvent? at hsome
  split at hsome
  · by_contra haddress
    rw [if_neg haddress] at hsome
    cases hsome
  · cases hsome

/-! ## The extraction -/

variable {cfg : ExtractConfig}

theorem extractLog_ok {log : TempoLog W} (h : log.FromPortal cfg.portalAddress)
    (acc : L1ProcessedEvents W) :
    ∃ acc', extractLog cfg acc log = .ok acc' ∧ acc'.portalEvents =
        (log.portalEvent? cfg.portalAddress).toList.foldl L1PortalEvents.pushLog acc.portalEvents ∧
      acc.invalidated ⊆ acc'.invalidated ∧
      (log.address = cfg.portalAddress → cfg.portalAddress ∈ acc'.invalidated) := by
  by_cases haddress : log.address = cfg.portalAddress
  · obtain ⟨event, hbody⟩ := h haddress
    refine ⟨⟨acc.portalEvents.pushLog event, insert log.address acc.invalidated ∪
      (portalEventCacheInvalidationAddress log.body).toFinset⟩, ?_, ?_, ?_, ?_⟩
    · simp only [extractLog, if_pos haddress, hbody, L1PortalEvents.pushRawLog]
      rfl
    · simp [TempoLog.portalEvent?, hbody, haddress]
    · intro a ha
      exact Finset.mem_union_left _ (Finset.mem_insert_of_mem ha)
    intro _
    rw [haddress]
    exact Finset.mem_union_left _ (Finset.mem_insert_self _ _)
  have hother : log.portalEvent? cfg.portalAddress = none := by
    unfold TempoLog.portalEvent?
    split
    · exact if_neg haddress
    · rfl
  rw [extractLog, if_neg haddress, hother]
  split
  · exact ⟨_, rfl, rfl, Finset.subset_union_left, fun h => absurd h haddress⟩
  · exact ⟨acc, rfl, rfl, Finset.Subset.refl _, fun h => absurd h haddress⟩

theorem foldlM_extractLog_ok {logs : List (TempoLog W)}
    (h : ∀ log ∈ logs, log.FromPortal cfg.portalAddress) (acc : L1ProcessedEvents W) :
    ∃ acc', logs.foldlM (extractLog cfg) acc = .ok acc' ∧ acc'.portalEvents =
        (emitted cfg.portalAddress logs).foldl L1PortalEvents.pushLog acc.portalEvents ∧
      acc.invalidated ⊆ acc'.invalidated ∧
      ((∃ log ∈ logs, log.address = cfg.portalAddress) → cfg.portalAddress ∈ acc'.invalidated) := by
  induction logs generalizing acc with
  | nil => exact ⟨acc, rfl, rfl, Finset.Subset.refl _, by simp⟩
  | cons log rest ih =>
    obtain ⟨mid, hmid, hevents, hsubset, hmark⟩ := extractLog_ok (h log mem_cons_self) acc
    obtain ⟨acc', hacc', hevents', hsubset', hmark'⟩ :=
      ih (fun other hother => h other (mem_cons_of_mem _ hother)) mid
    refine ⟨acc', ?_, ?_, hsubset.trans hsubset', ?_⟩
    · rw [foldlM_cons, hmid]
      exact hacc'
    · rw [hevents', hevents, ← foldl_append, emitted, emitted, filterMap_cons]
      cases log.portalEvent? cfg.portalAddress <;> rfl
    rintro ⟨found, hfound, haddress⟩
    rcases mem_cons.1 hfound with rfl | hrest
    · exact hsubset' (hmark haddress)
    · exact hmark' ⟨found, hrest, haddress⟩

/-- The extraction of receipts whose portal logs come from the portal succeeds with the events that
the portal emitted, and reports the portal when it emitted one. -/
theorem extractEvents_ok {receipts : List (Receipt W)}
    (h : ∀ receipt ∈ receipts, ∀ log ∈ receipt, log.FromPortal cfg.portalAddress) :
    ∃ processed, extractEvents cfg receipts = .ok processed ∧
      processed.portalEvents = .ofLogs (emitted cfg.portalAddress receipts.flatten) ∧
      ((∃ receipt ∈ receipts, ∃ log ∈ receipt, log.address = cfg.portalAddress) →
        cfg.portalAddress ∈ processed.invalidated) := by
  have hlogs : ∀ log ∈ receipts.flatten, log.FromPortal cfg.portalAddress := by
    intro log hlog
    obtain ⟨receipt, hreceipt, hmem⟩ := mem_flatten.1 hlog
    exact h receipt hreceipt log hmem
  obtain ⟨acc, hacc, hevents, -, hmark⟩ := foldlM_extractLog_ok hlogs ⟨⟨[], []⟩, ∅⟩
  -- the enabled tokens only add addresses
  have hgrow : ∀ (tokens : List EnabledToken) (set : Finset Address), set ⊆ tokens.foldl
      (fun set event => set ∪ {event.token, TIP403_REGISTRY_ADDRESS}) set := by
    intro tokens
    induction tokens with
    | nil => exact fun set => Finset.Subset.refl _
    | cons token rest ih => exact fun set => Finset.subset_union_left.trans (ih _)
  refine ⟨⟨acc.portalEvents, acc.portalEvents.enabledTokens.foldl
    (fun set event => set ∪ {event.token, TIP403_REGISTRY_ADDRESS}) acc.invalidated⟩, ?_, hevents, ?_⟩
  · rw [extractEvents, hacc]
    rfl
  · rintro ⟨receipt, hreceipt, log, hlog, haddress⟩
    exact hgrow _ _ (hmark ⟨log, mem_flatten.2 ⟨receipt, hreceipt, hlog⟩, haddress⟩)

/-- A transaction that changes portal storage leaves a portal log in its receipt, and the extraction
of its block reports the portal; without a portal log the storage is unchanged. -/
theorem portal_changes_visible {ctx : CallCtx W} {s₀ s s' s₁ : L1 W}
    {before after : List (Receipt W)} {receipt : Receipt W}
    (hbefore : BlockRun cfg.portalAddress s₀ before s) (run : Control ctx s s')
    (receiptOf : ReceiptOf cfg.portalAddress s s' receipt)
    (hafter : BlockRun cfg.portalAddress s' after s₁) :
    (s'.logs = s.logs → s'.portal = s.portal) ∧
    (s'.portal ≠ s.portal → ∃ log ∈ receipt, log.address = cfg.portalAddress) ∧
    ∃ processed, extractEvents cfg (before ++ receipt :: after) = .ok processed ∧
      processed.portalEvents =
        .ofLogs (emitted cfg.portalAddress (before ++ receipt :: after).flatten) ∧
      (s'.portal ≠ s.portal → cfg.portalAddress ∈ processed.invalidated) := by
  obtain ⟨logs, hlogs, hquiet⟩ := run.logged
  have hemitted : logs = emitted cfg.portalAddress receipt :=
    append_cancel_left (hlogs.symm.trans receiptOf.logs_eq)
  have hvisible : s'.portal ≠ s.portal → ∃ log ∈ receipt, log.address = cfg.portalAddress := by
    intro hchanged
    apply mem_of_emitted_ne_nil
    intro hnone
    exact hchanged (hquiet (hemitted.trans hnone))
  have hfrom : ∀ r ∈ before ++ receipt :: after, ∀ log ∈ r, log.FromPortal cfg.portalAddress := by
    intro r hr
    rcases mem_append.1 hr with h | h
    · exact hbefore.fromPortal r h
    · rcases mem_cons.1 h with rfl | h
      · exact receiptOf.fromPortal
      · exact hafter.fromPortal r h
  obtain ⟨processed, hprocessed, hevents, hmark⟩ := extractEvents_ok hfrom
  refine ⟨?_, hvisible, processed, hprocessed, hevents, ?_⟩
  · intro hsame
    apply hquiet
    rw [hsame] at hlogs
    exact self_eq_append_right.1 hlogs
  · intro hchanged
    exact hmark ⟨receipt, mem_append_right _ mem_cons_self, hvisible hchanged⟩

namespace Example

def extractConfig : ExtractConfig where
  portalAddress := 100
  isTip20Prefix := fun token => token == 50

/-- The receipt of the settlement: a transfer of another contract and the log of the batch. -/
def settledReceipt : Receipt Sym :=
  ⟨50, .other⟩ :: (settled.logs.drop start.logs.length).map fun log => ⟨100, .portalEvent log⟩

theorem settled_receiptOf : ReceiptOf extractConfig.portalAddress start settled settledReceipt where
  fromPortal := by
    intro log hlog haddress
    rcases mem_cons.1 hlog with rfl | hlog
    · exact absurd haddress (by decide)
    · obtain ⟨event, -, rfl⟩ := mem_map.1 hlog
      exact ⟨event, rfl⟩
  logs_eq := rfl

/-- The settlement changes the portal, and its block reports the portal. -/
theorem portal_changes_visible_settled :
    settled.portal ≠ start.portal ∧
      ∃ processed, extractEvents extractConfig [settledReceipt] = .ok processed ∧
        extractConfig.portalAddress ∈ processed.invalidated := by
  have hchanged : settled.portal ≠ start.portal := by
    intro h
    have hindex : settled.portal.batches.withdrawalBatchIndex =
        start.portal.batches.withdrawalBatchIndex := by rw [h]
    exact absurd hindex (by decide)
  have hoff : (1 : Address) ≠ settleCtx.ext.self := by decide
  have hbefore : BlockRun extractConfig.portalAddress start [] start := .nil start
  have hafter : BlockRun extractConfig.portalAddress settled [] settled := .nil settled
  obtain ⟨-, -, processed, hprocessed, -, hmark⟩ := portal_changes_visible hbefore
    (.call (c := .submitBatch batch) (.refl _) hoff submits) settled_receiptOf hafter
  exact ⟨hchanged, processed, hprocessed, hmark hchanged⟩

end Example

end TempoZones
