import TempoZones.Rpc.LogPrivacy

/-!
# Filters answer their creators

The node's filter registry and the layer's map of filter owners are two tables under two locks
(`node/src/rpc.rs`). `Task` is what a request still has to do between two awaits, and `Step` is one
atomic piece of any request, an expiry or the owner pruner. The owner map may lag behind the
registry in both directions; but an owner entry always names the creator, since identifiers are
never reused.
-/

namespace TempoZones.Rpc

open Lib Function List

variable {W : Type} [EvmWord W] [DecidableEq W] {F : Type}

/-! ## Requests as sequences of atomic steps -/

abbrev FilterId := ℕ

inductive Call where
  | getFilterLogs
  | getFilterChanges
  | uninstallFilter
  deriving DecidableEq

inductive Task where
  /-- `new_filter` with the filter installed and its owner not stored. -/
  | register (id : FilterId) (caller : Address)
  /-- `ensure_filter_owner` past the owner test. -/
  | ensureActive (call : Call) (id : FilterId) (caller : Address)
  /-- The request itself, past `ensure_filter_owner`. -/
  | serve (call : Call) (id : FilterId) (caller : Address)
  /-- `uninstall_filter` past the removal from the registry, with its result. -/
  | uninstalled (id : FilterId) (result : Bool)
  /-- `prune_filter_owners` with the identifiers that had an owner. -/
  | prune (ownerIds : List FilterId)
  /-- Owner entries about to be removed. -/
  | removeOwners (ids : List FilterId)
  deriving DecidableEq

/-- An answer given: to whom, on which filter, from what the registry held. -/
structure Served (W : Type) where
  caller : Address
  id : FilterId
  kind : FilterKind W

/-- The registry, the owner map, the requests under way, and two records for the statements: who
created each filter, and the answers given. -/
structure FilterTable (W : Type) where
  active : FilterId → Option (FilterKind W)
  filterOwners : FilterId → Option Address
  tasks : List Task
  creator : FilterId → Option Address
  served : List (Served W)

def FilterTable.empty : FilterTable W := ⟨fun _ => none, fun _ => none, [], fun _ => none, []⟩

def removeOwners (owners : FilterId → Option Address) (ids : List FilterId) :
    FilterId → Option Address :=
  fun id => if id ∈ ids then none else owners id

def staleFilterOwnerIds (active : FilterId → Option (FilterKind W)) (ownerIds : List FilterId) :
    List FilterId :=
  ownerIds.filter fun id => (active id).isNone

def FilterTable.advance (s : FilterTable W) (task : Task) (rest : List Task) : List Task :=
  rest ++ s.tasks.erase task

variable (lib : LogLib W) (tokens : Address → Prop)

inductive FilterTable.Step (s : FilterTable W) : FilterTable W → Prop
  /-- The registry installs a scoped filter under a fresh identifier. -/
  | create (caller : Address) (id : FilterId) (kind : FilterKind W)
      (hfresh : s.creator id = none) (hkind : kind.InstalledBy lib tokens caller) :
      Step s { s with
        active := update s.active id (some kind)
        creator := update s.creator id (some caller)
        tasks := .register id caller :: s.tasks }
  | register (id : FilterId) (caller : Address) (htask : .register id caller ∈ s.tasks) :
      Step s { s with
        filterOwners := update s.filterOwners id (some caller)
        tasks := s.advance (.register id caller) [] }
  /-- A request arrives and passes the owner test; one that fails it is refused at once. -/
  | ask (call : Call) (id : FilterId) (caller : Address)
      (howner : s.filterOwners id = some caller) :
      Step s { s with tasks := .ensureActive call id caller :: s.tasks }
  | ensureActive (call : Call) (id : FilterId) (caller : Address)
      (htask : .ensureActive call id caller ∈ s.tasks) :
      Step s { s with
        tasks := s.advance (.ensureActive call id caller)
          [if (s.active id).isSome then .serve call id caller else .removeOwners [id]] }
  /-- The registry answers a query, or does not know the filter any more. -/
  | serve (call : Call) (id : FilterId) (caller : Address) (hcall : call ≠ .uninstallFilter)
      (htask : .serve call id caller ∈ s.tasks) :
      Step s { s with
        served := ((s.active id).map (⟨caller, id, ·⟩)).toList ++ s.served
        tasks := s.advance (.serve call id caller) [] }
  | uninstall (id : FilterId) (caller : Address)
      (htask : .serve .uninstallFilter id caller ∈ s.tasks) :
      Step s { s with
        active := update s.active id none
        tasks := s.advance (.serve .uninstallFilter id caller)
          [.uninstalled id (s.active id).isSome] }
  | uninstalled (id : FilterId) (result : Bool) (htask : .uninstalled id result ∈ s.tasks) :
      Step s { s with
        tasks := s.advance (.uninstalled id result)
          (if result || (s.active id).isNone then [.removeOwners [id]] else []) }
  | expire (id : FilterId) : Step s { s with active := update s.active id none }
  /-- The pruner reads the owner map, later the registry, and later removes entries. -/
  | startPrune (ownerIds : List FilterId) (howners : ∀ id ∈ ownerIds, (s.filterOwners id).isSome) :
      Step s { s with tasks := .prune ownerIds :: s.tasks }
  | prune (ownerIds : List FilterId) (htask : .prune ownerIds ∈ s.tasks) :
      Step s { s with
        tasks := s.advance (.prune ownerIds)
          [.removeOwners (staleFilterOwnerIds s.active ownerIds)] }
  | removeOwners (ids : List FilterId) (htask : .removeOwners ids ∈ s.tasks) :
      Step s { s with
        filterOwners := Rpc.removeOwners s.filterOwners ids
        tasks := s.advance (.removeOwners ids) [] }

inductive FilterTable.Reachable : FilterTable W → Prop
  | start : Reachable .empty
  | step {s s' : FilterTable W} : Reachable s → s.Step lib tokens s' → Reachable s'

variable {lib} {tokens}

/-! ## Owner entries name creators -/

def Task.Rightful (creator : FilterId → Option Address) : Task → Prop
  | .register id caller | .ensureActive _ id caller | .serve _ id caller => creator id = some caller
  | .uninstalled _ _ | .prune _ | .removeOwners _ => True

theorem FilterTable.Step.creator_eq {s s' : FilterTable W} (h : s.Step lib tokens s')
    {id : FilterId} {caller : Address} (hcreator : s.creator id = some caller) :
    s'.creator id = some caller := by
  cases h with
  | create caller' id' kind hfresh hkind =>
    have hne : id ≠ id' := by
      rintro rfl
      rw [hfresh] at hcreator
      cases hcreator
    exact (update_of_ne hne _ _).trans hcreator
  | _ => exact hcreator

theorem Task.Rightful.step {s s' : FilterTable W} (h : s.Step lib tokens s') {task : Task}
    (htask : task.Rightful s.creator) : task.Rightful s'.creator := by
  cases task with
  | register id caller
  | ensureActive call id caller
  | serve call id caller => exact h.creator_eq htask
  | uninstalled id result => trivial
  | prune ownerIds => trivial
  | removeOwners ids => trivial

/-- What holds at all times: owner entries name creators, active filters were installed by their
creators, tasks and answers are for creators. -/
structure FilterTable.Owned (lib : LogLib W) (tokens : Address → Prop) (s : FilterTable W) : Prop
    where
  owners : ∀ id caller, s.filterOwners id = some caller → s.creator id = some caller
  active : ∀ id kind, s.active id = some kind →
    ∃ caller, s.creator id = some caller ∧ kind.InstalledBy lib tokens caller
  tasks : ∀ task ∈ s.tasks, task.Rightful s.creator
  served : ∀ e ∈ s.served,
    s.creator e.id = some e.caller ∧ e.kind.InstalledBy lib tokens e.caller

theorem FilterTable.Owned.tasks_advance {s : FilterTable W} (h : s.Owned lib tokens) (task : Task)
    {rest : List Task} (hrest : ∀ t ∈ rest, t.Rightful s.creator) :
    ∀ t ∈ s.advance task rest, t.Rightful s.creator := by
  intro t ht
  rcases mem_append.1 ht with ht | ht
  · exact hrest t ht
  · exact h.tasks t (mem_of_mem_erase ht)

theorem FilterTable.Owned.active_remove {s : FilterTable W} (h : s.Owned lib tokens)
    (id : FilterId) : ∀ id' kind, update s.active id none id' = some kind →
      ∃ caller, s.creator id' = some caller ∧ kind.InstalledBy lib tokens caller := by
  intro id' kind hkind
  by_cases hid : id' = id
  · rw [hid, update_self] at hkind
    cases hkind
  · rw [update_of_ne hid] at hkind
    exact h.active id' kind hkind

theorem FilterTable.Owned.step {s s' : FilterTable W} (h : s.Owned lib tokens)
    (hstep : s.Step lib tokens s') : s'.Owned lib tokens := by
  have hkeep : ∀ {id : FilterId} {caller : Address}, s.creator id = some caller →
      s'.creator id = some caller := fun hcreator => hstep.creator_eq hcreator
  have hrightful : ∀ {task : Task}, task.Rightful s.creator → task.Rightful s'.creator :=
    fun ht => ht.step hstep
  cases hstep with
  | create caller id kind hfresh hkind =>
    constructor
    · exact fun id' caller' howner => hkeep (h.owners id' caller' howner)
    · intro id' kind' hactive
      simp only at hactive
      by_cases hid : id' = id
      · rw [hid, update_self, Option.some.injEq] at hactive
        rw [hid, ← hactive]
        exact ⟨caller, update_self _ _ _, hkind⟩
      rw [update_of_ne hid] at hactive
      obtain ⟨caller', hcreator, hinstalled⟩ := h.active id' kind' hactive
      exact ⟨caller', hkeep hcreator, hinstalled⟩
    · intro task htask
      rcases mem_cons.1 htask with rfl | htask
      · exact update_self _ _ _
      · exact hrightful (h.tasks task htask)
    · exact fun e he => ⟨hkeep (h.served e he).1, (h.served e he).2⟩
  | register id caller htask =>
    constructor
    · intro id' caller' howner
      simp only at howner
      by_cases hid : id' = id
      · rw [hid, update_self, Option.some.injEq] at howner
        rw [hid, ← howner]
        exact h.tasks _ htask
      · rw [update_of_ne hid] at howner
        exact h.owners id' caller' howner
    · exact h.active
    · exact h.tasks_advance _ nofun
    · exact h.served
  | ask call id caller howner =>
    refine ⟨h.owners, h.active, ?_, h.served⟩
    intro task htask
    rcases mem_cons.1 htask with rfl | htask
    · exact h.owners id caller howner
    · exact h.tasks task htask
  | ensureActive call id caller htask =>
    refine ⟨h.owners, h.active, h.tasks_advance _ ?_, h.served⟩
    intro t ht
    rw [mem_singleton.1 ht]
    have hcaller : s.creator id = some caller := h.tasks _ htask
    split
    · exact hcaller
    · trivial
  | serve call id caller hcall htask =>
    refine ⟨h.owners, h.active, h.tasks_advance _ nofun, ?_⟩
    intro e he
    rcases mem_append.1 he with he | he
    · -- the filter is active under an identifier whose creator is the caller
      rw [Option.mem_toList, Option.map_eq_some_iff] at he
      obtain ⟨kind, hactive, rfl⟩ := he
      have hcaller : s.creator id = some caller := h.tasks _ htask
      obtain ⟨caller', hcreator, hinstalled⟩ := h.active id kind hactive
      rw [hcaller, Option.some.injEq] at hcreator
      exact ⟨hcaller, hcreator ▸ hinstalled⟩
    · exact h.served e he
  | uninstall id caller htask =>
    refine ⟨h.owners, h.active_remove id, h.tasks_advance _ ?_, h.served⟩
    intro t ht
    rw [mem_singleton.1 ht]
    trivial
  | uninstalled id result htask =>
    refine ⟨h.owners, h.active, h.tasks_advance _ ?_, h.served⟩
    intro t ht
    split at ht
    · rw [mem_singleton.1 ht]
      trivial
    · exact absurd ht not_mem_nil
  | expire id => exact ⟨h.owners, h.active_remove id, h.tasks, h.served⟩
  | startPrune ownerIds howners =>
    refine ⟨h.owners, h.active, ?_, h.served⟩
    intro task htask
    rcases mem_cons.1 htask with rfl | htask
    · trivial
    · exact h.tasks task htask
  | prune ownerIds htask =>
    refine ⟨h.owners, h.active, h.tasks_advance _ ?_, h.served⟩
    intro t ht
    rw [mem_singleton.1 ht]
    trivial
  | removeOwners ids htask =>
    refine ⟨?_, h.active, h.tasks_advance _ nofun, h.served⟩
    intro id caller howner
    simp only [Rpc.removeOwners] at howner
    split at howner
    · cases howner
    · exact h.owners id caller howner

theorem FilterTable.Reachable.owned {s : FilterTable W} (h : FilterTable.Reachable lib tokens s) :
    s.Owned lib tokens := by
  induction h with
  | start =>
    constructor
    · rintro id caller ⟨⟩
    · rintro id kind ⟨⟩
    · exact nofun
    · exact nofun
  | step _ hstep ih => exact ih.step hstep

/-! ## Nothing about others -/

/-- Two histories with the same view for a caller give the same answers to `eth_getLogs`, to filter
logs and changes of every filter that the caller installed, and to receipts; two streams with the
same view give the same subscription; and in every interleaving of filter requests, expiry and
pruning, each answer on a filter went to its creator. -/
theorem log_queries_leak_nothing (lib : LogLib W) (backend : Backend W) (tokens : Address → Prop) :
    (∀ (caller : Address) (h h' : History W F),
      (∀ b ∈ h.blocks, b.Precompile lib tokens) → (∀ b ∈ h'.blocks, b.Precompile lib tokens) →
      h.blocks.map (Block.view lib caller) = h'.blocks.map (Block.view lib caller) →
        (∀ zoneTokens : List Address, (∀ a ∈ zoneTokens, tokens a) → ∀ f : Filter W,
          getLogs lib backend h zoneTokens caller f =
            getLogs lib backend h' zoneTokens caller f) ∧
        (∀ kind : FilterKind W, kind.InstalledBy lib tokens caller →
          getFilterLogs lib backend h caller kind = getFilterLogs lib backend h' caller kind ∧
          ∀ next : ℕ, getFilterChanges lib backend h caller next kind =
            getFilterChanges lib backend h' caller next kind) ∧
        ∀ hash : W, transactionReceipt lib h caller hash = transactionReceipt lib h' caller hash) ∧
    (∀ (caller : Address) (stream stream' : List (CanonState W F)),
      (∀ n ∈ stream, n.Precompile lib tokens) → (∀ n ∈ stream', n.Precompile lib tokens) →
      stream.map (CanonState.view lib caller) = stream'.map (CanonState.view lib caller) →
        ∀ zoneTokens : List Address, (∀ a ∈ zoneTokens, tokens a) → ∀ f : Filter W,
          subscribeLogs lib stream zoneTokens caller f =
            subscribeLogs lib stream' zoneTokens caller f) ∧
    (∀ s : FilterTable W, s.Reachable lib tokens → ∀ e ∈ s.served,
      s.creator e.id = some e.caller ∧ e.kind.InstalledBy lib tokens e.caller) ∧
    ∀ s s' : FilterTable W, s.Step lib tokens s' → ∀ (id : FilterId) (caller : Address),
      s.creator id = some caller → s'.creator id = some caller := by
  refine ⟨?_, ?_, ?_, ?_⟩
  · intro caller h h' hwf hwf' hview
    refine ⟨?_, ?_, ?_⟩
    · intro zoneTokens hzone f
      exact getLogs_congr hwf hwf' hview backend hzone f
    · intro kind hkind
      constructor
      · exact getFilterLogs_congr hwf hwf' hview backend hkind
      · exact fun next => getFilterChanges_congr hwf hwf' hview backend hkind next
    · intro hash
      rw [transactionReceipt_eq, transactionReceipt_eq, hview]
  · intro caller stream stream' hwf hwf' hview zoneTokens hzone f
    exact subscribeLogs_congr hwf hwf' hview hzone f
  · exact fun s hs => hs.owned.served
  · exact fun s s' hstep id caller hcreator => hstep.creator_eq hcreator

end TempoZones.Rpc

namespace TempoZones.Example

open TempoZones.Lib TempoZones.Rpc

/-- A guard whose `TransferBlocked` logs name a receiver that is the originator. -/
def logLib : LogLib Sym where
  guard := 9
  decodeTransferBlocked raw :=
    match raw.topics with
    | [_, _, .num receiver] => some ⟨Fin.ofNat _ receiver, Fin.ofNat _ receiver, 0⟩
    | _ => none
  bloom raws := [UInt8.ofNat raws.length]

def logBackend : Backend Sym where
  refuses counts := if 2 < (counts.map Prod.snd).sum then some (.internal 32005) else none
  changes next _ := fun _ => .ok fun c => decide (next ≤ c.number)

def transferLog (sender receiver : Address) : RawLog Sym :=
  ⟨5, [TRANSFER_TOPIC, intoWord sender, intoWord receiver], []⟩

def ownTransfer : Tx Sym Unit := ⟨.num 70, 1, 21, (), [transferLog 1 2]⟩

def foreignTransfers : Tx Sym Unit := ⟨.num 71, 3, 42, (), [transferLog 3 4, transferLog 3 4]⟩

def quietHistory : History Sym Unit where
  blocks := [⟨⟨1, .num 80, 12⟩, [ownTransfer]⟩]
  distinct := by decide

def busyHistory : History Sym Unit where
  blocks := [⟨⟨1, .num 80, 12⟩, [foreignTransfers, ownTransfer]⟩]
  distinct := by decide

def ownFilter : Rpc.Filter Sym where
  blocks _ := .ok fun _ => true
  address := []
  topics0 := []
  topics1 := [intoWord 1]
  topics2 := []
  topics3 := []

theorem transferLog_precompile (sender receiver : Address) :
    PrecompileLog logLib (· = 5) (transferLog sender receiver) := by
  intro _
  constructor
  · rintro ⟨⟩
  · intro hblocked
    have hne : (TRANSFER_TOPIC : Sym) ≠ TRANSFER_BLOCKED_TOPIC := by decide
    exact absurd (Option.some.inj hblocked) hne

theorem quiet_busy_view : quietHistory.blocks.map (Block.view logLib 1) =
      busyHistory.blocks.map (Block.view logLib 1) := by
  decide +kernel

/-- Account 1 gets the same non-empty answer whether or not account 3 is active in the block. -/
theorem getLogs_hides_foreign :
    getLogs logLib logBackend quietHistory [5] 1 ownFilter =
      getLogs logLib logBackend busyHistory [5] 1 ownFilter ∧
    getLogs logLib logBackend quietHistory [5] 1 ownFilter =
      .ok [Coordinates.place ⟨1, .num 80, 12⟩ (.num 70) 0 0 false (transferLog 1 2)] := by
  constructor
  · refine ((log_queries_leak_nothing logLib logBackend (· = 5)).1 1 quietHistory busyHistory
      ?_ ?_ quiet_busy_view).1 [5] (fun a ha => List.mem_singleton.1 ha) ownFilter
    · simp [quietHistory, ownTransfer, Block.Precompile, transferLog_precompile]
    · simp [busyHistory, ownTransfer, foreignTransfers, Block.Precompile, transferLog_precompile]
  · decide +kernel

end TempoZones.Example
