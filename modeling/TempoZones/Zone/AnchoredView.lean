import TempoZones.Zone.L1View

/-!
# Transaction attempts over the L1 overlay

An attempt runs code over a journal and the shared `L1State`. Registry storage is loaded through the
overlay of the database (`overlayStorage`), portal slots through the precompiles (`loadPortal`). A
reverted sub-call rolls the journal back, but neither the anchor nor the warm slots. After the code
has ended the state transition is sanitized (`executeAttempt`). Code is a tree that branches on what
it reads (`Code`), with every other part of zone storage as a type `S`.
-/

namespace TempoZones.L1View

open Lib

variable {W : Type} [EvmWord W] [DecidableEq W] {S : Type}

/-! ## Code and machine -/

inductive L1Account where
  | registry
  | portal
  deriving DecidableEq

inductive FrameEnd where
  | success
  | revert
  | halt
  deriving DecidableEq

inductive Code (W S : Type) where
  | done (result : FrameEnd)
  /-- Load of a registry slot. -/
  | sload (slot : W) (next : W → Code W S)
  /-- Write of a registry slot. -/
  | sstore (slot value : W) (next : Code W S)
  /-- Change of the registry's balance, nonce or code to that of `info`. -/
  | setInfo (info : ℕ) (next : Code W S)
  /-- Metered read of a portal slot: its value, and whether it was warm. -/
  | readPortal (slot : W) (next : W → Bool → Code W S)
  /-- Import of checkpoints by the inbox, with the storage write that fails, if one does. -/
  | finalizeTempo (headers : List Bytes) (fault : Option StorageWrite) (next : Code W S)
  /-- A sub-call. -/
  | call (body : Code W S) (next : FrameEnd → Code W S)
  /-- Access to the rest of zone storage. -/
  | other (update : S → S) (next : S → Code W S)

/-- Committed zone state: the checkpoint, the local registry account, and the rest. -/
structure ZoneDb (W S : Type) where
  tempo : TempoState W
  registry : W → W
  registryInfo : ℕ
  other : S

/-- State that a revert rolls back. Loaded slots are kept apart, since a revert does not unload. -/
structure Journal (W S : Type) where
  tempo : TempoState W
  written : List (W × W)
  registryInfo : ℕ
  other : S

inductive L1Event (W : Type) where
  | read (account : L1Account) (slot value : W)
  | imported (blockNumber : ℕ)

structure Machine (W S : Type) where
  journal : Journal W S
  loaded : List (W × W)
  l1 : L1State W
  events : List (L1Event W)

/-- Surroundings of an attempt: the L1 provider, the portal's address, the zone context and the
committed state that the attempt runs on. -/
structure AttemptEnv (W S : Type) where
  provider : L1Account → W → ℕ → Option W
  portalAddress : Address
  ctx : ZoneCtx W
  db : ZoneDb W S

variable (env : AttemptEnv W S)

/-! ## Reads -/

def AttemptEnv.address : L1Account → Address
  | .registry => TIP403_REGISTRY_ADDRESS
  | .portal => env.portalAddress

def readL1StorageUnmetered (l1 : L1State W) (account : L1Account) (slot : W) (blockNumber : ℕ) :
    Except (L1StateError W) (W × L1State W) := do
  let l1 ← l1.setAnchor blockNumber
  match env.provider account slot blockNumber with
  | none => .error (.storageUnavailable (env.address account) slot blockNumber)
  | some value => .ok (value, l1)

/-- `L1OverlayDB::storage` for a registry slot: at the anchor, or at the checkpoint of the committed
state. -/
def overlayStorage (l1 : L1State W) (slot : W) : Except (L1StateError W) (W × L1State W) :=
  readL1StorageUnmetered env l1 .registry slot (l1.anchor.getD env.db.tempo.tempoBlockNumber)

/-- `L1Storage::load` for a portal slot: at the anchor, or at the journaled checkpoint. -/
def loadPortal (l1 : L1State W) (tempo : TempoState W) (slot : W) :
    Except (L1StateError W) (W × Bool × L1State W) := do
  let warm := decide ((env.portalAddress, slot) ∈ l1.accessSet)
  let (value, l1) ← readL1StorageUnmetered env l1 .portal slot
    (l1.anchor.getD tempo.tempoBlockNumber)
  .ok (value, warm, { l1 with accessSet := (env.portalAddress, slot) :: l1.accessSet })

/-- Load of a registry slot through the journal: a local write, the value loaded before, or the
overlay's. -/
def Machine.sload (m : Machine W S) (slot : W) : Except (L1StateError W) (W × Machine W S) :=
  match m.journal.written.lookup slot with
  | some value => .ok (value, m)
  | none =>
    match m.loaded.lookup slot with
    | some value => .ok (value, { m with events := m.events ++ [.read .registry slot value] })
    | none => do
        let (value, l1) ← overlayStorage env m.l1 slot
        .ok (value, { m with
          l1 := l1
          loaded := (slot, value) :: m.loaded
          events := m.events ++ [.read .registry slot value] })

/-! ## Execution -/

/-- Execution of code; `opening` holds in the outermost frame of the opening transaction, whose
caller is the zero address. An L1 error ends the whole attempt. -/
def run : Bool → Code W S → Machine W S → Except (L1StateError W) FrameEnd × Machine W S
  | _, .done result, m => (.ok result, m)
  | opening, .sload slot next, m =>
    match m.sload env slot with
    | .error e => (.error e, m)
    | .ok (value, m) => run opening (next value) m
  | opening, .sstore slot value next, m =>
    -- a write loads the slot first
    match m.sload env slot with
    | .error e => (.error e, m)
    | .ok (_, m) =>
      run opening next
        { m with journal := { m.journal with written := (slot, value) :: m.journal.written } }
  | opening, .setInfo info next, m =>
    run opening next { m with journal := { m.journal with registryInfo := info } }
  | opening, .readPortal slot next, m =>
    match loadPortal env m.l1 m.journal.tempo slot with
    | .error e => (.error e, m)
    | .ok (value, warm, l1) =>
      run opening (next value warm)
        { m with l1 := l1, events := m.events ++ [.read .portal slot value] }
  | opening, .finalizeTempo headers fault next, m =>
    if opening then
      match finalizeCheckpoints env.ctx fault ⟨m.journal.tempo, m.l1⟩ headers with
      | (.ok (), σ) =>
        run opening next { m with
          journal := { m.journal with tempo := σ.tempo }
          l1 := σ.l1
          events := m.events ++ [.imported σ.tempo.tempoBlockNumber] }
      | (.error (.l1State e), _) => (.error e, m)
      | (.error (.check _), _) => (.ok .revert, m)
      | (.error (.storage _), σ) => (.ok .halt, { m with l1 := σ.l1 })
    else (.ok .revert, m)
  | opening, .call body next, m =>
    match run false body m with
    | (.error e, m') => (.error e, m')
    | (.ok .success, m') => run opening (next .success) m'
    | (.ok result, m') => run opening (next result) { m' with journal := m.journal }
  | opening, .other update next, m =>
    run opening (next m.journal.other)
      { m with journal := { m.journal with other := update m.journal.other } }

/-! ## Attempts -/

/-- Entry points of the zone EVM; a simulation is a transaction whose transition is dropped. -/
inductive Entry where
  | transact
  | simulate
  | validatePool
  deriving DecidableEq

structure Attempt (W S : Type) where
  entry : Entry
  opening : Bool
  /-- Whether `validate_transaction` accepts it. -/
  valid : Bool
  code : Code W S

/-- The registry account in a transition; `loaded` has the original values of its slots. -/
structure RegistryAccount (W : Type) where
  originalInfo : ℕ
  info : ℕ
  loaded : List (W × W)
  written : List (W × W)

/-- State transition of an attempt, with the registry account if it was touched. -/
structure Transition (W S : Type) where
  tempo : TempoState W
  other : S
  registry : Option (RegistryAccount W)

inductive AttemptError (W : Type) where
  | invalid
  | l1State (error : L1StateError W)
  | l1Write
  deriving DecidableEq

def changedStorageSlots (loaded written : List (W × W)) : List W :=
  (loaded.map Prod.fst).filter fun slot =>
    decide ((written.lookup slot).getD ((loaded.lookup slot).getD 0) ≠ (loaded.lookup slot).getD 0)

def sanitizeState (t : Transition W S) : Except (AttemptError W) (Transition W S) :=
  match t.registry with
  | none => .ok t
  | some account =>
    if account.info ≠ account.originalInfo then .error .l1Write
    else if changedStorageSlots account.loaded account.written ≠ [] then .error .l1Write
    else .ok { t with registry := none }

/-- The transition that the code left. A reverted or halted attempt keeps the touched accounts with
their original values. -/
def transitionOf (db : ZoneDb W S) (result : FrameEnd) (m : Machine W S) : Transition W S :=
  let journal := if result = .success then m.journal else ⟨db.tempo, [], db.registryInfo, db.other⟩
  { tempo := journal.tempo
    other := journal.other
    registry := if m.loaded = [] ∧ journal.registryInfo = db.registryInfo then none
      else some ⟨db.registryInfo, journal.registryInfo, m.loaded, journal.written⟩ }

def startMachine (l1 : L1State W) : Machine W S :=
  ⟨⟨env.db.tempo, [], env.db.registryInfo, env.db.other⟩, [], l1, []⟩

/-- An attempt that ended: the transition if there is one, the L1 accesses, and the machine's end. -/
structure Ended (W S : Type) where
  result : Except (AttemptError W) (Option (Transition W S))
  events : List (L1Event W)

/-- `transact_raw`, `validate_pool_transaction` and their simulations, with `execute_and_sanitize`:
every execution resets the bookkeeping. -/
def executeAttempt (l1 : L1State W) (a : Attempt W S) : Ended W S × L1State W :=
  if a.valid = false then (⟨.error .invalid, []⟩, l1)
  else
    match run env a.opening a.code (startMachine env l1) with
    | (.error e, m) => (⟨.error (.l1State e), m.events⟩, m.l1.resetTransactionState)
    | (.ok result, m) =>
      match a.entry with
      | .validatePool => (⟨.ok none, m.events⟩, m.l1.resetTransactionState)
      | _ => (⟨(sanitizeState (transitionOf env.db result m)).map some, m.events⟩,
          m.l1.resetTransactionState)

/-- Commit of a transition; a registry account in it would overwrite local slots. -/
def ZoneDb.commit (db : ZoneDb W S) (t : Transition W S) : ZoneDb W S where
  tempo := t.tempo
  other := t.other
  registry := match t.registry with
    | none => db.registry
    | some account => fun slot =>
      (account.written.lookup slot).getD ((account.loaded.lookup slot).getD (db.registry slot))
  registryInfo := t.registry.elim db.registryInfo RegistryAccount.info

def ZoneDb.after (db : ZoneDb W S) (a : Attempt W S) (ended : Ended W S) : ZoneDb W S :=
  match a.entry, ended.result with
  | .transact, .ok (some t) => db.commit t
  | _, _ => db

/-- One attempt of a block with the states around it. -/
structure Performed (W S : Type) where
  before : ZoneDb W S
  attempt : Attempt W S
  ended : Ended W S
  after : ZoneDb W S

/-- All attempts of a block in order, with the bookkeeping carried from each to the next. -/
def runBlock (provider : L1Account → W → ℕ → Option W) (portalAddress : Address) (ctx : ZoneCtx W) :
    ZoneDb W S → L1State W → List (Attempt W S) → List (Performed W S) × ZoneDb W S × L1State W
  | db, l1, [] => ([], db, l1)
  | db, l1, a :: rest =>
    let (ended, l1) := executeAttempt ⟨provider, portalAddress, ctx, db⟩ l1 a
    let db' := db.after a ended
    let (later, last, l1) := runBlock provider portalAddress ctx db' l1 rest
    (⟨db, a, ended, db'⟩ :: later, last, l1)

end TempoZones.L1View
