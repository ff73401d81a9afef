import TempoZones.Lib.Evm

/-!
# Log queries of the redacted RPC

The privacy layer over the node's log queries (`rpc/src/filter.rs` and the log methods of
`node/src/rpc.rs`). The layer scopes the caller's filter, asks the node, keeps the logs that the
caller may see, and renumbers what is left.

The node's own log search is outside the repository. It returns the matching logs of the selected
blocks, in order, unless it refuses the query; the blocks depend on the coordinates of the chain's
blocks, and a refusal on the query and on how many logs match in each block.
-/

namespace TempoZones.Rpc

open Lib

variable {W : Type} [EvmWord W] [DecidableEq W] {F : Type}

/-! ## Logs -/

/-- A log as a contract emits it. -/
structure RawLog (W : Type) where
  address : Address
  topics : List W
  data : Bytes
  deriving DecidableEq

/-- A log with its place in the chain. -/
structure Log (W : Type) where
  inner : RawLog W
  blockHash : W
  blockNumber : ℕ
  blockTimestamp : ℕ
  transactionHash : W
  transactionIndex : ℕ
  logIndex : ℕ
  removed : Bool
  deriving DecidableEq

def eventTopic (signature : String) : W :=
  keccak256 [.raw (signature.toList.map fun c => UInt8.ofNat c.toNat)]

def TRANSFER_TOPIC : W := eventTopic "Transfer(address,address,uint256)"
def APPROVAL_TOPIC : W := eventTopic "Approval(address,address,uint256)"
def TRANSFER_WITH_MEMO_TOPIC : W := eventTopic "TransferWithMemo(address,address,uint256,bytes32)"
def MINT_TOPIC : W := eventTopic "Mint(address,uint256)"
def BURN_TOPIC : W := eventTopic "Burn(address,uint256)"
def TRANSFER_BLOCKED_TOPIC : W :=
  eventTopic "TransferBlocked(address,address,uint64,uint256,uint8,bytes)"

def WHITELISTED_TOPICS : List W :=
  [TRANSFER_TOPIC, APPROVAL_TOPIC, TRANSFER_WITH_MEMO_TOPIC, MINT_TOPIC, BURN_TOPIC,
    TRANSFER_BLOCKED_TOPIC]

def TWO_PARTY_TOPICS : List W :=
  [TRANSFER_TOPIC, APPROVAL_TOPIC, TRANSFER_WITH_MEMO_TOPIC, TRANSFER_BLOCKED_TOPIC]

def intoWord (a : Address) : W := EvmWord.ofNat a.val

/-- Parties of a decoded `TransferBlocked` log and its claim receipt. -/
structure BlockedTransfer where
  receiver : Address
  originator : Address
  recoveryAuthority : Address

/-- Surroundings of the layer: the address of the receive-policy guard, the decoding of its
`TransferBlocked` logs with the receipt inside, and the bloom filter of a list of logs. -/
structure LogLib (W : Type) where
  guard : Address
  decodeTransferBlocked : RawLog W → Option BlockedTransfer
  bloom : List (RawLog W) → Bytes

variable (lib : LogLib W)

/-- Whether the caller is a stakeholder in a `TransferBlocked` log of the guard. -/
def isTransferBlockedCallerEligible (log : RawLog W) (caller : Address) : Bool :=
  if log.address ≠ lib.guard then false
  else
    match lib.decodeTransferBlocked log with
    | none => false
    | some event =>
      caller = event.receiver || caller = event.originator ||
        (event.recoveryAuthority ≠ 0 && caller = event.recoveryAuthority)

/-- Whether `caller` appears in an eligible indexed-topic position for the log's event type. -/
def isCallerEligible (log : RawLog W) (caller : Address) : Bool :=
  match log.topics[0]? with
  | none => false
  | some topic0 =>
    if topic0 = TRANSFER_BLOCKED_TOPIC then isTransferBlockedCallerEligible lib log caller
    else if topic0 = TRANSFER_TOPIC ∨ topic0 = APPROVAL_TOPIC ∨ topic0 = TRANSFER_WITH_MEMO_TOPIC
    then log.topics[1]? = some (intoWord caller) || log.topics[2]? = some (intoWord caller)
    else if topic0 = MINT_TOPIC ∨ topic0 = BURN_TOPIC then log.topics[1]? = some (intoWord caller)
    else false

def isLogVisible (log : RawLog W) (caller : Address) : Bool :=
  (log.topics[0]?.elim false fun topic0 => decide (topic0 ∈ (WHITELISTED_TOPICS : List W))) &&
    isCallerEligible lib log caller

/-! ## Renumbering -/

/-- State of the renumbering: the transaction of the last log and the next index in it. -/
structure LogOrderingRedactor (W : Type) where
  currentTx : Option W
  nextIndex : ℕ

def LogOrderingRedactor.default : LogOrderingRedactor W := ⟨none, 0⟩

def LogOrderingRedactor.redact (r : LogOrderingRedactor W) (log : Log W) :
    LogOrderingRedactor W × Log W :=
  let index := if r.currentTx ≠ some log.transactionHash then 0 else r.nextIndex
  (⟨some log.transactionHash, index + 1⟩, { log with transactionIndex := 0, logIndex := index })

def LogOrderingRedactor.redactAll (r : LogOrderingRedactor W) : List (Log W) → List (Log W)
  | [] => []
  | log :: logs => (r.redact log).2 :: (r.redact log).1.redactAll logs

def filterLogs (logs : List (Log W)) (caller : Address) : List (Log W) :=
  LogOrderingRedactor.default.redactAll (logs.filter fun log => isLogVisible lib log.inner caller)

/-- A receipt as the RPC returns it; `other` stands for the fields that the layer passes on. -/
structure Receipt (W F : Type) where
  «from» : Address
  transactionHash : W
  transactionIndex : ℕ
  blockHash : W
  blockNumber : ℕ
  gasUsed : ℕ
  cumulativeGasUsed : ℕ
  logs : List (Log W)
  logsBloom : Bytes
  other : F

def filterReceiptLogs (receipt : Receipt W F) : Receipt W F :=
  let logs := filterLogs lib receipt.logs receipt.from
  { receipt with
    transactionIndex := 0
    cumulativeGasUsed := receipt.gasUsed
    logs := logs
    logsBloom := lib.bloom (logs.map Log.inner) }

/-! ## Filters -/

/-- Number, hash and timestamp of a block. -/
structure Coordinates (W : Type) where
  number : ℕ
  hash : W
  timestamp : ℕ
  deriving DecidableEq

inductive RpcError where
  | invalidFilterAddress
  | callerScopedFilter
  | filterNotFound
  | internal (code : ℕ)
  deriving DecidableEq

/-- The blocks that a filter selects among those of the chain, or the refusal of its range. -/
abbrev BlockSelector (W : Type) := List (Coordinates W) → Except RpcError (Coordinates W → Bool)

structure Filter (W : Type) where
  blocks : BlockSelector W
  address : List Address
  topics0 : List W
  topics1 : List W
  topics2 : List W
  topics3 : List W

def matchesTopic (wanted : List W) (topic : Option W) : Bool :=
  wanted.isEmpty || topic.elim false fun t => decide (t ∈ wanted)

def Filter.matches (f : Filter W) (log : RawLog W) : Bool :=
  (f.address.isEmpty || decide (log.address ∈ f.address)) &&
    matchesTopic f.topics0 log.topics[0]? && matchesTopic f.topics1 log.topics[1]? &&
    matchesTopic f.topics2 log.topics[2]? && matchesTopic f.topics3 log.topics[3]?

def scopeFilterAddresses (f : Filter W) (zoneTokens : List Address) :
    Except RpcError (Filter W) :=
  if f.address = [] then .ok { f with address := zoneTokens ++ [lib.guard] }
  else if ∀ a ∈ f.address, a ∈ zoneTokens ∨ a = lib.guard then .ok f
  else .error .invalidFilterAddress

/-- Scope a filter to whitelisted event topics; a topic that matches nothing stands in for an empty
intersection. -/
def scopeFilter (f : Filter W) : Filter W :=
  let allowed := if f.topics0 = [] then WHITELISTED_TOPICS
    else f.topics0.filter fun t => decide (t ∈ (WHITELISTED_TOPICS : List W))
  { f with topics0 := if allowed = [] then [0] else allowed }

/-- Scope a filter to whitelisted event topics and to the caller in an eligible position. -/
def scopeFilterForCaller (f : Filter W) (caller : Address) : Except RpcError (Filter W) :=
  let f := scopeFilter f
  let single := f.topics0.filter fun t => decide (t ≠ TRANSFER_BLOCKED_TOPIC)
  let pair := f.topics0.filter fun t => decide (t ∈ (TWO_PARTY_TOPICS : List W))
  if f.topics0 = [0] then .ok f
  else if intoWord caller ∈ f.topics1 ∧ single ≠ [] then
    .ok { f with topics0 := single, topics1 := [intoWord caller] }
  else if intoWord caller ∈ f.topics2 ∧ pair ≠ [] then
    .ok { f with topics0 := pair, topics2 := [intoWord caller] }
  else .error .callerScopedFilter

def scope (zoneTokens : List Address) (caller : Address) (f : Filter W) :
    Except RpcError (Filter W) := do
  let f ← scopeFilterAddresses lib f zoneTokens
  scopeFilterForCaller f caller

/-! ## The chain and the node's search -/

/-- A transaction with what its execution left. -/
structure Tx (W F : Type) where
  hash : W
  sender : Address
  gasUsed : ℕ
  other : F
  logs : List (RawLog W)

structure Block (W F : Type) where
  at_ : Coordinates W
  transactions : List (Tx W F)

def Coordinates.place (c : Coordinates W) (txHash : W) (txIndex logIndex : ℕ) (removed : Bool)
    (raw : RawLog W) : Log W where
  inner := raw
  blockHash := c.hash
  blockNumber := c.number
  blockTimestamp := c.timestamp
  transactionHash := txHash
  transactionIndex := txIndex
  logIndex := logIndex
  removed := removed

/-- Logs of one transaction, the first at position `start` in its block. -/
def Coordinates.placeAll (c : Coordinates W) (txHash : W) (txIndex : ℕ) (removed : Bool) :
    ℕ → List (RawLog W) → List (Log W)
  | _, [] => []
  | start, raw :: rest =>
    c.place txHash txIndex start removed raw :: c.placeAll txHash txIndex removed (start + 1) rest

def logsFrom (c : Coordinates W) (removed : Bool) : ℕ → ℕ → List (Tx W F) → List (Log W)
  | _, _, [] => []
  | txIndex, start, tx :: rest =>
    c.placeAll tx.hash txIndex removed start tx.logs ++
      logsFrom c removed (txIndex + 1) (start + tx.logs.length) rest

def Block.logs (b : Block W F) (removed : Bool) : List (Log W) :=
  logsFrom b.at_ removed 0 0 b.transactions

def receiptsFrom (c : Coordinates W) : ℕ → ℕ → ℕ → List (Tx W F) → List (Receipt W F)
  | _, _, _, [] => []
  | txIndex, start, gas, tx :: rest =>
    { «from» := tx.sender
      transactionHash := tx.hash
      transactionIndex := txIndex
      blockHash := c.hash
      blockNumber := c.number
      gasUsed := tx.gasUsed
      cumulativeGasUsed := gas + tx.gasUsed
      logs := c.placeAll tx.hash txIndex false start tx.logs
      logsBloom := lib.bloom tx.logs
      other := tx.other } ::
      receiptsFrom c (txIndex + 1) (start + tx.logs.length) (gas + tx.gasUsed) rest

def Block.receipts (b : Block W F) : List (Receipt W F) := receiptsFrom lib b.at_ 0 0 0 b.transactions

/-- A chain; no two of its transactions have the same hash. -/
structure History (W F : Type) where
  blocks : List (Block W F)
  distinct : ((blocks.flatMap Block.transactions).map Tx.hash).Nodup

/-- What the node's search decides on its own: whether it refuses a query by the logs that match in
each block, and which blocks a poll of a filter covers. -/
structure Backend (W : Type) where
  refuses : List (Coordinates W × ℕ) → Option RpcError
  changes : ℕ → BlockSelector W → BlockSelector W

variable (backend : Backend W)

def matching (h : History W F) (f : Filter W) (selected : Coordinates W → Bool) :
    List (Coordinates W × List (Log W)) :=
  (h.blocks.filter fun b => selected b.at_).map fun b =>
    (b.at_, (b.logs false).filter fun log => f.matches log.inner)

def Backend.logs (h : History W F) (f : Filter W) : Except RpcError (List (Log W)) := do
  let selected ← f.blocks (h.blocks.map Block.at_)
  match backend.refuses ((matching h f selected).map fun m => (m.1, m.2.length)) with
  | some e => .error e
  | none => .ok ((matching h f selected).flatMap Prod.snd)

/-! ## Queries -/

/-- `eth_getLogs`. -/
def getLogs (h : History W F) (zoneTokens : List Address) (caller : Address) (f : Filter W) :
    Except RpcError (List (Log W)) := do
  let f ← scope lib zoneTokens caller f
  let logs ← backend.logs h f
  pure (filterLogs lib logs caller)

inductive FilterKind (W : Type) where
  | logs (f : Filter W)
  | blocks

inductive FilterChanges (W : Type) where
  | logs (logs : List (Log W))
  | hashes (hashes : List W)

/-- `eth_getFilterLogs`, once the filter is known to be the caller's. -/
def getFilterLogs (h : History W F) (caller : Address) :
    FilterKind W → Except RpcError (List (Log W))
  | .blocks => .error .filterNotFound
  | .logs f => do
      let logs ← backend.logs h f
      pure (filterLogs lib logs caller)

/-- `eth_getFilterChanges`, once the filter is known to be the caller's; `next` is the first block
that no earlier poll has covered. -/
def getFilterChanges (h : History W F) (caller : Address) (next : ℕ) :
    FilterKind W → Except RpcError (FilterChanges W)
  | .blocks => do
      let selected ← backend.changes next (fun _ => .ok fun _ => true) (h.blocks.map Block.at_)
      pure (.hashes (((h.blocks.map Block.at_).filter selected).map Coordinates.hash))
  | .logs f => do
      let logs ← backend.logs h { f with blocks := backend.changes next f.blocks }
      pure (.logs (filterLogs lib logs caller))

/-- `eth_getTransactionReceipt`: `none` for a transaction that is not known or not the caller's. -/
def transactionReceipt (h : History W F) (caller : Address) (hash : W) : Option (Receipt W F) :=
  match (h.blocks.flatMap (Block.receipts lib)).find? fun r => decide (r.transactionHash = hash) with
  | none => none
  | some receipt => if receipt.from ≠ caller then none else some (filterReceiptLogs lib receipt)

/-- A canonical-state notification: the blocks that left the chain and those that joined it. -/
structure CanonState (W F : Type) where
  reverted : List (Block W F)
  committed : List (Block W F)

def CanonState.matching (f : Filter W) (n : CanonState W F) : List (Log W) :=
  (n.reverted.flatMap (Block.logs · true) ++ n.committed.flatMap (Block.logs · false)).filter
    fun log => f.matches log.inner

def subscribeLogs (stream : List (CanonState W F)) (zoneTokens : List Address) (caller : Address)
    (f : Filter W) : Except RpcError (List (Log W)) := do
  let f ← scope lib zoneTokens caller f
  pure (filterLogs lib (stream.flatMap (CanonState.matching f)) caller)

end TempoZones.Rpc
