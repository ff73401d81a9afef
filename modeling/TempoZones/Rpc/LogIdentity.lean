import Mathlib.Data.List.Flatten
import TempoZones.Rpc.LogScope

/-!
# Indices of returned logs

An answer covers some transactions, and of each the logs that pass its filter (`Covers`). Visibility
keeps some of them, and renumbering counts those of each transaction from zero, since they arrive
together (`Covers.indexed`). The index of a log is therefore its position among the kept logs of its
transaction, and depends on the filter.
-/

namespace TempoZones.Rpc

open Lib List LogOrderingRedactor

variable {W : Type}

/-! ## Positions -/

variable [DecidableEq W]

/-- What is listed for one key, when no key is listed twice. -/
theorem filter_flatMap_key {A B : Type} {key : A → W} {keyOf : B → W} {items : A → List B}
    (hitems : ∀ a, ∀ b ∈ items a, keyOf b = key a) {as : List A} (hnodup : (as.map key).Nodup)
    {a : A} (ha : a ∈ as) :
    (as.flatMap items).filter (fun b => decide (keyOf b = key a)) = items a := by
  have hothers : ∀ {part : List A}, key a ∉ part.map key →
      (part.flatMap items).filter (fun b => decide (keyOf b = key a)) = [] := by
    intro part habsent
    rw [filter_eq_nil_iff]
    intro b hb hsame
    obtain ⟨other, hother, hb⟩ := mem_flatMap.1 hb
    exact habsent (mem_map.2 ⟨other, hother, (hitems other b hb).symm.trans (of_decide_eq_true hsame)⟩)
  have hall : (items a).filter (fun b => decide (keyOf b = key a)) = items a :=
    filter_eq_self.2 fun b hb => decide_eq_true (hitems a b hb)
  obtain ⟨before, later, rfl⟩ := append_of_mem ha
  rw [map_append, map_cons, nodup_middle, nodup_cons, mem_append, not_or] at hnodup
  rw [flatMap_append, flatMap_cons, filter_append, filter_append, hall, hothers hnodup.1.1,
    hothers hnodup.1.2, nil_append, append_nil]

/-! ## Renumbering -/

/-- The transaction of a log and what the contract emitted. -/
def Log.entry (log : Log W) : W × RawLog W := (log.transactionHash, log.inner)

def Log.indexed (log : Log W) : (W × RawLog W) × ℕ := (log.entry, log.logIndex)

def Log.ofTx (t : W) (logs : List (Log W)) : List (Log W) :=
  logs.filter fun log => decide (log.transactionHash = t)

/-- Renumbering sees the entries only. -/
def LogOrderingRedactor.number (r : LogOrderingRedactor W) :
    List (W × RawLog W) → List ((W × RawLog W) × ℕ)
  | [] => []
  | e :: entries =>
    let index := if r.currentTx ≠ some e.1 then 0 else r.nextIndex
    (e, index) :: number ⟨some e.1, index + 1⟩ entries

theorem indexed_redactAll {logs : List (Log W)} : ∀ r : LogOrderingRedactor W,
    (r.redactAll logs).map Log.indexed = r.number (logs.map Log.entry) := by
  induction logs with
  | nil => exact fun _ => rfl
  | cons log logs ih =>
    intro r
    rw [redactAll, map_cons, map_cons, number, ih]
    rfl

/-- The logs of one transaction that follow each other get consecutive indices. -/
theorem number_run (t : W) (rest : List (W × RawLog W)) {raws : List (RawLog W)} :
    ∀ r : LogOrderingRedactor W, raws ≠ [] →
      let start := if r.currentTx ≠ some t then 0 else r.nextIndex
      r.number (raws.map (t, ·) ++ rest) = (raws.map (t, ·)).zipIdx start ++
        number ⟨some t, start + raws.length⟩ rest := by
  induction raws with
  | nil => exact fun _ hne => absurd rfl hne
  | cons raw raws ih =>
    intro r _ start
    cases raws with
    | nil => rfl
    | cons next raws =>
      rw [map_cons, cons_append, number, ih _ (cons_ne_nil _ _)]
      simp [start, Nat.add_assoc, Nat.add_comm, Nat.add_left_comm]

variable {F : Type}

/-- Transactions with different hashes are each numbered from zero. -/
theorem number_txs (kept : Tx W F → List (RawLog W)) {txs : List (Tx W F)} :
    ∀ r : LogOrderingRedactor W, (∀ tx ∈ txs, r.currentTx ≠ some tx.hash) →
      (txs.map Tx.hash).Nodup → r.number (txs.flatMap fun tx => (kept tx).map (tx.hash, ·)) =
        txs.flatMap fun tx => ((kept tx).map (tx.hash, ·)).zipIdx := by
  induction txs with
  | nil => exact fun _ _ _ => rfl
  | cons tx txs ih =>
    intro r hfresh hnodup
    obtain ⟨hne, hrest⟩ := forall_mem_cons.1 hfresh
    rw [map_cons, nodup_cons] at hnodup
    rw [flatMap_cons, flatMap_cons]
    by_cases hempty : kept tx = []
    · rw [hempty]
      exact ih r hrest hnodup.2
    · rw [number_run _ _ _ hempty, if_pos hne, ih _ ?_ hnodup.2]
      intro other hother hsame
      exact hnodup.1 (mem_map.2 ⟨other, hother, (Option.some.inj hsame).symm⟩)

/-! ## Answers -/

variable [EvmWord W] {lib : LogLib W} {caller : Address} {logs : List (Log W)}
  {txs : List (Tx W F)} {p : RawLog W → Bool}

/-- The logs are those of some of the transactions that pass `p`. -/
def Covers (txs : List (Tx W F)) (p : RawLog W → Bool) (logs : List (Log W)) : Prop :=
  ∃ part, part <+ txs ∧
    logs.map Log.entry = part.flatMap fun tx => (tx.logs.filter p).map (tx.hash, ·)

/-- Of each transaction, an answer holds all logs that are visible and pass, numbered from zero, or
none. -/
theorem Covers.indexed (hnodup : (txs.map Tx.hash).Nodup) (h : Covers txs p logs) {tx : Tx W F}
    (htx : tx ∈ txs) (hsome : Log.ofTx tx.hash (filterLogs lib logs caller) ≠ []) :
    (Log.ofTx tx.hash (filterLogs lib logs caller)).map (fun log => (log.inner, log.logIndex)) =
      (tx.logs.filter fun raw => isLogVisible lib raw caller && p raw).zipIdx := by
  obtain ⟨part, hpart, hlogs⟩ := h
  have hnodup' := hnodup.sublist (hpart.map _)
  let kept := fun tx : Tx W F => tx.logs.filter fun raw => isLogVisible lib raw caller && p raw
  have hindexed : (filterLogs lib logs caller).map Log.indexed =
      part.flatMap fun tx => ((kept tx).map (tx.hash, ·)).zipIdx := by
    have hvisible : (logs.filter fun log => isLogVisible lib log.inner caller).map Log.entry =
        part.flatMap fun tx => (kept tx).map (tx.hash, ·) := by
      have hfilter := congrArg (filter fun e => isLogVisible lib e.2 caller) hlogs
      simp only [filter_map, filter_flatMap, filter_filter, Function.comp_def] at hfilter
      exact hfilter
    rw [filterLogs, indexed_redactAll, hvisible]
    exact number_txs kept default (fun _ _ => (Option.some_ne_none _).symm) hnodup'
  have hitems : ∀ tx : Tx W F, ∀ e ∈ ((kept tx).map (tx.hash, ·)).zipIdx, e.1.1 = tx.hash := by
    intro tx e he
    obtain ⟨raw, -, hraw⟩ := mem_map.1 (fst_mem_of_mem_zipIdx he)
    rw [← hraw]
  have hofTx : (Log.ofTx tx.hash (filterLogs lib logs caller)).map Log.indexed =
      (part.flatMap fun tx => ((kept tx).map (tx.hash, ·)).zipIdx).filter
        fun e => decide (e.1.1 = tx.hash) := by
    rw [← hindexed, filter_map]
    rfl
  have hmem : tx ∈ part := by
    by_contra habsent
    refine hsome (map_eq_nil_iff.1 (hofTx.trans (filter_eq_nil_iff.2 ?_)))
    intro e he hsame
    obtain ⟨other, hother, he⟩ := mem_flatMap.1 he
    have hhash := (hitems other e he).symm.trans (of_decide_eq_true hsame)
    exact habsent (inj_on_of_nodup_map hnodup (hpart.subset hother) htx hhash ▸ hother)
  rw [filter_flatMap_key hitems hnodup' hmem] at hofTx
  have hpairs := congrArg (map fun e : (W × RawLog W) × ℕ => (e.1.2, e.2)) hofTx
  rw [map_map, zipIdx_map, map_map] at hpairs
  exact hpairs.trans (map_id _)

theorem entries_blocks (blocks : List (Block W F)) (removed : Bool) :
    ((blocks.flatMap (Block.logs · removed)).filter fun log => p log.inner).map Log.entry =
      (blocks.flatMap Block.transactions).flatMap
        fun tx => (tx.logs.filter p).map (tx.hash, ·) := by
  have hblock : ∀ b : Block W F, ((b.logs removed).filter fun log => p log.inner).map Log.entry =
      b.transactions.flatMap fun tx => (tx.logs.filter p).map (tx.hash, ·) := by
    intro b
    have hcore := congrArg (map Log.entry) (core_filter_logs b removed p)
    rw [map_map, map_map, filter_flatMap] at hcore
    simp only [filter_map] at hcore
    exact hcore.trans (map_id _)
  simp only [filter_flatMap, map_flatMap, hblock, flatMap_assoc]

theorem Backend.covers {backend : Backend W} {h : History W F} {f : Filter W}
    (hlogs : backend.logs h f = .ok logs) :
    Covers (h.blocks.flatMap Block.transactions) f.matches logs := by
  rw [Backend.logs, bind_ok_iff] at hlogs
  obtain ⟨selected, -, hlogs⟩ := hlogs
  split at hlogs
  · cases hlogs
  · cases hlogs
    refine ⟨_, (filter_sublist (p := fun b => selected b.at_)).flatMap _, ?_⟩
    rw [← entries_blocks _ false, filter_flatMap]
    simp only [matching, flatMap_map]

theorem receiptsFrom_entries {c : Coordinates W} {receipt : Receipt W F} :
    ∀ {txIndex start gas : ℕ}, receipt ∈ receiptsFrom lib c txIndex start gas txs →
      ∃ tx ∈ txs, receipt.logs.map Log.entry = tx.logs.map (tx.hash, ·) := by
  induction txs with
  | nil => nofun
  | cons tx txs ih =>
    intro txIndex start gas h
    rcases mem_cons.1 h with rfl | h
    · refine ⟨tx, mem_cons_self, ?_⟩
      have hcore := congrArg (map Log.entry) (core_placeAll c tx.hash txIndex false tx.logs start)
      rw [map_map, map_map] at hcore
      exact hcore
    · obtain ⟨other, hother, hlogs⟩ := ih h
      exact ⟨other, mem_cons_of_mem _ hother, hlogs⟩

/-- Requests whose answers hold logs. -/
inductive LogRequest (W F : Type) where
  | getLogs (zoneTokens : List Address) (f : Filter W)
  | getFilterLogs (f : Filter W)
  | getFilterChanges (next : ℕ) (f : Filter W)
  | transactionReceipt (hash : W)
  | subscribeLogs (stream : List (CanonState W F)) (zoneTokens : List Address) (f : Filter W)

namespace LogRequest

/-- The request is accepted and returns these logs. -/
def Answers (lib : LogLib W) (backend : Backend W) (h : History W F) (caller : Address)
    (logs : List (Log W)) : LogRequest W F → Prop
  | getLogs zoneTokens f => Rpc.getLogs lib backend h zoneTokens caller f = .ok logs
  | getFilterLogs f => Rpc.getFilterLogs lib backend h caller (.logs f) = .ok logs
  | getFilterChanges next f =>
    Rpc.getFilterChanges lib backend h caller next (.logs f) = .ok (.logs logs)
  | transactionReceipt hash =>
    (Rpc.transactionReceipt lib h caller hash).map Receipt.logs = some logs
  | subscribeLogs stream zoneTokens f => Rpc.subscribeLogs lib stream zoneTokens caller f = .ok logs

/-- The transactions that a request ranges over. -/
def transactions (h : History W F) : LogRequest W F → List (Tx W F)
  | subscribeLogs stream _ _ =>
    stream.flatMap fun n => (n.reverted ++ n.committed).flatMap Block.transactions
  | _ => h.blocks.flatMap Block.transactions

/-- A subscription sees no transaction twice: no announced block is reverted or announced again. -/
def Linear (h : History W F) (r : LogRequest W F) : Prop := ((r.transactions h).map Tx.hash).Nodup

/-- The filter of a request; a receipt holds all logs of its transaction. -/
def passes (lib : LogLib W) (caller : Address) (r : LogRequest W F) (raw : RawLog W) : Bool :=
  match r with
  | getLogs zoneTokens f | subscribeLogs _ zoneTokens f =>
    match scope lib zoneTokens caller f with
    | .ok f => f.matches raw
    | .error _ => false
  | getFilterLogs f | getFilterChanges _ f => f.matches raw
  | transactionReceipt _ => true

/-- The logs of a transaction that are visible and pass the filter, with their positions. -/
def kept (lib : LogLib W) (caller : Address) (r : LogRequest W F) (tx : Tx W F) :
    List (RawLog W × ℕ) :=
  tx.logs.zipIdx.filter fun e => isLogVisible lib e.1 caller && r.passes lib caller e.1

theorem Answers.covers {backend : Backend W} {h : History W F} {r : LogRequest W F}
    (hanswers : r.Answers lib backend h caller logs) :
    ∃ found, Covers (r.transactions h) (r.passes lib caller) found ∧ logs = filterLogs lib found caller := by
  cases r with
  | getLogs zoneTokens f =>
    simp only [Answers, Rpc.getLogs, ok_iff] at hanswers
    obtain ⟨f', hscope, found, hlogs, rfl⟩ := hanswers
    have hpasses : (getLogs zoneTokens f : LogRequest W F).passes lib caller = f'.matches := by
      funext raw
      simp only [passes, hscope]
    rw [hpasses]
    exact ⟨found, Backend.covers hlogs, rfl⟩
  | getFilterLogs f =>
    simp only [Answers, Rpc.getFilterLogs, ok_iff] at hanswers
    obtain ⟨found, hlogs, rfl⟩ := hanswers
    exact ⟨found, Backend.covers hlogs, rfl⟩
  | getFilterChanges next f =>
    simp only [Answers, Rpc.getFilterChanges, ok_iff, FilterChanges.logs.injEq] at hanswers
    obtain ⟨found, hlogs, rfl⟩ := hanswers
    have hcovers := Backend.covers hlogs
    exact ⟨found, hcovers, rfl⟩
  | transactionReceipt hash =>
    obtain ⟨receipt, hreceipt, rfl⟩ := Option.map_eq_some_iff.1 hanswers
    unfold Rpc.transactionReceipt at hreceipt
    split at hreceipt
    · cases hreceipt
    · next found hfound =>
      split at hreceipt
      · cases hreceipt
      · next hown =>
        cases hreceipt
        obtain ⟨b, hb, hmem⟩ := mem_flatMap.1 (mem_of_find?_eq_some hfound)
        obtain ⟨tx, htx, hlogs⟩ := receiptsFrom_entries hmem
        refine ⟨found.logs, ⟨[tx], ?_, ?_⟩, ?_⟩
        · exact singleton_sublist.2 (mem_flatMap.2 ⟨b, hb, htx⟩)
        · have hall : tx.logs.filter ((transactionReceipt hash : LogRequest W F).passes lib caller) =
              tx.logs := filter_eq_self.2 fun _ _ => rfl
          rw [hlogs, flatMap_singleton, hall]
        · rw [not_not] at hown
          rw [← hown]
          rfl
  | subscribeLogs stream zoneTokens f =>
    simp only [Answers, Rpc.subscribeLogs, ok_iff] at hanswers
    obtain ⟨f', hscope, rfl⟩ := hanswers
    have hpasses : (subscribeLogs stream zoneTokens f : LogRequest W F).passes lib caller =
        f'.matches := by
      funext raw
      simp only [passes, hscope]
    refine ⟨_, ⟨_, Sublist.refl _, ?_⟩, rfl⟩
    rw [hpasses, transactions, map_flatMap, flatMap_assoc]
    refine flatMap_congr fun n _ => ?_
    rw [CanonState.matching, filter_append, map_append, entries_blocks, entries_blocks,
      flatMap_append, flatMap_append]

/-- What an answer says of a transaction: the kept logs, numbered from zero. -/
theorem Answers.indexed {backend : Backend W} {h : History W F} {r : LogRequest W F}
    (hanswers : r.Answers lib backend h caller logs) (hlinear : r.Linear h) {tx : Tx W F}
    (htx : tx ∈ r.transactions h) (hsome : Log.ofTx tx.hash logs ≠ []) :
    (Log.ofTx tx.hash logs).map (fun log => (log.inner, log.logIndex)) =
      ((r.kept lib caller tx).map Prod.fst).zipIdx := by
  obtain ⟨found, hcovers, rfl⟩ := hanswers.covers
  rw [hcovers.indexed hlinear htx hsome]
  have hfilter := filter_map (f := Prod.fst) (l := tx.logs.zipIdx)
    (p := fun raw => isLogVisible lib raw caller && r.passes lib caller raw)
  rw [zipIdx_map_fst] at hfilter
  exact congrArg zipIdx hfilter

end LogRequest

end TempoZones.Rpc

namespace TempoZones.Example

open TempoZones.Lib TempoZones.Rpc

end TempoZones.Example
