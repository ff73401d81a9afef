import TempoZones.Lib.Evm
import TempoZones.Lib.SortedMap

/-!
# Gap tracking of a follower

A follower imports live and backfilled blocks in order. Blocks above its head wait in a buffer of
`MAX_PENDING_BLOCKS` entries; `BackfillProgress` says whether missing blocks have to be requested.
What the validation and the execution engine say about a block is an answer per event
(`ImportAnswer`). `Tracks` is the invariant: when no backfill is marked as needed, the head has
reached every height seen or announced, and nothing is buffered beyond a gap.
-/

namespace TempoZones.Follower

open Lib SortedMap List Option

def MAX_PENDING_BLOCKS : ℕ := 128

/-- A peer block with its provenance and content `B`; heights have 64 bits. -/
structure PeerBlock (B : Type) where
  number : ℕ
  content : B
  fits : number < 2 ^ 64

/-! ## Progress and buffer -/

structure BackfillProgress where
  targetTip : Option ℕ := none
  receivedCompletion : Bool := false
  needed : Bool := true

namespace BackfillProgress

def gap (best : ℕ) (firstPending : Option ℕ) : Bool :=
  firstPending.any (saturatingAdd best 1 < ·)

def observeBlock (p : BackfillProgress) (number best : ℕ) : BackfillProgress :=
  { p with
    targetTip := some (p.targetTip.elim number (max · number))
    needed := p.needed || decide (saturatingAdd best 1 < number) }

def refreshAfterImport (p : BackfillProgress) (best : ℕ) (firstPending : Option ℕ) :
    BackfillProgress :=
  { p with needed := !p.receivedCompletion || p.targetTip.any (best < ·) || gap best firstPending }

def complete (p : BackfillProgress) (tip best : ℕ) (firstPending : Option ℕ) : BackfillProgress :=
  let target := p.targetTip.elim tip (max · tip)
  ⟨some target, true, decide (best < target) || gap best firstPending⟩

def request (p : BackfillProgress) (best : ℕ) : Option ℕ :=
  if p.needed then some (saturatingAdd best 1) else none

end BackfillProgress

open BackfillProgress

variable {B : Type}

abbrev PendingBlocks (B : Type) := SortedMap ℕ (PeerBlock B)

namespace PendingBlocks

/-- `insert`: the buffer and the height that was dropped. -/
def insert (m : PendingBlocks B) (block : PeerBlock B) : PendingBlocks B × Option ℕ :=
  if (m.get? block.number).isSome then (m, none)
  else if m.length < MAX_PENDING_BLOCKS then (SortedMap.insert block.number block m, none)
  else
    match m.last? with
    | none => (SortedMap.insert block.number block m, none)
    | some (farthest, _) =>
      if block.number < farthest then
        (SortedMap.insert block.number block (m.erase farthest), some farthest)
      else (m, some block.number)

def firstNumber (m : PendingBlocks B) : Option ℕ := m.first?.map Prod.fst

theorem insert_spec (m : PendingBlocks B) (block : PeerBlock B) (h : m.length ≤ MAX_PENDING_BLOCKS) :
    (insert m block).1.length ≤ MAX_PENDING_BLOCKS ∧
    (∀ k, (insert m block).1.get? k = if (insert m block).2 = some k then none
      else if k = block.number then (m.get? k).or (some block) else m.get? k) ∧
    ∀ d, (insert m block).2 = some d → m.length = MAX_PENDING_BLOCKS ∧
      ∀ k b, (insert m block).1.get? k = some b → k < d := by
  cases hget : m.get? block.number with
  | some b =>
    -- a block is already kept at this height
    simp only [insert, hget, isSome_some, if_true]
    refine ⟨h, fun k => ?_, nofun⟩
    by_cases hk : k = block.number <;> simp [hk, hget]
  | none =>
    simp only [insert, hget, isSome_none, Bool.false_eq_true, if_false]
    split
    case isTrue hlt =>
      refine ⟨(length_insert_le _ _ _).trans hlt, fun k => ?_, nofun⟩
      by_cases hk : k = block.number <;> simp [get_insert, hk, hget]
    case isFalse hfull =>
      have hlength : m.length = MAX_PENDING_BLOCKS := Nat.le_antisymm h (Nat.le_of_not_lt hfull)
      cases hlast : m.last? with
      | none =>
        have hnil : m.entries = [] := getLast?_eq_none_iff.1 hlast
        simp [SortedMap.length, hnil, MAX_PENDING_BLOCKS] at hlength
      | some e =>
        obtain ⟨farthest, b⟩ := e
        obtain ⟨hmem, hmax⟩ := last_eq_some_iff.1 hlast
        have hbelow : ∀ k b, m.get? k = some b → k ≤ farthest := fun k b hk =>
          hmax (k, b) (get_eq_some_iff.1 hk)
        dsimp only
        split
        case isTrue hlt =>
          -- the farthest block makes room for a nearer one
          have hshorter := length_erase_lt (get_eq_some_iff.2 hmem)
          refine ⟨(length_insert_le _ _ _).trans (by omega), fun k => ?_, ?_⟩
          · simp only [get_insert, get_erase, some.injEq]
            by_cases hk : k = block.number
            · simp [hk, hget, hlt.ne']
            by_cases hf : k = farthest
            · simp [hf, hlt.ne']
            · simp [hk, hf, Ne.symm hf]
          rintro d ⟨⟩
          refine ⟨hlength, fun k b hk => ?_⟩
          simp only [get_insert, get_erase] at hk
          split at hk
          case isTrue heq => exact heq ▸ hlt
          case isFalse =>
            split at hk
            case isTrue => cases hk
            case isFalse hne => exact Nat.lt_of_le_of_ne (hbelow k b hk) hne
        case isFalse hge =>
          -- the new block is itself the farthest and is dropped
          refine ⟨h, fun k => ?_, ?_⟩
          · by_cases hk : k = block.number
            · simp [hk, hget]
            · simp [hk, Ne.symm hk]
          rintro d ⟨⟩
          refine ⟨hlength, fun k b hk => Nat.lt_of_le_of_ne ?_ fun heq => ?_⟩
          · exact (hbelow k b hk).trans (Nat.le_of_not_lt hge)
          · rw [heq, hget] at hk
            cases hk

end PendingBlocks

open PendingBlocks

/-! ## The import loop -/

/-- What the rest of `import_peer_block` makes of a block: an outcome, an error before the block is
canonical, or an error after it (the queue cannot follow). A duplicate is known or conflicts. -/
inductive ImportAnswer
  | imported
  | timedOut
  | cancelled
  | rejected
  | rejectedCanonical
  deriving DecidableEq

inductive PeerBlockImportOutcome
  | imported
  | timedOut
  | cancelled

/-- A follower; `imports` are the blocks it made canonical and `requests` the first heights of the
backfills it asked for. -/
structure FollowerBlockSync (B : Type) where
  best : ℕ
  pending : PendingBlocks B := ∅
  backfill : BackfillProgress := {}
  imports : List (PeerBlock B) := []
  requests : List ℕ := []

namespace FollowerBlockSync

def importPeerBlock (s : FollowerBlockSync B) (block : PeerBlock B) (answer : ImportAnswer) :
    FollowerBlockSync B × Option PeerBlockImportOutcome :=
  let canonical := { s with best := block.number, imports := s.imports ++ [block] }
  if block.number ≤ s.best then (s, if answer = .imported then some .imported else none)
  else if block.number ≠ saturatingAdd s.best 1 then (s, none)
  else
    match answer with
    | .imported => (canonical, some .imported)
    | .timedOut => (s, some .timedOut)
    | .cancelled => (s, some .cancelled)
    | .rejected => (s, none)
    | .rejectedCanonical => (canonical, none)

theorem importPeerBlock_pending (s : FollowerBlockSync B) (block : PeerBlock B)
    (answer : ImportAnswer) : (s.importPeerBlock block answer).1.pending = s.pending := by
  unfold importPeerBlock
  dsimp only
  repeat' split
  all_goals rfl

/-- `import_pending_blocks`. Outcomes of single blocks are discarded, errors end the loop. -/
def importPendingBlocks (answer : PeerBlock B → ImportAnswer) (s : FollowerBlockSync B) :
    FollowerBlockSync B × Option PeerBlockImportOutcome :=
  match hnext : s.pending.get? (saturatingAdd s.best 1) with
  | none => (s, some .imported)
  | some block =>
    let taken := { s with pending := s.pending.erase (saturatingAdd s.best 1) }
    let result := taken.importPeerBlock block (answer block)
    if result.2.isSome then importPendingBlocks answer result.1 else result
termination_by s.pending.length
decreasing_by
  rw [importPeerBlock_pending]
  exact length_erase_lt hnext

theorem importPendingBlocks_none {answer : PeerBlock B → ImportAnswer} {s : FollowerBlockSync B}
    (h : s.pending.get? (saturatingAdd s.best 1) = none) :
    s.importPendingBlocks answer = (s, some .imported) := by
  rw [importPendingBlocks]
  split
  case h_1 => rfl
  case h_2 hnext => rw [h] at hnext; cases hnext

theorem importPendingBlocks_some {answer : PeerBlock B → ImportAnswer} {s : FollowerBlockSync B}
    {block : PeerBlock B} (h : s.pending.get? (saturatingAdd s.best 1) = some block) :
    s.importPendingBlocks answer =
      let taken := { s with pending := s.pending.erase (saturatingAdd s.best 1) }
      let result := taken.importPeerBlock block (answer block)
      if result.2.isSome then result.1.importPendingBlocks answer else result := by
  rw [importPendingBlocks]
  split
  case h_1 hnext => rw [h] at hnext; cases hnext
  case h_2 hnext => cases h.symm.trans hnext; rfl

def processFollowerBlock (s : FollowerBlockSync B) (block : PeerBlock B)
    (answer : PeerBlock B → ImportAnswer) : FollowerBlockSync B :=
  if block.number ≤ s.best then (s.importPeerBlock block (answer block)).1
  else
    let observed := { s with
      backfill := s.backfill.observeBlock block.number s.best
      pending := (insert s.pending block).1 }
    let (s', outcome) := observed.importPendingBlocks answer
    match outcome with
    | some .cancelled => s'
    | some .timedOut | none => { s' with backfill.needed := true }
    | some .imported =>
      { s' with backfill := s'.backfill.refreshAfterImport s'.best (firstNumber s'.pending) }

inductive Event (B : Type)
  | block (block : PeerBlock B) (answer : PeerBlock B → ImportAnswer)
  | completed (tip : ℕ)
  | retry
  | inactivity

def Event.height : Event B → Option ℕ
  | .block b _ => some b.number
  | .completed tip => some tip
  | _ => none

def handle (s : FollowerBlockSync B) : Event B → FollowerBlockSync B
  | .block block answer => s.processFollowerBlock block answer
  | .completed tip =>
    { s with backfill := s.backfill.complete tip s.best (firstNumber s.pending) }
  | .retry => { s with requests := s.requests ++ (s.backfill.request s.best).toList }
  | .inactivity =>
    if s.backfill.needed then s
    else { s with backfill.needed := true, requests := s.requests ++ [saturatingAdd s.best 1] }

/-! ## The invariant -/

/-- Head and buffer: the blocks imported are consecutive, and what is buffered lies above the head
under its own height. -/
structure Ordered (best₀ : ℕ) (s : FollowerBlockSync B) : Prop where
  start_le : best₀ ≤ s.best
  imports : s.imports.map (·.number) = range' (best₀ + 1) (s.best - best₀)
  pending : ∀ k b, s.pending.get? k = some b → b.number = k ∧ s.best < k
  room : s.pending.length ≤ MAX_PENDING_BLOCKS

structure Tracks (best₀ : ℕ) (seen : List ℕ) (s : FollowerBlockSync B) : Prop
    extends Ordered best₀ s where
  target : ∀ n ∈ seen, n ≤ s.best ∨ ∃ tip ∈ s.backfill.targetTip, n ≤ tip
  caughtUp : s.backfill.needed = false → (∀ tip ∈ s.backfill.targetTip, tip ≤ s.best) ∧
    gap s.best (firstNumber s.pending) = false

variable {best₀ : ℕ} {seen : List ℕ} {s : FollowerBlockSync B}

theorem saturatingAdd_one_of_lt {a b : ℕ} (h : a < b) (hb : b < 2 ^ 64) : saturatingAdd a 1 = a + 1 := by
  unfold saturatingAdd
  omega

theorem Ordered.importPeerBlock (h : Ordered best₀ s) {block : PeerBlock B}
    (hnext : ∀ b, s.pending.get? block.number ≠ some b) (answer : ImportAnswer) :
    Ordered best₀ (s.importPeerBlock block answer).1 := by
  have hcanonical : block.number = s.best + 1 →
      Ordered best₀ { s with best := block.number, imports := s.imports ++ [block] } := fun hnumber => by
    have hstart := h.start_le
    refine ⟨by dsimp only; omega, ?_, fun k b hk => ⟨(h.pending k b hk).1, ?_⟩, h.room⟩
    · have hcount : block.number - best₀ = s.best - best₀ + 1 := by omega
      rw [map_append, h.imports, hcount, range'_1_concat]
      simp only [map_cons, map_nil, hnumber]
      congr 2
      omega
    have hlt := (h.pending k b hk).2
    have hne : k ≠ block.number := fun heq => hnext b (heq ▸ hk)
    dsimp only
    omega
  unfold FollowerBlockSync.importPeerBlock
  dsimp only
  split
  case isTrue => exact h
  case isFalse hlt =>
    split
    case isTrue => exact h
    case isFalse heq =>
      have hnumber : block.number = s.best + 1 :=
        (not_not.1 heq).trans (saturatingAdd_one_of_lt (Nat.lt_of_not_le hlt) block.fits)
      cases answer with
      | imported | rejectedCanonical => exact hcanonical hnumber
      | timedOut | cancelled | rejected => exact h

theorem importPeerBlock_backfill (s : FollowerBlockSync B) (block : PeerBlock B)
    (answer : ImportAnswer) : (s.importPeerBlock block answer).1.backfill = s.backfill ∧
      s.best ≤ (s.importPeerBlock block answer).1.best := by
  unfold FollowerBlockSync.importPeerBlock
  dsimp only
  split
  · exact ⟨rfl, Nat.le_refl _⟩
  split
  · exact ⟨rfl, Nat.le_refl _⟩
  · cases answer <;> exact ⟨rfl, by dsimp only; omega⟩

theorem Ordered.importPendingBlocks (answer : PeerBlock B → ImportAnswer) (h : Ordered best₀ s) :
    Ordered best₀ (s.importPendingBlocks answer).1 ∧
      (s.importPendingBlocks answer).1.backfill = s.backfill ∧
      s.best ≤ (s.importPendingBlocks answer).1.best ∧
      ((s.importPendingBlocks answer).2 = none ∨
        (s.importPendingBlocks answer).2 = some .imported) := by
  induction hn : s.pending.length using Nat.strong_induction_on generalizing s with
  | _ n ih =>
    cases hnext : s.pending.get? (saturatingAdd s.best 1) with
    | none =>
      rw [importPendingBlocks_none hnext]
      exact ⟨h, rfl, Nat.le_refl _, .inr rfl⟩
    | some block =>
      rw [importPendingBlocks_some hnext]
      dsimp only
      generalize htaken : ({ s with pending := s.pending.erase (saturatingAdd s.best 1) } :
        FollowerBlockSync B) = taken
      have hlt : taken.pending.length < n := by
        rw [← htaken, ← hn]
        exact length_erase_lt hnext
      have hget : ∀ k, taken.pending.get? k =
          if k = saturatingAdd s.best 1 then none else s.pending.get? k := fun k => by
        rw [← htaken]
        exact get_erase _ _ k
      have hordered : Ordered best₀ taken := by
        refine ⟨htaken ▸ h.start_le, htaken ▸ h.imports, fun k b hk => ?_, ?_⟩
        · rw [hget] at hk
          split at hk
          case isTrue => cases hk
          case isFalse => exact htaken ▸ h.pending k b hk
        · exact (hlt.trans_eq hn.symm).le.trans h.room
      have hnumber := (h.pending _ _ hnext).1
      have himport := hordered.importPeerBlock
        (fun b hb => by rw [hget, hnumber, if_pos rfl] at hb; cases hb) (answer block)
      have hframe := importPeerBlock_backfill taken block (answer block)
      have hsame : taken.backfill = s.backfill ∧ taken.best = s.best := htaken ▸ ⟨rfl, rfl⟩
      rw [hsame.1, hsame.2] at hframe
      split
      case isTrue =>
        obtain ⟨h₁, h₂, h₃, h₄⟩ := ih _ (by rw [importPeerBlock_pending]; exact hlt) himport rfl
        exact ⟨h₁, h₂.trans hframe.1, hframe.2.trans h₃, h₄⟩
      case isFalse hnone =>
        exact ⟨himport, hframe.1, hframe.2, .inl (not_isSome_iff_eq_none.1 hnone)⟩

theorem target_raised {target : Option ℕ} {best m : ℕ}
    (h : ∀ n ∈ seen, n ≤ best ∨ ∃ tip ∈ target, n ≤ tip) :
    ∀ n ∈ seen ++ [m], n ≤ best ∨ ∃ tip ∈ some (target.elim m (max · m)), n ≤ tip := by
  intro n hn
  rcases mem_append.1 hn with hn | hn
  · refine (h n hn).imp_right ?_
    rintro ⟨tip, rfl, hn⟩
    exact ⟨_, rfl, hn.trans (Nat.le_max_left _ _)⟩
  rw [mem_singleton.1 hn]
  refine .inr ⟨_, rfl, ?_⟩
  cases target <;> simp

theorem Tracks.handle (h : Tracks best₀ seen s) (e : Event B) :
    Tracks best₀ (seen ++ e.height.toList) (s.handle e) := by
  cases e with
  | block block answer =>
    simp only [FollowerBlockSync.handle, processFollowerBlock]
    split
    case isTrue hle =>
      -- a duplicate or conflicting block moves nothing
      have hsame : (s.importPeerBlock block (answer block)).1 = s := by
        simp [FollowerBlockSync.importPeerBlock, hle]
      rw [hsame]
      refine ⟨h.toOrdered, fun n hn => ?_, h.caughtUp⟩
      rcases mem_append.1 hn with hn | hn
      · exact h.target n hn
      · exact .inl ((mem_singleton.1 hn).trans_le hle)
    case isFalse hlt =>
      obtain ⟨hlength, hget, -⟩ := insert_spec s.pending block h.room
      have hobserved : Ordered best₀ { s with
          backfill := s.backfill.observeBlock block.number s.best
          pending := (insert s.pending block).1 } := by
        refine ⟨h.start_le, h.imports, fun k b hk => ?_, hlength⟩
        rw [hget] at hk
        split at hk
        case isTrue => cases hk
        split at hk
        case isTrue hk' =>
          rcases or_eq_some_iff.1 hk with hk | ⟨-, hk⟩
          · exact h.pending k b hk
          · cases hk
            exact ⟨hk'.symm, by rw [hk']; exact Nat.lt_of_not_le hlt⟩
        case isFalse => exact h.pending k b hk
      obtain ⟨hordered, hbackfill, hbest, houtcome⟩ := hobserved.importPendingBlocks answer
      generalize FollowerBlockSync.importPendingBlocks answer _ = result at *
      have htarget := target_raised (m := block.number) fun n hn =>
        (h.target n hn).imp_left (·.trans hbest)
      have htip : result.1.backfill.targetTip =
          some (s.backfill.targetTip.elim block.number (max · block.number)) :=
        congrArg (·.targetTip) hbackfill
      rw [← htip] at htarget
      rcases houtcome with houtcome | houtcome <;> rw [houtcome]
      · exact ⟨⟨hordered.start_le, hordered.imports, hordered.pending, hordered.room⟩, htarget,
          nofun⟩
      · refine ⟨⟨hordered.start_le, hordered.imports, hordered.pending, hordered.room⟩, htarget,
          fun hneeded => ?_⟩
        simp only [refreshAfterImport, Bool.or_eq_false_iff, Option.any_eq_false,
          decide_eq_false_iff_not, not_lt] at hneeded
        exact ⟨hneeded.1.2, hneeded.2⟩
  | completed tip =>
    refine ⟨⟨h.start_le, h.imports, h.pending, h.room⟩, target_raised h.target, fun hneeded => ?_⟩
    simp only [FollowerBlockSync.handle, complete, Bool.or_eq_false_iff,
      decide_eq_false_iff_not, not_lt] at hneeded ⊢
    exact ⟨fun _ htip => mem_some_iff.1 htip ▸ hneeded.1, hneeded.2⟩
  | retry =>
    refine ⟨⟨h.start_le, h.imports, h.pending, h.room⟩, fun n hn => h.target n ?_, h.caughtUp⟩
    simpa [Event.height] using hn
  | inactivity =>
    have htarget : ∀ n ∈ seen ++ (Event.inactivity (B := B)).height.toList, n ∈ seen := fun n hn => by
      simpa [Event.height] using hn
    simp only [FollowerBlockSync.handle]
    split
    · exact ⟨h.toOrdered, fun n hn => h.target n (htarget n hn), h.caughtUp⟩
    · exact ⟨⟨h.start_le, h.imports, h.pending, h.room⟩, fun n hn => h.target n (htarget n hn),
        nofun⟩

theorem Tracks.run (best₀ : ℕ) (events : List (Event B)) :
    Tracks best₀ (events.filterMap Event.height)
      (events.foldl FollowerBlockSync.handle { best := best₀ }) := by
  induction events using reverseRecOn with
  | nil =>
    refine ⟨⟨Nat.le_refl _, ?_, fun k b hk => ?_, Nat.zero_le _⟩, fun n hn => ?_, nofun⟩
    · simp
    · simp at hk
    · simp at hn
  | append_singleton events e ih =>
    rw [foldl_append, filterMap_append]
    have hstep := ih.handle e
    cases hheight : e.height <;> simpa [hheight] using hstep

/-- **Gap tracking.** After every sequence of events a backfill is marked as needed while the head is
below a height seen or announced, or the first buffered block is not directly above the head. Imported
blocks are consecutive. The buffer has at most 128 entries; when it is full, the highest of its heights
and the new one is dropped. While the head is below the height of any block received, dropped and
rejected ones among them, the next retry requests the blocks directly above the head. -/
theorem follower_gap_tracking (best₀ : ℕ) (events : List (Event B)) :
    let s := events.foldl handle { best := best₀ }
    (∀ e ∈ events, ∀ n ∈ e.height, s.best < n → s.backfill.needed = true ∧
      (s.handle .retry).requests = s.requests ++ [saturatingAdd s.best 1] ∧
      saturatingAdd s.best 1 ≤ n) ∧
    (∀ n ∈ firstNumber s.pending, n ≠ s.best + 1 → s.backfill.needed = true) ∧
    best₀ ≤ s.best ∧ s.imports.map (·.number) = range' (best₀ + 1) (s.best - best₀) ∧
    s.pending.length ≤ MAX_PENDING_BLOCKS ∧
    ∀ block, let inserted := insert s.pending block
      (∀ k, inserted.1.get? k = if inserted.2 = some k then none
        else if k = block.number then (s.pending.get? k).or (some block) else s.pending.get? k) ∧
      ∀ d, inserted.2 = some d → s.pending.length = MAX_PENDING_BLOCKS ∧
        ∀ k b, inserted.1.get? k = some b → k < d := by
  intro s
  have h : Tracks best₀ _ s := Tracks.run best₀ events
  refine ⟨fun e he n hn hlt => ?_, fun n hn hne => ?_, h.start_le, h.imports, h.room,
    fun block => (insert_spec s.pending block h.room).2⟩
  · have hneeded : s.backfill.needed = true := by
      rw [← Bool.not_eq_false]
      intro hneeded
      have hcaught := (h.caughtUp hneeded).1
      rcases h.target n (mem_filterMap.2 ⟨e, he, hn⟩) with hle | ⟨tip, htip, hle⟩
      · exact absurd hle (Nat.not_le_of_lt hlt)
      · exact absurd (hle.trans (hcaught tip htip)) (Nat.not_le_of_lt hlt)
    refine ⟨hneeded, ?_, (Nat.min_le_left _ _).trans hlt⟩
    simp [FollowerBlockSync.handle, request, hneeded]
  · rw [← Bool.not_eq_false]
    intro hneeded
    obtain ⟨e, he, rfl⟩ := map_eq_some_iff.1 hn
    obtain ⟨hnumber, hlt⟩ := h.pending e.1 e.2
      (get_eq_some_iff.2 (first_eq_some_iff.1 he).1)
    have hgap := (h.caughtUp hneeded).2
    rw [hn] at hgap
    simp only [gap, any_some, decide_eq_false_iff_not, not_lt] at hgap
    rw [saturatingAdd_one_of_lt hlt (hnumber ▸ e.2.fits)] at hgap
    omega

end FollowerBlockSync

open FollowerBlockSync

namespace Example

open FollowerBlockSync

def first : PeerBlock Unit := ⟨1, (), by decide⟩

def events : List (Event Unit) :=
  [.completed 0, .block first fun _ => .rejected, .block first fun _ => .imported]

/-- The follower is caught up without having requested the rejected height again. -/
theorem rejected_height_not_requested :
    let s := events.foldl handle { best := 0 }
    s.backfill.needed = false ∧ s.best = 1 ∧ s.requests = [] := by
  -- the state after the rejection: the height is seen, and a backfill is needed
  have hrejected : (handle { best := 0, backfill := ⟨some 0, true, false⟩ }
      (.block first fun _ => .rejected)) = { best := 0, backfill := ⟨some 1, true, true⟩ } := by
    simp only [handle, processFollowerBlock]
    rw [if_neg (by decide), importPendingBlocks_some (show _ = some first from rfl)]
    rfl
  have himported : (handle { best := 0, backfill := ⟨some 1, true, true⟩ }
      (.block first fun _ => .imported)) =
      { best := 1, backfill := ⟨some 1, true, false⟩, imports := [first] } := by
    simp only [handle, processFollowerBlock]
    rw [if_neg (by decide), importPendingBlocks_some (show _ = some first from rfl)]
    dsimp only
    rw [if_pos (by rfl), importPendingBlocks_none rfl]
    rfl
  have hcompleted : handle { best := 0 } (.completed 0) =
      ({ best := 0, backfill := ⟨some 0, true, false⟩ } : FollowerBlockSync Unit) := rfl
  simp only [events, foldl_cons, foldl_nil, hcompleted, hrejected, himported, and_self]

end Example
end TempoZones.Follower
