import TempoZones.Types

/-!
# Broadcasting persisted blocks

The leader's broadcaster reads the persisted head, subscribes to persistence notifications,
reconciles with a second read, and follows the notifications until it is stopped: it then drains the
canonical tail or flushes what is persisted. The chain grows and notifications arrive between any
two steps (`Broadcaster.Step`); a notification may name an old head.

What is sent are the consecutive persisted blocks after the starting height (`Broadcaster.Sound`). A
notification below the cursor makes the broadcaster give up; without one it never fails, and a
finished drain has sent every persisted block.
-/

namespace TempoZones

open Lib Relation

variable {W : Type} [DecidableEq W] {caller : Caller}

/-! ## Blocks and their encoding -/

structure EncodedPersistedBlock (W : Type) where
  number : ℕ
  hash : W
  encoded : Bytes

/-- `EncodedBlock`, with the serialized witness. -/
structure EncodedBlock where
  block : Bytes
  witness : Option Bytes
  deriving DecidableEq

/-- Retained witnesses of a node that persists proofs. -/
structure ProofCollector (W : Type) where
  get : ℕ → W → Option Bytes
  requiresWitness : ℕ → Bool

inductive BroadcastError where
  | hashMismatch (number : ℕ)
  | missingWitness (number : ℕ)
  | movedBackwards (persisted lastBroadcast : ℕ)
  deriving DecidableEq

def encodeBlockWithWitness (proofs : Option (ProofCollector W)) (block : EncodedPersistedBlock W) :
    Except BroadcastError EncodedBlock :=
  match proofs with
  | none => .ok ⟨block.encoded, none⟩
  | some proofs =>
    let witness := proofs.get block.number block.hash
    if witness.isSome ∨ ¬ proofs.requiresWitness block.number then .ok ⟨block.encoded, witness⟩
    else .error (.missingWitness block.number)

/-- The zone chain, as `encoded_block_by_number` reads it, and the retained witnesses. The chain is
never reorganised. -/
structure BlockSource (W : Type) where
  encodedBlockByNumber : ℕ → EncodedPersistedBlock W
  proofs : Option (ProofCollector W)
  number_eq : ∀ number, (encodedBlockByNumber number).number = number

def BlockSource.message (source : BlockSource W) (number : ℕ) : EncodedBlock :=
  let block := source.encodedBlockByNumber number
  ⟨block.encoded, source.proofs.bind fun proofs => proofs.get block.number block.hash⟩

def BlockSource.Witnessed (source : BlockSource W) : Prop :=
  ∀ proofs ∈ source.proofs, ∀ number, proofs.requiresWitness number →
    (proofs.get number (source.encodedBlockByNumber number).hash).isSome

def BlockSource.messages (source : BlockSource W) (first last : ℕ) : List EncodedBlock :=
  (List.range' (first + 1) (last - first)).map source.message

/-- Body of the loop in `broadcast_persisted_range` for the block at a height. -/
def BlockSource.broadcast (source : BlockSource W) (tipNumber : ℕ) (expectedTipHash : Option W)
    (number : ℕ) : Except BroadcastError EncodedBlock :=
  let block := source.encodedBlockByNumber number
  if block.number = tipNumber ∧ expectedTipHash.any (fun expected => decide (block.hash ≠ expected))
  then .error (.hashMismatch block.number)
  else encodeBlockWithWitness source.proofs block

/-! ## The broadcaster -/

inductive BroadcasterShutdown where
  | drain
  | stop
  deriving DecidableEq

/-- What follows a range: the loop of the broadcaster, its drain, or its end. -/
inductive Caller where
  | loop
  | drain (canonical : ℕ)
  | stop

inductive BroadcastEnd where
  | drained
  | stopped
  | failed (error : BroadcastError)
  deriving DecidableEq

/-- Where the broadcaster stands: between its two reads at the start, inside
`broadcast_persisted_range`, at the `select` of its loop, or in
`drain_persisted_blocks_after_engine_stop`. -/
inductive BroadcastPhase (W : Type) where
  | subscribing
  | sending (tipNumber : ℕ) (expectedTipHash : Option W) (caller : Caller)
  | waiting
  | draining (canonical : ℕ)
  | awaitingTail (canonical : ℕ)
  | finished (result : BroadcastEnd)

/-- The broadcaster and what it observes. `stream` is the notification it has not taken yet, as the
height of the persisted tip. -/
structure Broadcaster (W : Type) where
  canonical : ℕ
  persisted : ℕ
  engineStopped : Bool
  notified : ℕ
  stream : Option ℕ
  command : Option BroadcasterShutdown
  startedAt : ℕ
  lastBroadcast : ℕ
  phase : BroadcastPhase W
  sent : List EncodedBlock

namespace Broadcaster

def rangeSent (b : Broadcaster W) : Caller → Broadcaster W
  | .loop => { b with phase := .waiting }
  | .drain canonical => { b with phase := .awaitingTail canonical }
  | .stop => { b with phase := .finished .stopped }

/-- Next block of `broadcast_persisted_range`. -/
def sendNext (source : BlockSource W) (b : Broadcaster W) (tipNumber : ℕ)
    (expectedTipHash : Option W) : Broadcaster W :=
  let number := b.lastBroadcast + 1
  match source.broadcast tipNumber expectedTipHash number with
  | .error error => { b with phase := .finished (.failed error) }
  | .ok message =>
    { b with
      sent := b.sent ++ [message]
      lastBroadcast := (source.encodedBlockByNumber number).number }

def takeTip (source : BlockSource W) (b : Broadcaster W) (tip : ℕ) (caller : Caller) :
    Broadcaster W :=
  if tip < b.lastBroadcast then
    { b with stream := none, phase := .finished (.failed (.movedBackwards tip b.lastBroadcast)) }
  else
    { b with
      stream := none
      phase := .sending tip (some (source.encodedBlockByNumber tip).hash) caller }

/-- One step of the chain, of the notifications, of the role controller or of the broadcaster. -/
inductive Step (source : BlockSource W) (b : Broadcaster W) : Broadcaster W → Prop
  | grow (running : b.engineStopped = false) :
      Step source b { b with canonical := b.canonical + 1 }
  | persist {tip : ℕ} (newer : b.persisted ≤ tip) (canonical : tip ≤ b.canonical) :
      Step source b { b with persisted := tip }
  -- later notifications replace the one that was not taken
  | notify {tip : ℕ} (ordered : b.notified ≤ tip) (durable : tip ≤ b.persisted) :
      Step source b { b with notified := tip, stream := some tip }
  | stopEngine : Step source b { b with engineStopped := true }
  | sendDrain (stopped : b.engineStopped = true) (unsent : b.command = none) :
      Step source b { b with command := some .drain }
  | sendStop (unsent : b.command = none) : Step source b { b with command := some .stop }
  | reconcile (phase : b.phase = .subscribing) :
      Step source b { b with phase := .sending b.persisted none .loop }
  | send {tipNumber : ℕ} {expectedTipHash : Option W} {caller : Caller}
      (phase : b.phase = .sending tipNumber expectedTipHash caller)
      (more : b.lastBroadcast < tipNumber) :
      Step source b (b.sendNext source tipNumber expectedTipHash)
  | rangeSent {tipNumber : ℕ} {expectedTipHash : Option W} {caller : Caller}
      (phase : b.phase = .sending tipNumber expectedTipHash caller)
      (done : tipNumber ≤ b.lastBroadcast) : Step source b (b.rangeSent caller)
  -- the `select` is biased towards the shutdown command
  | takeTip {tip : ℕ} (phase : b.phase = .waiting) (uncommanded : b.command = none)
      (next : b.stream = some tip) : Step source b (b.takeTip source tip .loop)
  | drain (phase : b.phase = .waiting) (command : b.command = some .drain) :
      Step source b { b with phase := .draining b.canonical }
  | flush (phase : b.phase = .waiting) (command : b.command = some .stop) :
      Step source b { b with phase := .sending b.persisted none .stop }
  | drainHead {canonical : ℕ} (phase : b.phase = .draining canonical) :
      Step source b { b with phase := .sending b.persisted none (.drain canonical) }
  | drainTip {canonical tip : ℕ} (phase : b.phase = .awaitingTail canonical)
      (missing : b.lastBroadcast < canonical) (next : b.stream = some tip) :
      Step source b (b.takeTip source tip (.drain canonical))
  | drained {canonical : ℕ} (phase : b.phase = .awaitingTail canonical)
      (complete : canonical ≤ b.lastBroadcast) :
      Step source b { b with phase := .finished .drained }

structure Start (b : Broadcaster W) : Prop where
  persisted_le : b.persisted ≤ b.canonical
  stream : ∀ tip ∈ b.stream, tip ≤ b.persisted
  command : b.command = none
  startedAt : b.startedAt = b.persisted
  lastBroadcast : b.lastBroadcast = b.persisted
  phase : b.phase = .subscribing
  sent : b.sent = []

/-- A step that takes no notification below the cursor. A notification is taken when it leaves the
stream; one that a later notification replaces may be old. -/
def TimelyStep (source : BlockSource W) (b b' : Broadcaster W) : Prop :=
  Step source b b' ∧ ∀ tip, b.stream = some tip → b'.stream = none → b.lastBroadcast ≤ tip

/-! ## What holds in every state -/

/-- What a caller of `broadcast_persisted_range` has checked. -/
def CallerSound (b : Broadcaster W) : Caller → Prop
  | .drain canonical => b.engineStopped = true ∧ canonical = b.canonical
  | _ => True

/-- What holds in each phase: only persisted heights are broadcast, and a drain waits for the
canonical head of a stopped engine. -/
def PhaseSound (source : BlockSource W) (b : Broadcaster W) : BroadcastPhase W → Prop
  | .sending tipNumber expectedTipHash caller => tipNumber ≤ b.persisted ∧
      (∀ hash ∈ expectedTipHash, hash = (source.encodedBlockByNumber tipNumber).hash) ∧
      b.CallerSound caller
  | .draining canonical => b.engineStopped = true ∧ canonical = b.canonical
  | .awaitingTail canonical => b.engineStopped = true ∧ canonical = b.canonical
  | .finished .drained => b.engineStopped = true ∧ b.canonical ≤ b.lastBroadcast
  | _ => True

/-- The cursor separates what was sent from what was not, and never passes the persisted head. -/
structure Sound (source : BlockSource W) (b : Broadcaster W) : Prop where
  sent : b.sent = source.messages b.startedAt b.lastBroadcast
  started_le : b.startedAt ≤ b.lastBroadcast
  last_le : b.lastBroadcast ≤ b.persisted
  persisted_le : b.persisted ≤ b.canonical
  stream : ∀ tip ∈ b.stream, tip ≤ b.persisted
  command : b.command = some .drain → b.engineStopped = true
  phase : b.PhaseSound source b.phase

end Broadcaster

section Messages

variable {source : BlockSource W} {tipNumber number : ℕ} {expectedTipHash : Option W}

theorem BlockSource.messages_succ (source : BlockSource W) {first last : ℕ} (h : first ≤ last) :
    source.messages first (last + 1) = source.messages first last ++ [source.message (last + 1)] := by
  unfold BlockSource.messages
  rw [Nat.sub_add_comm h, List.range'_1_concat, List.map_append]
  have hnext : first + 1 + (last - first) = last + 1 := by omega
  rw [hnext]
  rfl

theorem BlockSource.broadcast_ok {message : EncodedBlock}
    (h : source.broadcast tipNumber expectedTipHash number = .ok message) :
    message = source.message number := by
  unfold BlockSource.broadcast at h
  simp only at h
  split at h
  · cases h
  unfold encodeBlockWithWitness at h
  unfold BlockSource.message
  split at h
  · next hnone =>
    cases h
    rw [hnone]
    rfl
  · next proofs hproofs =>
    simp only at h
    split at h
    · cases h
      rw [hproofs]
      rfl
    · cases h

theorem BlockSource.broadcast_total (hwitnessed : source.Witnessed)
    (hexpected : ∀ hash ∈ expectedTipHash,
      hash = (source.encodedBlockByNumber tipNumber).hash) (number : ℕ) :
    source.broadcast tipNumber expectedTipHash number = .ok (source.message number) := by
  have hok : ∃ message, source.broadcast tipNumber expectedTipHash number = .ok message := by
    unfold BlockSource.broadcast
    simp only
    rw [if_neg]
    · unfold encodeBlockWithWitness
      split
      · exact ⟨_, rfl⟩
      · next proofs hproofs =>
        simp only
        rw [if_pos]
        · exact ⟨_, rfl⟩
        by_cases hrequired : proofs.requiresWitness number
        · left
          rw [source.number_eq]
          exact hwitnessed proofs hproofs number hrequired
        right
        rw [source.number_eq]
        exact hrequired
    rintro ⟨htip, hmismatch⟩
    rw [source.number_eq] at htip
    subst htip
    cases expectedTipHash with
    | none => cases hmismatch
    | some hash => exact of_decide_eq_true hmismatch (hexpected hash rfl).symm
  obtain ⟨message, hmessage⟩ := hok
  rw [hmessage, BlockSource.broadcast_ok hmessage]

end Messages

namespace Broadcaster

variable {source : BlockSource W} {b b' b₀ : Broadcaster W}

theorem Sound.phase_eq (h : Sound source b) {phase : BroadcastPhase W} (hphase : b.phase = phase) :
    b.PhaseSound source phase :=
  hphase ▸ h.phase

theorem PhaseSound.later {phase : BroadcastPhase W} (h : b.PhaseSound source phase)
    (hpersisted : b.persisted ≤ b'.persisted) (hlast : b.lastBroadcast ≤ b'.lastBroadcast)
    (hstopped : b.engineStopped = true → b'.engineStopped = true ∧ b'.canonical = b.canonical) :
    b'.PhaseSound source phase := by
  have hdrain : ∀ {canonical : ℕ}, b.engineStopped = true ∧ canonical = b.canonical →
      b'.engineStopped = true ∧ canonical = b'.canonical := by
    rintro canonical ⟨hengine, hcanonical⟩
    obtain ⟨hengine', hcanonical'⟩ := hstopped hengine
    exact ⟨hengine', hcanonical.trans hcanonical'.symm⟩
  cases phase with
  | sending tipNumber expectedTipHash caller =>
    obtain ⟨htip, hexpected, hcaller⟩ := h
    refine ⟨htip.trans hpersisted, hexpected, ?_⟩
    cases caller with
    | drain canonical => exact hdrain hcaller
    | loop => trivial
    | stop => trivial
  | draining canonical => exact hdrain h
  | awaitingTail canonical => exact hdrain h
  | finished result =>
    cases result with
    | drained =>
      obtain ⟨hengine, hcanonical⟩ := h
      obtain ⟨hengine', hcanonical'⟩ := hstopped hengine
      exact ⟨hengine', hcanonical' ▸ hcanonical.trans hlast⟩
    | stopped => trivial
    | failed error => trivial
  | subscribing => trivial
  | waiting => trivial

section

variable (h : Sound source b)
include h

theorem Sound.sendNext {tipNumber : ℕ} {expectedTipHash : Option W}
    (hphase : b.phase = .sending tipNumber expectedTipHash caller)
    (hmore : b.lastBroadcast < tipNumber) :
    Sound source (b.sendNext source tipNumber expectedTipHash) := by
  have hsending := h.phase_eq hphase
  unfold Broadcaster.sendNext
  simp only
  split
  · exact { h with phase := trivial }
  · next message hmessage =>
    rw [source.number_eq]
    refine ⟨?_, h.started_le.trans (Nat.le_succ _), ?_, h.persisted_le, h.stream, h.command, ?_⟩
    · change b.sent ++ [message] = source.messages b.startedAt (b.lastBroadcast + 1)
      rw [source.messages_succ h.started_le, h.sent, BlockSource.broadcast_ok hmessage]
    · exact (Nat.succ_le_of_lt hmore).trans hsending.1
    · exact h.phase.later le_rfl (Nat.le_succ _) fun hstopped => ⟨hstopped, rfl⟩

theorem Sound.takeTip {tip : ℕ} (hnext : b.stream = some tip) (hcaller : b.CallerSound caller) :
    Sound source (b.takeTip source tip caller) := by
  have hstream : ∀ t ∈ (none : Option ℕ), t ≤ b.persisted := nofun
  unfold Broadcaster.takeTip
  split
  · exact { h with stream := hstream, phase := trivial }
  refine { h with stream := hstream, phase := ⟨?_, ?_, ?_⟩ }
  · exact h.stream tip hnext
  · intro hash hhash
    exact (Option.some.inj hhash).symm
  · cases caller with
    | drain canonical => exact hcaller
    | loop => trivial
    | stop => trivial

theorem Sound.rangeSent (hcaller : b.CallerSound caller) : Sound source (b.rangeSent caller) := by
  cases caller with
  | loop
  | stop => exact { h with phase := trivial }
  | drain canonical => exact { h with phase := hcaller }

theorem Step.sound (hstep : Step source b b') : Sound source b' := by
  have hnone : ∀ n, ∀ hash ∈ (none : Option W), hash = (source.encodedBlockByNumber n).hash := nofun
  cases hstep with
  | grow running =>
    refine { h with persisted_le := Nat.le_succ_of_le h.persisted_le, phase := ?_ }
    refine h.phase.later le_rfl le_rfl fun hstopped => ?_
    rw [running] at hstopped
    cases hstopped
  | persist newer canonical =>
    exact { h with
      last_le := h.last_le.trans newer
      persisted_le := canonical
      stream := fun t ht => (h.stream t ht).trans newer
      phase := h.phase.later newer le_rfl fun hstopped => ⟨hstopped, rfl⟩ }
  | notify _ durable =>
    refine { h with
      stream := ?_
      phase := h.phase.later le_rfl le_rfl fun hstopped => ⟨hstopped, rfl⟩ }
    intro t ht
    cases ht
    exact durable
  | stopEngine =>
    exact { h with
      command := fun _ => rfl
      phase := h.phase.later le_rfl le_rfl fun _ => ⟨rfl, rfl⟩ }
  | sendDrain stopped _ =>
    exact { h with
      command := fun _ => stopped
      phase := h.phase.later le_rfl le_rfl fun hstopped => ⟨hstopped, rfl⟩ }
  | sendStop _ =>
    exact { h with
      command := nofun
      phase := h.phase.later le_rfl le_rfl fun hstopped => ⟨hstopped, rfl⟩ }
  | reconcile _
  | flush _ _ => exact { h with phase := ⟨le_rfl, hnone _, trivial⟩ }
  | send phase more => exact h.sendNext phase more
  | rangeSent phase _ => exact h.rangeSent (h.phase_eq phase).2.2
  | takeTip _ _ next => exact h.takeTip next trivial
  | drain _ command => exact { h with phase := ⟨h.command command, rfl⟩ }
  | drainHead phase => exact { h with phase := ⟨le_rfl, hnone _, h.phase_eq phase⟩ }
  | drainTip phase _ next => exact h.takeTip next (h.phase_eq phase)
  | drained phase complete =>
    obtain ⟨hstopped, hcanonical⟩ := h.phase_eq phase
    exact { h with phase := ⟨hstopped, hcanonical ▸ complete⟩ }

end

theorem Start.sound (h : Start b) : Sound source b where
  sent := by
    rw [h.sent, h.startedAt, h.lastBroadcast, BlockSource.messages, Nat.sub_self]
    rfl
  started_le := le_of_eq (h.startedAt.trans h.lastBroadcast.symm)
  last_le := le_of_eq h.lastBroadcast
  persisted_le := h.persisted_le
  stream := h.stream
  command := fun hdrain => by
    rw [h.command] at hdrain
    cases hdrain
  phase := by
    rw [h.phase]
    trivial

theorem Start.run (h : Start b₀) (hrun : ReflTransGen (Step source) b₀ b) : Sound source b := by
  induction hrun with
  | refl => exact h.sound
  | tail _ hstep ih => exact hstep.sound ih

theorem startedAt_eq (hstep : Step source b b') : b'.startedAt = b.startedAt := by
  cases hstep with
  | send phase more =>
    unfold Broadcaster.sendNext
    simp only
    split <;> rfl
  | @rangeSent _ _ caller _ _ => cases caller <;> rfl
  | takeTip _ _ _
  | drainTip _ _ _ =>
    unfold Broadcaster.takeTip
    split <;> rfl
  | _ => rfl

/-! ## Without late notifications -/

def Alive (b : Broadcaster W) : Prop :=
  ∀ error, b.phase ≠ .finished (.failed error)

theorem takeTip_stream (tip : ℕ) : (b.takeTip source tip caller).stream = none := by
  unfold takeTip
  split <;> rfl

theorem Alive.takeTip {tip : ℕ} (htimely : b.lastBroadcast ≤ tip) :
    Alive (b.takeTip source tip caller) := by
  intro error
  unfold Broadcaster.takeTip
  rw [if_neg (Nat.not_lt_of_le htimely)]
  exact nofun

theorem TimelyStep.alive (hwitnessed : source.Witnessed) (h : Sound source b) (halive : b.Alive)
    (hstep : TimelyStep source b b') : b'.Alive := by
  obtain ⟨hstep, htimely⟩ := hstep
  cases hstep with
  | grow _
  | persist _ _
  | notify _ _
  | stopEngine
  | sendDrain _ _
  | sendStop _ => exact halive
  | @send tipNumber expectedTipHash _ phase _ =>
    have hsent := BlockSource.broadcast_total hwitnessed (h.phase_eq phase).2.1
      (b.lastBroadcast + 1)
    unfold Broadcaster.sendNext
    simp only [hsent]
    exact halive
  | @rangeSent _ _ caller _ _ =>
    cases caller with
    | loop
    | drain canonical
    | stop => exact nofun
  | takeTip _ _ next
  | drainTip _ _ next => exact Alive.takeTip (htimely _ next (takeTip_stream _))
  | reconcile _
  | drain _ _
  | flush _ _
  | drainHead _
  | drained _ _ => exact nofun

theorem Start.timelyRun (hwitnessed : source.Witnessed) (h : Start b₀)
    (hrun : ReflTransGen (TimelyStep source) b₀ b) : Sound source b ∧ b.Alive := by
  induction hrun with
  | refl =>
    refine ⟨h.sound, fun error => ?_⟩
    rw [h.phase]
    exact nofun
  | tail _ hstep ih => exact ⟨hstep.1.sound ih.1, hstep.alive hwitnessed ih.1 ih.2⟩

/-! ## Main result -/

/-- **Persisted blocks are broadcast without gaps.** The blocks sent are the consecutive persisted
blocks after the starting height, once each and in order. If the required witnesses are retained and
no notification below the cursor is taken, the broadcaster does not fail, and when its drain has
ended, every persisted block has been sent. -/
theorem persisted_broadcast_gap_free (h : Start b₀) :
    (∀ b, ReflTransGen (Step source) b₀ b →
      b.startedAt = b₀.persisted ∧ b.startedAt ≤ b.lastBroadcast ∧
        b.sent = source.messages b.startedAt b.lastBroadcast ∧
        b.lastBroadcast ≤ b.persisted) ∧
    (source.Witnessed → ∀ b, ReflTransGen (TimelyStep source) b₀ b →
      (∀ error, b.phase ≠ .finished (.failed error)) ∧
        (b.phase = .finished .drained →
          b.sent = source.messages b.startedAt b.persisted ∧ b.persisted = b.canonical)) := by
  constructor
  · intro b hrun
    have hsound := h.run hrun
    refine ⟨?_, hsound.started_le, hsound.sent, hsound.last_le⟩
    rw [← h.startedAt]
    clear hsound
    induction hrun with
    | refl => rfl
    | tail _ hstep ih => exact (startedAt_eq hstep).trans ih
  · intro hwitnessed b hrun
    obtain ⟨hsound, halive⟩ := h.timelyRun hwitnessed hrun
    refine ⟨halive, ?_⟩
    intro hdrained
    obtain ⟨-, hcanonical⟩ := hsound.phase_eq hdrained
    have hlast := hsound.last_le
    have hpersisted := hsound.persisted_le
    -- sent ≤ persisted ≤ canonical, and the drain ends when canonical is sent
    have hall : b.lastBroadcast = b.persisted := by omega
    rw [← hall]
    exact ⟨hsound.sent, by omega⟩

end Broadcaster

namespace Example

def heights : BlockSource ℕ where
  encodedBlockByNumber := fun number => ⟨number, number, [UInt8.ofNat number]⟩
  proofs := none
  number_eq := fun _ => rfl

theorem heights_witnessed : heights.Witnessed := nofun

def leader : Broadcaster ℕ where
  canonical := 0
  persisted := 0
  engineStopped := false
  notified := 0
  stream := none
  command := none
  startedAt := 0
  lastBroadcast := 0
  phase := .subscribing
  sent := []

theorem leader_start : leader.Start := ⟨le_rfl, nofun, rfl, rfl, rfl, rfl, rfl⟩

/-- The leader's engine stops with three canonical blocks. The first is persisted and announced, the
second persisted only, when the drain reads the head. -/
def stopping : Broadcaster ℕ :=
  { leader with
    canonical := 3
    persisted := 2
    engineStopped := true
    notified := 1
    stream := some 1
    command := some .drain
    phase := .waiting }

theorem leader_stops : ReflTransGen (Broadcaster.Step heights) leader stopping := by
  have hreconciled : ReflTransGen (Broadcaster.Step heights) leader _ :=
    .tail .refl (.reconcile rfl)
  have hwaiting := hreconciled.tail (.rangeSent rfl le_rfl)
  have hgrown := ((hwaiting.tail (.grow rfl)).tail (.grow rfl)).tail (.grow rfl)
  have hfirst : 0 ≤ 1 ∧ 1 ≤ 3 := by decide
  have hsecond : 1 ≤ 2 ∧ 2 ≤ 3 := by decide
  have hnotified := (hgrown.tail (.persist hfirst.1 hfirst.2)).tail (.notify hfirst.1 (le_refl 1))
  have hpersisted := hnotified.tail (.persist hsecond.1 hsecond.2)
  exact (hpersisted.tail .stopEngine).tail (.sendDrain rfl rfl)

/-- The drain sends both persisted blocks, and the third becomes persisted. -/
def tailPersisted : Broadcaster ℕ :=
  { stopping with
    persisted := 3
    lastBroadcast := 2
    phase := .awaitingTail 3
    sent := heights.messages 0 2 }

theorem drain_waits : ReflTransGen (Broadcaster.Step heights) stopping tailPersisted := by
  have hhead : ReflTransGen (Broadcaster.Step heights) stopping _ := .tail .refl (.drain rfl rfl)
  have hsending := hhead.tail (.drainHead rfl)
  have hsent := (hsending.tail (.send rfl (by decide))).tail (.send rfl (by decide))
  have hwaiting := hsent.tail (.rangeSent rfl (by decide))
  have hthird : 2 ≤ 3 := by decide
  exact hwaiting.tail (.persist hthird (le_refl 3))

/-- Without a notification in the stream every step is timely. -/
theorem quiet {b b' : Broadcaster ℕ} (hnone : b.stream = none)
    (hstep : Broadcaster.Step heights b b') : Broadcaster.TimelyStep heights b b' := by
  refine ⟨hstep, fun t ht _ => ?_⟩
  rw [hnone] at ht
  cases ht

def drainedLeader : Broadcaster ℕ :=
  { leader with
    canonical := 1
    persisted := 1
    engineStopped := true
    notified := 1
    command := some .drain
    lastBroadcast := 1
    phase := .finished .drained
    sent := heights.messages 0 1 }

theorem leader_drains : ReflTransGen (Broadcaster.TimelyStep heights) leader drainedLeader := by
  have hone : 0 ≤ 1 := by decide
  have hreconciled : ReflTransGen (Broadcaster.TimelyStep heights) leader _ :=
    .tail .refl (quiet rfl (.reconcile rfl))
  have hwaiting := hreconciled.tail (quiet rfl (.rangeSent rfl le_rfl))
  have hgrown := hwaiting.tail (quiet rfl (.grow rfl))
  have hpersisted := hgrown.tail (quiet rfl (.persist hone (le_refl 1)))
  have hnotified := hpersisted.tail (quiet rfl (.notify hone (le_refl 1)))
  have htaken := hnotified.tail ⟨.takeTip rfl rfl rfl, by rintro t ⟨⟩ _; exact hone⟩
  have hsent := htaken.tail (quiet rfl (.send rfl (by decide)))
  have hidle := hsent.tail (quiet rfl (.rangeSent rfl (by decide)))
  have hstopped := hidle.tail (quiet rfl .stopEngine)
  have hcommanded := hstopped.tail (quiet rfl (.sendDrain rfl rfl))
  have hdraining := hcommanded.tail (quiet rfl (.drain rfl rfl))
  have hhead := hdraining.tail (quiet rfl (.drainHead rfl))
  have htail := hhead.tail (quiet rfl (.rangeSent rfl (by decide)))
  exact htail.tail (quiet rfl (.drained rfl (by decide)))

end Example

open Example

theorem persisted_broadcast_gap_free_example :
    drainedLeader.sent = heights.messages 0 drainedLeader.persisted ∧
      drainedLeader.persisted = drainedLeader.canonical :=
  ((Broadcaster.persisted_broadcast_gap_free leader_start).2 heights_witnessed _
    leader_drains).2 rfl

/-- The announcement of the first block is taken after the second was sent on the strength of a
read, the broadcaster gives up, and the third block is persisted but never sent. -/
theorem late_notification_ends_drain :
    ∃ b, ReflTransGen (Broadcaster.Step heights) leader b ∧
      b.phase = .finished (.failed (.movedBackwards 1 2)) ∧ b.persisted = 3 ∧
      b.sent = heights.messages 0 2 ∧ b.sent ≠ heights.messages 0 b.persisted := by
  have hmissing : tailPersisted.lastBroadcast < 3 := by decide
  have hrun := (leader_stops.trans drain_waits).tail
    (.drainTip rfl hmissing rfl)
  exact ⟨_, hrun, rfl, rfl, rfl, by decide⟩

end TempoZones
