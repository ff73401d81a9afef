import TempoZones.Lib.Evm

/-!
# Backfill reservations

A node that misses blocks asks quorum peers for them. `BackfillJob` holds at most one reservation
per peer, with two expiry clocks, and the cooldowns of peers found behind; `Coordinator` answers
block requests and response frames and logs what it sends to the network and to the node. Times are
milliseconds; the leader of the next anchor and the peers the network admits are parts of each
event.

`Asks` says what one pass over the sources can do, and every result about runs follows from it.
-/

namespace TempoZones.P2p

open Lib List Function Relation Option Nat

inductive RequestKind
  | leaderOnly
  | fallback
  deriving DecidableEq

def BACKFILL_RESPONSE_TIMEOUT : ℕ := 300000
def BACKFILL_RESPONSE_INACTIVITY_TIMEOUT : ℕ := 5000
def BACKFILL_BEHIND_COOLDOWN : ℕ := 30000

structure OutstandingBackfill where
  requestId : ℕ
  start : ℕ
  sentAt : ℕ
  lastProgressAt : ℕ
  kind : RequestKind

def OutstandingBackfill.expired (r : OutstandingBackfill) (now : ℕ) : Bool :=
  BACKFILL_RESPONSE_TIMEOUT ≤ now - r.sentAt ||
    BACKFILL_RESPONSE_INACTIVITY_TIMEOUT ≤ now - r.lastProgressAt

structure BackfillJob (K : Type) where
  nextRequestId : ℕ := 0
  outstanding : K → Option OutstandingBackfill := fun _ => none
  behindUntil : K → Option ℕ := fun _ => none

namespace BackfillJob

variable {K : Type} [DecidableEq K]

def isBehind (job : BackfillJob K) (peer : K) (now : ℕ) : Bool :=
  (job.behindUntil peer).any (now < ·)

def live (job : BackfillJob K) (peer : K) (now : ℕ) : Bool :=
  (job.outstanding peer).any (!·.expired now)

def sweep (job : BackfillJob K) (now : ℕ) : BackfillJob K :=
  { job with behindUntil := fun peer => (job.behindUntil peer).filter (now < ·) }

def reserve (job : BackfillJob K) (peers : List K) (start : ℕ) (kind : RequestKind) (now : ℕ) :
    BackfillJob K :=
  { job with
    nextRequestId := (job.nextRequestId + 1) % 2 ^ 64
    outstanding := fun peer =>
      if peer ∈ peers then some ⟨job.nextRequestId, start, now, now, kind⟩
      else job.outstanding peer }

def eligible (job : BackfillJob K) (now : ℕ) (peer : K) : Bool :=
  !job.live peer now && !job.isBehind peer now

def beginRequest (job : BackfillJob K) (peers : List K) (start : ℕ) (kind : RequestKind) (now : ℕ) :
    BackfillJob K × Option (ℕ × List K) :=
  let job := job.sweep now
  let requestPeers := peers.filter (job.eligible now)
  if requestPeers = [] then (job, none)
  else (job.reserve requestPeers start kind now, some (job.nextRequestId, requestPeers))

def finishSend (job : BackfillJob K) (requestId : ℕ) (admitted : List K) : BackfillJob K :=
  { job with
    outstanding := fun peer =>
      (job.outstanding peer).filter fun r => r.requestId ≠ requestId ∨ peer ∈ admitted }

def accepts (job : BackfillJob K) (peer : K) (requestId now : ℕ) : Bool :=
  (job.outstanding peer).any fun r => r.requestId = requestId && !r.expired now

/-- `record_response`, for a frame that is accepted. -/
def recordResponse (job : BackfillJob K) (peer : K) (now : ℕ) : BackfillJob K :=
  { job with
    outstanding := update job.outstanding peer
      ((job.outstanding peer).map fun r => { r with lastProgressAt := now }) }

def isUnresponsive (job : BackfillJob K) (peer : K) (now : ℕ) : Bool :=
  (job.outstanding peer).any (·.expired now)

def shouldWaitForLeader (job : BackfillJob K) (peer : K) (now : ℕ) : Bool :=
  (job.outstanding peer).any fun r => r.kind = .leaderOnly && !r.expired now

def markBehind (job : BackfillJob K) (peer : K) (now : ℕ) : BackfillJob K :=
  { job with
    behindUntil := update job.behindUntil peer (some (now + BACKFILL_BEHIND_COOLDOWN)) }

/-- `complete`: the reservation an accepted completion ends, and the job without it. -/
def complete (job : BackfillJob K) (peer : K) (requestId now : ℕ) :
    Option (OutstandingBackfill × BackfillJob K) :=
  if job.accepts peer requestId now then
    (job.outstanding peer).map fun r =>
      (r, { job with outstanding := update job.outstanding peer none })
  else none

end BackfillJob

open BackfillJob

/-- What the coordinator sends: a request frame with the peers asked and those the network admitted,
or a response forwarded to the node. -/
inductive Output (K : Type)
  | request (requestId start : ℕ) (kind : RequestKind) (asked admitted : List K) (now : ℕ)
  | block (peer : K) (requestId : ℕ) (block : Bytes)
  | completed (peer : K) (requestId tip : ℕ)
  deriving DecidableEq

def Output.isRequest {K : Type} : Output K → Bool
  | .request .. => true
  | _ => false

inductive ResponseFrame
  | block (requestId : ℕ) (block : Bytes)
  | complete (requestId tip : ℕ)

/-- What one request operation meets: the time, the leader of the next anchor record, and the peers
the network admits of those asked. -/
structure Surroundings (K : Type) where
  now : ℕ
  anchorLeader : Option K
  admits : RequestKind → List K → List K
  admits_subset : ∀ kind asked, admits kind asked ⊆ asked

structure RoutingPolicy (K : Type) where
  localPeer : K
  quorum : List K

section

variable {K : Type} [DecidableEq K]

def RoutingPolicy.backfillCandidates (policy : RoutingPolicy K) : List K :=
  policy.quorum.filter (· ≠ policy.localPeer)

def RoutingPolicy.preferredBackfillLeader (policy : RoutingPolicy K) (anchorLeader : Option K) :
    Option K :=
  anchorLeader.filter fun leader => leader ∈ policy.quorum ∧ leader ≠ policy.localPeer

/-- Quorum members are manifest peers, so a remote quorum peer is a candidate. -/
def RoutingPolicy.mayAcceptBackfillResponse (policy : RoutingPolicy K) (peer : K) : Bool :=
  peer ≠ policy.localPeer && peer ∈ policy.quorum

structure Coordinator (K : Type) where
  job : BackfillJob K := {}
  log : List (Output K) := []

namespace Coordinator

def requests (c : Coordinator K) : ℕ := c.log.countP (·.isRequest)

/-- The loop of `request_blocks` over the attempts that are left. -/
def tryAttempts (leader : Option K) (start : ℕ) (env : Surroundings K) :
    List (RequestKind × List K) → Coordinator K → Coordinator K
  | [], c => c
  | (kind, sources) :: rest, c =>
    match c.job.beginRequest sources start kind env.now with
    | (job, none) =>
      if kind = .leaderOnly ∧ leader.any (job.shouldWaitForLeader · env.now) then { c with job }
      else tryAttempts leader start env rest { c with job }
    | (job, some (requestId, requestPeers)) =>
      let admitted := env.admits kind requestPeers
      let c : Coordinator K :=
        { job := job.finishSend requestId admitted
          log := c.log ++ [.request requestId start kind requestPeers admitted env.now] }
      if admitted = [] then tryAttempts leader start env rest c else c

def requestBlocks (policy : RoutingPolicy K) (c : Coordinator K) (start : ℕ)
    (env : Surroundings K) : Coordinator K :=
  let leader := policy.preferredBackfillLeader env.anchorLeader
  let candidates := policy.backfillCandidates
  let leaderFirst := leader.filter fun l => l ∈ candidates && !c.job.isUnresponsive l env.now
  tryAttempts leader start env
    (leaderFirst.toList.map (fun l => (.leaderOnly, [l])) ++ [(.fallback, candidates)]) c

/-- `handle_response` up to the request it ends with: the range a peer was found behind of. -/
def handleFrame (policy : RoutingPolicy K) (c : Coordinator K) (peer : K) (frame : ResponseFrame)
    (receivedAt : ℕ) : Coordinator K × Option ℕ :=
  if policy.mayAcceptBackfillResponse peer then
    match frame with
    | .block requestId block =>
      if c.job.accepts peer requestId receivedAt then
        ({ job := c.job.recordResponse peer receivedAt
           log := c.log ++ [.block peer requestId block] }, none)
      else (c, none)
    | .complete requestId tip =>
      match c.job.complete peer requestId receivedAt with
      | none => (c, none)
      | some (r, job) =>
        if saturatingAdd tip 1 < r.start then
          ({ c with job := job.markBehind peer receivedAt }, some r.start)
        else ({ job, log := c.log ++ [.completed peer requestId tip] }, none)
  else (c, none)

def handleResponse (policy : RoutingPolicy K) (c : Coordinator K) (peer : K) (frame : ResponseFrame)
    (receivedAt : ℕ) (env : Surroundings K) : Coordinator K :=
  match c.handleFrame policy peer frame receivedAt with
  | (c, none) => c
  | (c, some requestedStart) => c.requestBlocks policy requestedStart env

end Coordinator

/-- The coordinator's moments: a block request of the node, and a response frame, which ends with a
request if the peer was found behind. The clock does not run backwards. -/
inductive Turn (policy : RoutingPolicy K) : ℕ × Coordinator K → ℕ × Coordinator K → Prop
  | request {t : ℕ} {c : Coordinator K} (start : ℕ) (env : Surroundings K) (h : t ≤ env.now) :
    Turn policy (t, c) (env.now, c.requestBlocks policy start env)
  | response {t : ℕ} {c : Coordinator K} (peer : K) (frame : ResponseFrame) (receivedAt : ℕ)
    (env : Surroundings K) (h : t ≤ receivedAt) (hlater : receivedAt ≤ env.now) :
    Turn policy (t, c) (env.now, c.handleResponse policy peer frame receivedAt env)

def Reached (policy : RoutingPolicy K) (t : ℕ) (c : Coordinator K) : Prop :=
  ReflTransGen (Turn policy) (0, {}) (t, c)

namespace Coordinator

/-! ## One pass over the sources -/

def ask (c : Coordinator K) (start : ℕ) (kind : RequestKind) (asked admitted : List K) (now : ℕ) :
    Coordinator K where
  job := (c.job.reserve asked start kind now).finishSend c.job.nextRequestId admitted
  log := c.log ++ [.request c.job.nextRequestId start kind asked admitted now]

/-- What `request_blocks` does with the job: ended cooldowns are dropped, and peers without an
unexpired reservation or a cooldown are asked. -/
inductive Asks (policy : RoutingPolicy K) (now : ℕ) : Coordinator K → Coordinator K → Prop
  | sweep (c : Coordinator K) : Asks policy now c { c with job := c.job.sweep now }
  | ask (c : Coordinator K) (start : ℕ) (kind : RequestKind) (asked admitted : List K)
    (h : ∀ p ∈ asked, p ∈ policy.backfillCandidates ∧ c.job.eligible now p = true) :
    Asks policy now c (c.ask start kind asked admitted now)

variable {policy : RoutingPolicy K} {c c' : Coordinator K} {now start n : ℕ} {p : K}

theorem tryAttempts_asks (leader : Option K) (start : ℕ) (env : Surroundings K)
    {attempts : List (RequestKind × List K)}
    (h : ∀ a ∈ attempts, ∀ p ∈ a.2, p ∈ policy.backfillCandidates) (c : Coordinator K) :
    ReflTransGen (Asks policy env.now) c (tryAttempts leader start env attempts c) := by
  induction attempts generalizing c with
  | nil => exact .refl
  | cons a rest ih =>
    obtain ⟨kind, sources⟩ := a
    have hrest := ih fun a ha => h a (mem_cons_of_mem _ ha)
    have hsweep : Asks policy env.now c { c with job := c.job.sweep env.now } := .sweep c
    simp only [tryAttempts, beginRequest]
    split <;> rename_i heq <;> split at heq <;> cases heq
    · split
      · exact .single hsweep
      · exact .head hsweep (hrest _)
    have hask := fun admitted => Asks.ask { c with job := c.job.sweep env.now } start kind
      (sources.filter ((c.job.sweep env.now).eligible env.now)) admitted fun p hp =>
      ⟨h _ mem_cons_self p (mem_filter.1 hp).1, (mem_filter.1 hp).2⟩
    split
    · exact .head hsweep (.head (hask _) (hrest _))
    · exact .head hsweep (.single (hask _))

theorem requestBlocks_asks (policy : RoutingPolicy K) (c : Coordinator K) (start : ℕ)
    (env : Surroundings K) :
    ReflTransGen (Asks policy env.now) c (c.requestBlocks policy start env) := by
  refine tryAttempts_asks _ _ _ (fun a ha p hp => ?_) c
  rcases mem_append.1 ha with ha | ha
  · obtain ⟨l, hl, rfl⟩ := mem_map.1 ha
    rw [mem_singleton.1 hp]
    have hl := (filter_eq_some_iff.1 (mem_toList.1 hl)).2
    exact of_decide_eq_true (Bool.and_eq_true_iff.1 hl).1
  · rw [mem_singleton.1 ha] at hp
    exact hp

theorem ask_outstanding {r : OutstandingBackfill} {kind : RequestKind} {asked admitted : List K}
    (h : (c.ask start kind asked admitted now).job.outstanding p = some r) :
    c.job.outstanding p = some r ∨
      r.requestId = c.job.nextRequestId ∧ p ∈ asked ∧ p ∈ admitted := by
  obtain ⟨h, hadmitted⟩ := filter_eq_some_iff.1 h
  simp only [reserve] at h
  split at h
  case isTrue hp =>
    cases h
    simp only [ne_eq, not_true_eq_false, false_or, decide_eq_true_eq] at hadmitted
    exact .inr ⟨rfl, hp, hadmitted⟩
  case isFalse => exact .inl h

theorem requests_ask (kind : RequestKind) (asked admitted : List K) :
    (c.ask start kind asked admitted now).requests = c.requests + 1 := by
  simp [requests, ask, Output.isRequest]

theorem requestBlocks_invariant {I : Coordinator K → Prop} {env : Surroundings K}
    (hask : ∀ {c c'}, I c → Asks policy env.now c c' → I c') (start : ℕ) (hc : I c) :
    I (c.requestBlocks policy start env) := by
  have hrun := requestBlocks_asks policy c start env
  generalize c.requestBlocks policy start env = c' at hrun ⊢
  induction hrun with
  | refl => exact hc
  | tail _ hstep ih => exact hask ih hstep

theorem handleResponse_invariant {I : Coordinator K → Prop} {env : Surroundings K} {peer : K}
    {frame : ResponseFrame} {receivedAt : ℕ}
    (hask : ∀ {c c'}, I c → Asks policy env.now c c' → I c')
    (hframe : I (c.handleFrame policy peer frame receivedAt).1) :
    I (c.handleResponse policy peer frame receivedAt env) := by
  unfold handleResponse
  split <;> rename_i heq <;> rw [heq] at hframe
  · exact hframe
  · exact requestBlocks_invariant hask _ hframe

/-! ## Invariants -/

/-- The peer's reservation was made after the first `n` requests. -/
def Since (p : K) (n : ℕ) (c : Coordinator K) : Prop :=
  n ≤ c.requests ∧ ∀ r, c.job.outstanding p = some r →
    ∃ k, n ≤ k ∧ k < c.requests ∧ r.requestId = k % 2 ^ 64

def Admitted (policy : RoutingPolicy K) (c : Coordinator K) (p : K) : Prop :=
  ∀ r, c.job.outstanding p = some r → p ∈ policy.backfillCandidates ∧
    ∃ start kind asked admitted now,
      .request r.requestId start kind asked admitted now ∈ c.log ∧ p ∈ asked ∧ p ∈ admitted

structure Sound (policy : RoutingPolicy K) (c : Coordinator K) : Prop where
  next : c.job.nextRequestId = c.requests % 2 ^ 64
  admitted : ∀ p, Admitted policy c p
  since : ∀ p, Since p 0 c

theorem Since.asks (hnext : c.job.nextRequestId = c.requests % 2 ^ 64) (hs : Since p n c)
    (h : Asks policy now c c') : Since p n c' := by
  cases h with
  | sweep => exact hs
  | ask start kind asked admitted _ =>
    rw [Since, requests_ask]
    refine ⟨le_succ_of_le hs.1, fun r hr => ?_⟩
    rcases ask_outstanding hr with hr | ⟨hid, -⟩
    · obtain ⟨k, hn, hk, hid⟩ := hs.2 r hr
      exact ⟨k, hn, lt_succ_of_lt hk, hid⟩
    · exact ⟨c.requests, hs.1, lt_succ_self _, hid.trans hnext⟩

theorem Sound.asks (hs : Sound policy c) (h : Asks policy now c c') : Sound policy c' where
  next := by
    cases h with
    | sweep => exact hs.next
    | ask =>
      rw [requests_ask]
      exact (congrArg (fun n => (n + 1) % 2 ^ 64) hs.next).trans (mod_add_mod _ _ _)
  admitted p := by
    cases h with
    | sweep => exact hs.admitted p
    | ask start kind asked admitted hfree =>
      intro r hr
      rcases ask_outstanding hr with hr | ⟨hid, hp, hadmitted⟩
      · obtain ⟨hc, start, kind, asked, admitted, now, hlog, hp⟩ := hs.admitted p r hr
        exact ⟨hc, start, kind, asked, admitted, now, mem_append_left _ hlog, hp⟩
      rw [hid]
      exact ⟨(hfree p hp).1, start, kind, asked, admitted, now,
        mem_append_right _ mem_cons_self, hp, hadmitted⟩
  since p := (hs.since p).asks hs.next h

theorem handleFrame_frame (policy : RoutingPolicy K) (c : Coordinator K) (peer : K)
    (frame : ResponseFrame) (now : ℕ) :
    let c' := (c.handleFrame policy peer frame now).1
    c'.job.nextRequestId = c.job.nextRequestId ∧ c.log <+: c'.log ∧ c'.requests = c.requests ∧
      (∀ p r', c'.job.outstanding p = some r' →
        ∃ r, c.job.outstanding p = some r ∧ r'.requestId = r.requestId) ∧
      ∀ p v, c.job.behindUntil p = some v → c'.job.behindUntil p = some v ∨
        c'.job.behindUntil p = some (now + BACKFILL_BEHIND_COOLDOWN) := by
  have hsame : ∀ p r', c.job.outstanding p = some r' →
      ∃ r, c.job.outstanding p = some r ∧ r'.requestId = r.requestId := fun p r' h => ⟨r', h, rfl⟩
  have hremoved : ∀ p r', update c.job.outstanding peer none p = some r' →
      ∃ r, c.job.outstanding p = some r ∧ r'.requestId = r.requestId := fun p r' h => by
    rw [update_apply] at h
    split at h
    · cases h
    · exact hsame p r' h
  unfold handleFrame
  split
  case isFalse => exact ⟨rfl, prefix_rfl, rfl, hsame, fun _ _ h => .inl h⟩
  cases frame with
  | block requestId block =>
    dsimp only
    split
    · refine ⟨rfl, prefix_append _ _, by simp [requests, Output.isRequest], fun p r' h => ?_,
        fun _ _ h => .inl h⟩
      simp only [recordResponse, update_apply] at h
      split at h
      case isTrue hp =>
        obtain ⟨r, hr, rfl⟩ := map_eq_some_iff.1 h
        exact ⟨r, hp ▸ hr, rfl⟩
      case isFalse => exact hsame p r' h
    · exact ⟨rfl, prefix_rfl, rfl, hsame, fun _ _ h => .inl h⟩
  | complete requestId tip =>
    dsimp only [complete]
    split
    · exact ⟨rfl, prefix_rfl, rfl, hsame, fun _ _ h => .inl h⟩
    case h_2 r job heq =>
      split at heq
      case isFalse => cases heq
      obtain ⟨r, hr, heq⟩ := map_eq_some_iff.1 heq
      cases heq
      split
      · refine ⟨rfl, prefix_rfl, rfl, hremoved, fun p v h => ?_⟩
        simp only [markBehind, update_apply]
        split
        · exact .inr rfl
        · exact .inl h
      · exact ⟨rfl, prefix_append _ _, by simp [requests, Output.isRequest], hremoved,
          fun _ _ h => .inl h⟩

theorem Since.frame (hs : Since p n c) (peer : K) (frame : ResponseFrame) (now : ℕ) :
    Since p n (c.handleFrame policy peer frame now).1 := by
  obtain ⟨-, -, hrequests, houtstanding, -⟩ := handleFrame_frame policy c peer frame now
  rw [Since, hrequests]
  refine ⟨hs.1, fun r' hr' => ?_⟩
  obtain ⟨r, hr, hid⟩ := houtstanding p r' hr'
  rw [hid]
  exact hs.2 r hr

theorem Sound.frame (hs : Sound policy c) (peer : K) (frame : ResponseFrame) (now : ℕ) :
    Sound policy (c.handleFrame policy peer frame now).1 := by
  obtain ⟨hnext, hlog, hrequests, houtstanding, -⟩ := handleFrame_frame policy c peer frame now
  refine ⟨by rw [hnext, hrequests, hs.next], fun p r' hr' => ?_, fun p => (hs.since p).frame _ _ _⟩
  obtain ⟨r, hr, hid⟩ := houtstanding p r' hr'
  obtain ⟨hp, start, kind, asked, admitted, now, hmem, hadmitted⟩ := hs.admitted p r hr
  rw [hid]
  exact ⟨hp, start, kind, asked, admitted, now, hlog.subset hmem, hadmitted⟩

theorem Turn.invariant {I : ℕ → Coordinator K → Prop}
    (hwait : ∀ {t now c}, t ≤ now → I t c → I now c)
    (hask : ∀ {now c c'}, I now c → Asks policy now c c' → I now c')
    (hframe : ∀ {now c} peer frame, I now c → I now (c.handleFrame policy peer frame now).1)
    {a b : ℕ × Coordinator K} (ha : I a.1 a.2) (h : ReflTransGen (Turn policy) a b) :
    I b.1 b.2 := by
  induction h with
  | refl => exact ha
  | tail _ hstep ih =>
    cases hstep with
    | request start env hle => exact requestBlocks_invariant hask start (hwait hle ih)
    | response peer frame receivedAt env hle hlater =>
      exact handleResponse_invariant hask (hwait hlater (hframe peer frame (hwait hle ih)))

theorem Sound.of_reached {t : ℕ} (h : Reached policy t c) : Sound policy c :=
  Turn.invariant (I := fun _ c => Sound policy c) (fun _ h => h) Sound.asks
    (fun peer frame h => h.frame peer frame _)
    ⟨rfl, fun _ _ h => (by cases h), fun _ => ⟨le_refl _, fun _ h => (by cases h)⟩⟩ h

theorem Since.run {a b : ℕ × Coordinator K} (hsound : Sound policy a.2) (hs : Since p n a.2)
    (h : ReflTransGen (Turn policy) a b) : Since p n b.2 :=
  (Turn.invariant (I := fun _ c => Sound policy c ∧ Since p n c) (fun _ h => h)
    (fun h hask => ⟨h.1.asks hask, h.2.asks h.1.next hask⟩)
    (fun peer frame h => ⟨h.1.frame peer frame _, h.2.frame peer frame _⟩) ⟨hsound, hs⟩ h).2

/-- The peer is in a cooldown that lasts at least until `u`. -/
def Cooling (p : K) (u t : ℕ) (c : Coordinator K) : Prop :=
  u ≤ t + BACKFILL_BEHIND_COOLDOWN ∧ (t < u → ∃ v, u ≤ v ∧ c.job.behindUntil p = some v)

theorem Cooling.run {u : ℕ} {a b : ℕ × Coordinator K} (hs : Cooling p u a.1 a.2)
    (h : ReflTransGen (Turn policy) a b) : Cooling p u b.1 b.2 := by
  refine Turn.invariant (I := Cooling p u)
    (fun hle h => ⟨h.1.trans (by omega), fun ht => h.2 (by omega)⟩)
    (fun {now c c'} hs hask => ⟨hs.1, fun ht => ?_⟩)
    (fun {now c} peer frame hs => ⟨hs.1, fun ht => ?_⟩)
    hs h
  · obtain ⟨v, huv, hv⟩ := hs.2 ht
    have hsweep : (c.job.behindUntil p).filter (now < ·) = some v := by
      rw [hv, filter_some, if_pos (by simpa using lt_of_lt_of_le ht huv)]
    cases hask with
    | sweep => exact ⟨v, huv, hsweep⟩
    | ask => exact ⟨v, huv, hv⟩
  obtain ⟨v, huv, hv⟩ := hs.2 ht
  rcases (handleFrame_frame policy c peer frame now).2.2.2.2 p v hv with hv | hv
  · exact ⟨v, huv, hv⟩
  · exact ⟨_, hs.1, hv⟩

omit [DecidableEq K] in
theorem Cooling.isBehind {u t now : ℕ} (hs : Cooling p u t c) (ht : t ≤ now) (hu : now < u) :
    c.job.isBehind p now = true := by
  obtain ⟨v, huv, hv⟩ := hs.2 (lt_of_le_of_lt ht hu)
  simp only [BackfillJob.isBehind, hv, any_some, decide_eq_true_eq]
  exact lt_of_lt_of_le hu huv

end Coordinator

end

namespace Example

def policy : RoutingPolicy ℕ := ⟨0, [0, 1, 2]⟩

def env : Surroundings ℕ := ⟨0, some 1, fun _ asked => asked, fun _ _ => List.Subset.refl _⟩

def asked : Coordinator ℕ := Coordinator.requestBlocks policy {} 10 env

end Example
end TempoZones.P2p
