import TempoZones.Zone.AnchoredView

/-!
# One L1 block per attempt, and an untouched mirror

The anchor is set by the first L1 read or by the import, and never changes within an attempt. `Seen`
follows it: before the first access nothing is loaded, and from then on all reads and all loaded
registry slots are at the anchor. The import is reserved to the outermost frame of the opening
transaction, so no revert of a sub-call separates the anchor from the journaled checkpoint.
-/

namespace TempoZones.L1View

open Lib List Option

variable {W S : Type} {env : AttemptEnv W S}
  {account : L1Account} {m' : Machine W S} {l1 : L1State W}

/-! ## Views -/

def ReadsAt (env : AttemptEnv W S) (n : ℕ) (events : List (L1Event W)) : Prop :=
  ∀ e ∈ events, ∃ account slot value, e = .read account slot value ∧
    env.provider account slot n = some value

def LoadedAt (env : AttemptEnv W S) (n : ℕ) (loaded : List (W × W)) : Prop :=
  ∀ e ∈ loaded, env.provider .registry e.1 n = some e.2

/-- Accesses of an attempt: reads at the checkpoint it runs on, or, if it may import, an import and
reads at the imported checkpoint. -/
inductive OneBlock (env : AttemptEnv W S) (imports : Bool) (events : List (L1Event W)) : Prop
  | parent (reads : ReadsAt env env.db.tempo.tempoBlockNumber events)
  | imported (n : ℕ) (rest : List (L1Event W)) (allowed : imports = true)
      (later : env.db.tempo.tempoBlockNumber < n) (shape : events = .imported n :: rest)
      (reads : ReadsAt env n rest)

inductive Seen (env : AttemptEnv W S) (imports : Bool) (m : Machine W S) : Prop
  | untouched (anchor : m.l1.anchor = none) (tempo : m.journal.tempo = env.db.tempo)
      (loaded : m.loaded = []) (events : m.events = [])
  | parent (anchor : m.l1.anchor = some env.db.tempo.tempoBlockNumber)
      (tempo : m.journal.tempo = env.db.tempo)
      (loaded : LoadedAt env env.db.tempo.tempoBlockNumber m.loaded)
      (reads : ReadsAt env env.db.tempo.tempoBlockNumber m.events)
  | imported (n : ℕ) (rest : List (L1Event W)) (allowed : imports = true)
      (later : env.db.tempo.tempoBlockNumber < n) (anchor : m.l1.anchor = some n)
      (tempo : m.journal.tempo.tempoBlockNumber = n) (loaded : LoadedAt env n m.loaded)
      (shape : m.events = .imported n :: rest) (reads : ReadsAt env n rest)

variable {slot value : W}

theorem ReadsAt.concat {n : ℕ} {events : List (L1Event W)} (h : ReadsAt env n events)
    (hvalue : env.provider account slot n = some value) :
    ReadsAt env n (events ++ [.read account slot value]) := by
  intro e he
  rcases mem_append.1 he with he | he
  · exact h e he
  · exact ⟨account, slot, value, mem_singleton.1 he, hvalue⟩

variable {imports : Bool} {m : Machine W S}

theorem Seen.oneBlock (h : Seen env imports m) : OneBlock env imports m.events := by
  cases h with
  | untouched _ _ _ events =>
    rw [events]
    exact .parent nofun
  | parent _ _ _ reads => exact .parent reads
  | imported n rest allowed later _ _ _ shape reads => exact .imported n rest allowed later shape reads

theorem Seen.congr {m : Machine W S} (h : Seen env imports m)
    (htempo : m'.journal.tempo = m.journal.tempo) (hanchor : m'.l1.anchor = m.l1.anchor)
    (hloaded : m'.loaded = m.loaded) (hevents : m'.events = m.events) : Seen env imports m' := by
  cases h with
  | untouched anchor tempo loaded events =>
    exact .untouched (hanchor.trans anchor) (htempo.trans tempo) (hloaded.trans loaded)
      (hevents.trans events)
  | parent anchor tempo loaded reads =>
    refine .parent (hanchor.trans anchor) (htempo.trans tempo) ?_ ?_
    · rwa [hloaded]
    · rwa [hevents]
  | imported n rest allowed later anchor tempo loaded shape reads =>
    refine .imported n rest allowed later (hanchor.trans anchor) ?_ ?_ (hevents.trans shape) reads
    · rwa [htempo]
    · rwa [hloaded]

/-! ## Reads -/

theorem readL1StorageUnmetered_ok {l1' : L1State W} {n : ℕ}
    (h : readL1StorageUnmetered env l1 account slot n = .ok (value, l1')) :
    env.provider account slot n = some value ∧ l1'.anchor = some n ∧
      (∀ a, l1.anchor = some a → a = n) := by
  unfold readL1StorageUnmetered at h
  obtain ⟨l1₁, hset, h⟩ := bind_ok_iff.1 h
  cases hprovider : env.provider account slot n with
  | none =>
    rw [hprovider] at h
    cases h
  | some v =>
    rw [hprovider] at h
    cases h
    refine ⟨rfl, ?_⟩
    unfold L1State.setAnchor at hset
    cases hanchor : l1.anchor with
    | none =>
      rw [hanchor] at hset
      cases hset
      exact ⟨rfl, nofun⟩
    | some current =>
      rw [hanchor] at hset
      simp only at hset
      split at hset
      · next heq =>
        cases hset
        rw [hanchor, heq]
        exact ⟨rfl, fun a ha => (Option.some.inj ha).symm⟩
      · cases hset

/-- An L1 read at the anchor, or at the checkpoint if there is none, keeps the view; `loads` are the
registry slots that it loads. -/
theorem Seen.read (h : Seen env imports m) {n : ℕ} {l1' : L1State W} {loads : List (W × W)}
    (hn : n = m.l1.anchor.getD env.db.tempo.tempoBlockNumber)
    (hread : readL1StorageUnmetered env m.l1 account slot n = .ok (value, l1))
    (hanchor : l1'.anchor = l1.anchor)
    (hloads : ∀ e ∈ loads, account = .registry ∧ e = (slot, value)) :
    Seen env imports { m with
      l1 := l1'
      loaded := loads ++ m.loaded
      events := m.events ++ [.read account slot value] } := by
  obtain ⟨hvalue, hset, -⟩ := readL1StorageUnmetered_ok hread
  have hextend : ∀ k, k = n → LoadedAt env k m.loaded → LoadedAt env k (loads ++ m.loaded) := by
    intro k hk hloaded e he
    rcases mem_append.1 he with he | he
    · obtain ⟨hregistry, rfl⟩ := hloads e he
      rw [← hregistry, hk]
      exact hvalue
    · exact hloaded e he
  cases h with
  | untouched anchor tempo loaded events =>
    rw [anchor, getD_none] at hn
    subst hn
    refine .parent (hanchor.trans hset) tempo ?_ ?_
    · apply hextend _ rfl
      rw [loaded]
      exact nofun
    rw [events]
    intro e he
    exact ⟨account, slot, value, mem_singleton.1 he, hvalue⟩
  | parent anchor tempo loaded reads =>
    rw [anchor, getD_some] at hn
    subst hn
    exact .parent (hanchor.trans hset) tempo (hextend _ rfl loaded) (reads.concat hvalue)
  | imported k rest allowed later anchor tempo loaded shape reads =>
    rw [anchor, getD_some] at hn
    subst hn
    refine .imported n (rest ++ [.read account slot value]) allowed later (hanchor.trans hset)
      tempo (hextend _ rfl loaded) ?_ (reads.concat hvalue)
    rw [shape]
    rfl

variable [DecidableEq W]

theorem sload_seen {m : Machine W S} (h : Seen env imports m)
    (hload : m.sload env slot = .ok (value, m')) :
    Seen env imports m' ∧ m'.journal = m.journal := by
  unfold Machine.sload at hload
  split at hload
  · cases hload
    exact ⟨h, rfl⟩
  split at hload
  · next hcached =>
    cases hload
    refine ⟨?_, rfl⟩
    have hmem : (slot, value) ∈ m.loaded := by
      obtain ⟨l₁, l₂, hsplit, -⟩ := lookup_eq_some_iff.1 hcached
      rw [hsplit]
      exact mem_append_right _ mem_cons_self
    -- a slot that is loaded was read at the anchor
    cases h with
    | untouched _ _ loaded _ =>
      rw [loaded] at hmem
      exact absurd hmem not_mem_nil
    | parent anchor tempo loaded reads =>
      exact .parent anchor tempo loaded (reads.concat (loaded _ hmem))
    | imported n rest allowed later anchor tempo loaded shape reads =>
      refine .imported n (rest ++ [.read .registry slot value]) allowed later anchor tempo loaded
        ?_ (reads.concat (loaded _ hmem))
      simp only [shape, cons_append]
  obtain ⟨⟨v, l1⟩, hoverlay, hload⟩ := bind_ok_iff.1 hload
  cases hload
  refine ⟨?_, rfl⟩
  exact h.read rfl hoverlay rfl fun e he => ⟨rfl, mem_singleton.1 he⟩

theorem loadPortal_seen (h : Seen env imports m) {warm : Bool}
    (hload : loadPortal env m.l1 m.journal.tempo slot = .ok (value, warm, l1)) :
    Seen env imports { m with l1 := l1, events := m.events ++ [.read .portal slot value] } := by
  unfold loadPortal at hload
  obtain ⟨⟨v, l1₁⟩, hread, hload⟩ := bind_ok_iff.1 hload
  cases hload
  have hn : m.l1.anchor.getD m.journal.tempo.tempoBlockNumber =
      m.l1.anchor.getD env.db.tempo.tempoBlockNumber := by
    cases h with
    | untouched anchor tempo loaded events => rw [tempo]
    | parent anchor tempo loaded reads => rw [tempo]
    | imported n rest allowed later anchor tempo loaded shape reads => rw [anchor]; rfl
  have hloads : ∀ e ∈ ([] : List (W × W)), L1Account.portal = .registry ∧ e = (slot, value) := nofun
  have hanchor : ({ l1₁ with accessSet := (env.portalAddress, slot) :: l1₁.accessSet } :
      L1State W).anchor = l1₁.anchor := rfl
  exact h.read hn hread hanchor hloads

variable [EvmWord W]

/-! ## Imports -/

theorem finalizeCheckpoints_seen (hallowed : imports = true) (h : Seen env imports m)
    {headers : List Bytes} {fault : Option StorageWrite} {σ : CheckpointState W}
    (hok : finalizeCheckpoints env.ctx fault ⟨m.journal.tempo, m.l1⟩ headers = (.ok (), σ)) :
    Seen env imports { m with
      journal := { m.journal with tempo := σ.tempo }
      l1 := σ.l1
      events := m.events ++ [.imported σ.tempo.tempoBlockNumber] } := by
  unfold finalizeCheckpoints at hok
  split at hok
  · cases hok
  · next next hchecks =>
    split at hok
    · cases hok
    · next l1 hadvance =>
      obtain ⟨hlater, hnone, rfl⟩ := L1State.advanceAnchor_eq_ok.1 hadvance
      cases fault with
      | some write => cases write <;> cases hok
      | none =>
        cases hok
        cases h with
        | untouched anchor tempo loaded events =>
          rw [tempo] at hlater
          refine .imported next.tempoBlockNumber [] hallowed hlater rfl rfl ?_ ?_ ?_
          · rw [loaded]
            exact nofun
          · rw [events]
            rfl
          · exact nofun
        | parent anchor _ _ _
        | imported n rest allowed later anchor _ _ _ _ =>
          rw [anchor] at hnone
          cases hnone

/-! ## Runs -/

/-- What a run of code leaves: a view, or, after an import whose storage write failed, the end of the
opening transaction. Sub-calls leave the checkpoint alone. -/
def RunOk (env : AttemptEnv W S) (imports opening : Bool) (m : Machine W S)
    (r : Except (L1StateError W) FrameEnd × Machine W S) : Prop :=
  (opening = false → r.2.journal.tempo = m.journal.tempo) ∧
    (Seen env imports r.2 ∨ opening = true ∧ OneBlock env imports r.2.events)

omit [EvmWord W] [DecidableEq W] in
theorem RunOk.of_seen {imports opening : Bool} {m : Machine W S}
    {r : Except (L1StateError W) FrameEnd × Machine W S} (h : RunOk env imports opening m' r)
    (htempo : opening = false → m'.journal.tempo = m.journal.tempo) :
    RunOk env imports opening m r :=
  ⟨fun hopening => (h.1 hopening).trans (htempo hopening), h.2⟩

theorem run_seen :
    ∀ (code : Code W S) (opening : Bool) (m : Machine W S), (opening = true → imports = true) →
      Seen env imports m → RunOk env imports opening m (run env opening code m) := by
  intro code
  induction code with
  | done result =>
    intro opening m _ h
    exact ⟨fun _ => rfl, .inl h⟩
  | sload slot next ih =>
    intro opening m hopening h
    rw [run]
    split
    · exact ⟨fun _ => rfl, .inl h⟩
    · next value m' hload =>
      obtain ⟨hseen, hjournal⟩ := sload_seen h hload
      exact (ih value opening m' hopening hseen).of_seen fun _ => congrArg _ hjournal
  | sstore slot value next ih =>
    intro opening m hopening h
    rw [run]
    split
    · exact ⟨fun _ => rfl, .inl h⟩
    · next old m' hload =>
      obtain ⟨hseen, hjournal⟩ := sload_seen h hload
      refine RunOk.of_seen (ih opening _ hopening ?_) ?_
      · exact hseen.congr rfl rfl rfl rfl
      · exact fun _ => show m'.journal.tempo = m.journal.tempo from congrArg _ hjournal
  | setInfo info next ih =>
    intro opening m hopening h
    rw [run]
    refine RunOk.of_seen (ih opening _ hopening ?_) fun _ => rfl
    exact h.congr rfl rfl rfl rfl
  | readPortal slot next ih =>
    intro opening m hopening h
    rw [run]
    split
    · exact ⟨fun _ => rfl, .inl h⟩
    · next value warm l1 hload =>
      exact (ih value warm opening _ hopening (loadPortal_seen h hload)).of_seen fun _ => rfl
  | finalizeTempo headers fault next ih =>
    intro opening m hopening h
    rw [run]
    split
    · next hop =>
      split
      · next σ hok =>
        refine (ih opening _ hopening (finalizeCheckpoints_seen (hopening hop) h hok)).of_seen ?_
        intro hnot
        rw [hop] at hnot
        cases hnot
      · exact ⟨fun _ => rfl, .inl h⟩
      · exact ⟨fun _ => rfl, .inl h⟩
      · -- the storage write failed: the attempt ends here, whatever the anchor is
        exact ⟨fun _ => rfl, .inr ⟨hop, h.oneBlock⟩⟩
    · exact ⟨fun _ => rfl, .inl h⟩
  | call body next ihbody ih =>
    intro opening m hopening h
    have hbody := ihbody false m nofun h
    have hseen : Seen env imports (run env false body m).2 :=
      hbody.2.resolve_right fun hfalse => by cases hfalse.1
    have htempo := hbody.1 rfl
    rw [run]
    split
    · next e m' hrun =>
      rw [hrun] at hseen htempo
      exact ⟨fun _ => htempo, .inl hseen⟩
    · next m' hrun =>
      rw [hrun] at hseen htempo
      exact (ih .success opening m' hopening hseen).of_seen fun _ => htempo
    · next result m' _ hrun =>
      rw [hrun] at hseen htempo
      -- the rolled-back journal has the checkpoint that the sub-call could not change
      refine RunOk.of_seen (ih result opening _ hopening ?_) fun _ => rfl
      exact hseen.congr htempo.symm rfl rfl rfl
  | other update next ih =>
    intro opening m hopening h
    rw [run]
    refine RunOk.of_seen (ih m.journal.other opening _ hopening ?_) fun _ => rfl
    exact h.congr rfl rfl rfl rfl

theorem executeAttempt_oneBlock (a : Attempt W S) :
    OneBlock env a.opening (executeAttempt env .fresh a).1.events := by
  have hrun := run_seen a.code a.opening (startMachine env .fresh) id (.untouched rfl rfl rfl rfl)
  have hevents : OneBlock env a.opening
      (run env a.opening a.code (startMachine env .fresh)).2.events := hrun.2.elim Seen.oneBlock And.right
  unfold executeAttempt
  split
  · exact .parent nofun
  split
  · next hresult =>
    rw [hresult] at hevents
    exact hevents
  · next hresult =>
    rw [hresult] at hevents
    split
    · exact hevents
    · exact hevents

/-! ## The mirror and the bookkeeping -/

theorem sanitizeState_ok {t t' : Transition W S} (h : sanitizeState t = .ok t') :
    t'.registry = none ∧ t'.tempo = t.tempo ∧ t'.other = t.other := by
  unfold sanitizeState at h
  split at h
  · next hnone =>
    cases h
    exact ⟨hnone, rfl, rfl⟩
  split at h
  · cases h
  split at h
  · cases h
  · cases h
    exact ⟨rfl, rfl, rfl⟩

def ChangesRegistry (db : ZoneDb W S) (m : Machine W S) : Prop :=
  m.journal.registryInfo ≠ db.registryInfo ∨ changedStorageSlots m.loaded m.journal.written ≠ []

theorem sanitizeState_changed {db : ZoneDb W S} (h : ChangesRegistry db m) :
    sanitizeState (transitionOf db .success m) = .error .l1Write := by
  have htouched : ¬ (m.loaded = [] ∧ m.journal.registryInfo = db.registryInfo) := by
    rintro ⟨hloaded, hinfo⟩
    rcases h with h | h
    · exact h hinfo
    · rw [hloaded] at h
      exact h rfl
  simp only [sanitizeState, transitionOf, if_true, if_neg htouched]
  by_cases hinfo : m.journal.registryInfo ≠ db.registryInfo
  · rw [if_pos hinfo]
  · rw [if_neg hinfo, if_pos (h.resolve_left hinfo)]

theorem executeAttempt_l1 (a : Attempt W S) :
    (executeAttempt env (.fresh : L1State W) a).2 = .fresh := by
  unfold executeAttempt
  split
  · rfl
  split
  · rfl
  · split <;> rfl

theorem executeAttempt_registry {a : Attempt W S} {t : Transition W S}
    (h : (executeAttempt env l1 a).1.result = .ok (some t)) : t.registry = none := by
  unfold executeAttempt at h
  split at h
  · cases h
  split at h
  · cases h
  · next result m _ =>
    split at h
    · cases h
    · cases hsanitize : sanitizeState (transitionOf env.db result m) with
      | error e =>
        rw [hsanitize] at h
        cases h
      | ok t' =>
        rw [hsanitize] at h
        cases h
        exact (sanitizeState_ok hsanitize).1

/-- What holds of each attempt of a block. -/
structure Isolated (provider : L1Account → W → ℕ → Option W) (portalAddress : Address)
    (ctx : ZoneCtx W) (p : Performed W S) : Prop where
  /-- The result is the one with fresh bookkeeping. -/
  fresh : p.ended = (executeAttempt ⟨provider, portalAddress, ctx, p.before⟩ .fresh p.attempt).1
  /-- All L1 accesses are at one block. -/
  oneBlock : OneBlock ⟨provider, portalAddress, ctx, p.before⟩ p.attempt.opening p.ended.events
  /-- No transition has the registry account. -/
  transition : ∀ t, p.ended.result = .ok (some t) → t.registry = none
  /-- Local slots and info of the registry stay as they are. -/
  mirror : p.after.registry = p.before.registry ∧ p.after.registryInfo = p.before.registryInfo
  /-- An attempt that would change the registry fails and changes nothing. -/
  changing : ∀ m, run ⟨provider, portalAddress, ctx, p.before⟩ p.attempt.opening p.attempt.code
      (startMachine ⟨provider, portalAddress, ctx, p.before⟩ .fresh) = (.ok .success, m) →
    ChangesRegistry p.before m → p.attempt.entry ≠ .validatePool → p.attempt.valid = true →
    p.ended.result = .error .l1Write ∧ p.after = p.before

omit [EvmWord W] in
theorem after_eq (db : ZoneDb W S) (a : Attempt W S) (ended : Ended W S)
    (h : ∀ t, ended.result = .ok (some t) → t.registry = none) :
    (db.after a ended).registry = db.registry ∧ (db.after a ended).registryInfo = db.registryInfo := by
  unfold ZoneDb.after
  split
  · next t _ hresult => simp only [ZoneDb.commit, h t hresult, elim_none, and_self]
  · exact ⟨rfl, rfl⟩

theorem isolated_attempt (provider : L1Account → W → ℕ → Option W) (portalAddress : Address)
    (ctx : ZoneCtx W) (db : ZoneDb W S) (a : Attempt W S) :
    Isolated provider portalAddress ctx
      ⟨db, a, (executeAttempt ⟨provider, portalAddress, ctx, db⟩ .fresh a).1,
        db.after a (executeAttempt ⟨provider, portalAddress, ctx, db⟩ .fresh a).1⟩ where
  fresh := rfl
  oneBlock := executeAttempt_oneBlock a
  transition _ ht := executeAttempt_registry ht
  mirror := after_eq db a _ fun _ ht => executeAttempt_registry ht
  changing := by
    intro m hrun hchanges hentry hvalid
    have hresult : (executeAttempt ⟨provider, portalAddress, ctx, db⟩ .fresh a).1.result =
        .error .l1Write := by
      unfold executeAttempt
      have hexecuted : ¬ a.valid = false := by
        rw [show a.valid = true from hvalid]
        exact Bool.true_eq_false.mp
      rw [if_neg hexecuted, hrun]
      simp only
      rw [sanitizeState_changed hchanges]
      rfl
    refine ⟨hresult, ?_⟩
    simp only [ZoneDb.after, hresult]
    cases a.entry <;> rfl

/-- Anchored L1 view and untouched mirror. Each attempt has all its L1-backed reads at one block,
the checkpoint of the state it runs on or, in the opening transaction, the one that it imported
before any read; its transition has no registry account; an attempt that would change the registry
fails as a whole; and its result is the one with fresh bookkeeping. -/
theorem anchored_view_untouched_mirror (provider : L1Account → W → ℕ → Option W) (portalAddress : Address)
    (ctx : ZoneCtx W) : ∀ (attempts : List (Attempt W S)) (db : ZoneDb W S),
      (∀ p ∈ (runBlock provider portalAddress ctx db .fresh attempts).1,
        Isolated provider portalAddress ctx p) ∧
      (runBlock provider portalAddress ctx db .fresh attempts).2.2 = .fresh ∧
      (runBlock provider portalAddress ctx db .fresh attempts).2.1.registry = db.registry := by
  intro attempts
  induction attempts with
  | nil =>
    intro db
    exact ⟨nofun, rfl, rfl⟩
  | cons a rest ih =>
    intro db
    have hfirst := isolated_attempt provider portalAddress ctx db a
    have hl1 : (executeAttempt ⟨provider, portalAddress, ctx, db⟩ .fresh a).2 = .fresh :=
      executeAttempt_l1 a
    obtain ⟨hrest, hlast, hregistry⟩ := ih
      (db.after a (executeAttempt ⟨provider, portalAddress, ctx, db⟩ .fresh a).1)
    rw [runBlock]
    simp only [hl1]
    refine ⟨?_, hlast, hregistry.trans hfirst.mirror.1⟩
    intro p hp
    rcases mem_cons.1 hp with rfl | hp
    · exact hfirst
    · exact hrest p hp

end TempoZones.L1View
